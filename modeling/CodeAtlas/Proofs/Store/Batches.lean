import CodeAtlas.Proofs.Store.Readiness

/-!
# Writing in batches

Declarations that are written in batches leave the tables as they are when the declarations are
written one by one, for every size of the batches, apart from the times in the rows
(`Tables.untimed`). If one of them cannot be written, the batches before its own stay and nothing
else does. `insert_many_batches` is the whole law.
-/

namespace CodeAtlas.Store

open CodeAtlas.Symbol (Declaration)

/-! ## Times left out -/

def Row.untimed (row : Row) : Row := { row with createdAt := .integer 0, updatedAt := .integer 0 }

/-- Tables apart from the times of symbols. -/
def Tables.untimed (tables : Tables) : Tables :=
  { tables with symbols := tables.symbols.map Row.untimed }

section Untimed

variable {rows : List Row}

theorem next_id_untimed (rows : List Row) : nextId (rows.map Row.untimed) = nextId rows := by
  cases rows with
  | nil => rfl
  | cons row rest =>
    rw [List.map_cons, nextId, nextId, List.foldl_map]
    rfl

theorem replace_row_untimed (changed : Row) (rows : List Row) :
    replaceRow changed.untimed (rows.map Row.untimed) =
      (replaceRow changed rows).map Row.untimed := by
  rw [replaceRow, replaceRow, List.map_map, List.map_map]
  apply List.map_congr_left
  intro row _
  change (if row.id = changed.id then changed.untimed else row.untimed) =
    Row.untimed (if row.id = changed.id then changed else row)
  split <;> rfl

theorem parent_exists_untimed (rows : List Row) (parent : Option Cell) :
    parentExists (rows.map Row.untimed) parent = parentExists rows parent := by
  rcases parent with _ | (_ | _ | _)
  case some.integer id => exact List.any_map
  all_goals rfl

/-- Where a declaration goes does not depend on times. -/
theorem place_row_untimed (d : Declaration) (now : Int) (rows : List Row) :
    placeRow d 0 (rows.map Row.untimed) =
      ((placeRow d now rows).1, (placeRow d now rows).2.map Row.untimed) := by
  have hfind : (rows.map Row.untimed).find? (fun row => row.key == declarationKey d) =
      (rows.find? fun row => row.key == declarationKey d).map Row.untimed := List.find?_map ..
  rw [placeRow, placeRow, hfind]
  cases rows.find? fun row => row.key == declarationKey d with
  | some old => exact congrArg (old.id, ·) (replace_row_untimed (old.redeclare d now) rows)
  | none =>
    dsimp only [Option.map]
    rw [next_id_untimed, List.map_append]
    rfl

theorem upsert_untimed (tables : Tables) (d : Declaration) (now : Int) :
    tables.untimed.upsert d 0 =
      (tables.upsert d now).map fun done => (done.1, done.2.untimed) := by
  rw [Tables.upsert, Tables.upsert, Tables.untimed, place_row_untimed d now]
  dsimp only
  rw [parent_exists_untimed]
  split <;> rfl

end Untimed

/-! ## Single writes in turn -/

/-- The tables after declarations were written one by one at a time, or the failure of the first one
that cannot be written. -/
def Tables.writeEach (now : Int) (ds : List Declaration) (tables : Tables) : Result Tables :=
  ds.foldlM (fun tables d => (tables.upsert d now).map Prod.snd) tables

namespace Tables

variable {now : Int} {ds : List Declaration} {tables after before : Tables} {d : Declaration}
  {e : DatabaseError}

theorem write_each_append (ds more : List Declaration) :
    tables.writeEach now (ds ++ more) = tables.writeEach now ds >>= writeEach now more :=
  List.foldlM_append

theorem write_each_split (n : Nat) (ds : List Declaration) : tables.writeEach now ds =
    tables.writeEach now (ds.take n) >>= writeEach now (ds.drop n) := by
  rw [← write_each_append, List.take_append_drop]

theorem write_each_failed {k : Nat} (hd : ds[k]? = some d)
    (hbefore : tables.writeEach now (ds.take k) = .ok before)
    (hfailed : before.upsert d now = .error e) : tables.writeEach now ds = .error e := by
  obtain ⟨hk, rfl⟩ := List.getElem?_eq_some_iff.mp hd
  rw [write_each_split k, hbefore, List.drop_eq_getElem_cons hk]
  change before.writeEach now (ds[k] :: ds.drop (k + 1)) = _
  rw [writeEach, List.foldlM_cons, hfailed]
  rfl

theorem write_each_take_failed {k size : Nat} (hk : k < size) (hd : ds[k]? = some d)
    (hbefore : tables.writeEach now (ds.take k) = .ok before)
    (hfailed : before.upsert d now = .error e) : tables.writeEach now (ds.take size) = .error e := by
  refine write_each_failed (k := k) (d := d) ?_ ?_ hfailed
  · rw [List.getElem?_take_of_lt hk, hd]
  · rw [List.take_take, min_eq_left hk.le, hbefore]

theorem write_each_untimed (now : Int) (ds : List Declaration) (tables : Tables) :
    tables.untimed.writeEach 0 ds = (tables.writeEach now ds).map untimed := by
  induction ds generalizing tables with
  | nil => rfl
  | cons d ds ih =>
    rw [writeEach, writeEach, List.foldlM_cons, List.foldlM_cons, upsert_untimed tables d now]
    cases tables.upsert d now with
    | error e => rfl
    | ok done => exact ih done.2

theorem upsert_all_eq (now : Int) (ds : List Declaration) (tables : Tables) :
    tables.upsertAll ds now = (tables.writeEach now ds).map fun after => (ds.length, after) := by
  have heach (ds : List Declaration) (tables : Tables) :
      upsertEach now ds tables = tables.writeEach now ds := by
    induction ds generalizing tables with
    | nil => rfl
    | cons d ds ih =>
      rw [upsertEach, writeEach, List.foldlM_cons]
      cases tables.upsert d now with
      | error e => rfl
      | ok done => exact ih done.2
  rw [upsertAll, heach]

end Tables

/-! ## Batches in turn -/

section Batches

variable {store : Store} {ds : List Declaration}

/-- What writing declarations one by one comes to, on tables without times: how a call with batches
of a size ends. -/
structure Batched (size : Nat) (ds : List Declaration) (tables : Tables)
    (outcome : Except Error Nat × Store) : Prop where
  /-- If all can be written, all are. -/
  success : ∀ after, tables.writeEach 0 ds = .ok after →
    outcome.1 = .ok ds.length ∧ outcome.2.tables.untimed = after
  /-- If one cannot be written, the batches before its own are. -/
  failure : ∀ k d before e, ds[k]? = some d → tables.writeEach 0 (ds.take k) = .ok before →
    before.upsert d 0 = .error e → outcome.1 = .error (.database e) ∧
      tables.writeEach 0 (ds.take (k / size * size)) = .ok outcome.2.tables.untimed

theorem batched_nil (size : Nat) (store : Store) :
    Batched size [] store.tables.untimed (.ok 0, store) where
  success after hdone := by
    cases hdone
    exact ⟨rfl, rfl⟩
  failure _ _ _ _ hd := nomatch hd

theorem batched_failed {size : Nat} {tables : Tables} {e : DatabaseError} {next : Store}
    (hfailed : tables.writeEach 0 (ds.take size) = .error e)
    (htables : next.tables.untimed = tables) :
    Batched size ds tables (.error (.database e), next) where
  success after hdone := by
    rw [Tables.write_each_split size, hfailed] at hdone
    cases hdone
  failure k d before cause hd hbefore hcause := by
    have hk : k < size := by
      by_contra hle
      -- the declarations before the one that fails include the whole batch
      rw [Tables.write_each_split size, List.take_take, min_eq_left (Nat.le_of_not_lt hle),
        hfailed] at hbefore
      cases hbefore
    cases hfailed.symm.trans (Tables.write_each_take_failed hk hd hbefore hcause)
    rw [Nat.div_eq_of_lt hk, htables, Nat.zero_mul]
    exact ⟨rfl, rfl⟩

theorem batched_done {size : Nat} {tables middle : Tables} {outcome : Except Error Nat × Store}
    (hsize : 0 < size) (hdone : tables.writeEach 0 (ds.take size) = .ok middle)
    (hrest : Batched size (ds.drop size) middle outcome) :
    Batched size ds tables (outcome.1.map ((ds.take size).length + ·), outcome.2) where
  success after hafter := by
    rw [Tables.write_each_split size, hdone] at hafter
    obtain ⟨hcount, htables⟩ := hrest.success after hafter
    refine ⟨?_, htables⟩
    rw [hcount]
    change Except.ok ((ds.take size).length + (ds.drop size).length) = _
    rw [← List.length_append, List.take_append_drop]
  failure k d before e hd hbefore hfailed := by
    have hk : size ≤ k := by
      by_contra hlt
      -- the one that fails would be in the batch that was written
      cases hdone.symm.trans
        (Tables.write_each_take_failed (Nat.lt_of_not_le hlt) hd hbefore hfailed)
    have htake (n : Nat) : tables.writeEach 0 (ds.take (size + n)) =
        middle.writeEach 0 ((ds.drop size).take n) := by
      rw [List.take_add, Tables.write_each_append, hdone]
      rfl
    obtain ⟨n, rfl⟩ := Nat.exists_eq_add_of_le hk
    obtain ⟨hresult, hkept⟩ := hrest.failure n d before e
      (by rw [List.getElem?_drop, hd]) (htake n ▸ hbefore) hfailed
    refine ⟨by rw [hresult]; rfl, ?_⟩
    rw [Nat.add_div_left n hsize, Nat.succ_mul, Nat.add_comm, htake, hkept]

theorem IsReady.write_batch (h : store.IsReady)
    (hnamed : ∀ d ∈ ds, Text.blank d.repository = false) :
    (∃ next, store.write "insert_symbols" (.upsertAll ds) = (.ok ds.length, next) ∧ next.IsReady ∧
      store.tables.untimed.writeEach 0 ds = .ok next.tables.untimed) ∨
    ∃ e next, store.write "insert_symbols" (.upsertAll ds) = (.error (.database e), next) ∧
      next.tables = store.tables ∧ store.tables.untimed.writeEach 0 ds = .error e := by
  have hends := h.write (Statement.upsert_all_sound hnamed) "insert_symbols"
  have hall (now : Int) : (Statement.upsertAll ds).onTables now store.tables = _ :=
    Tables.upsert_all_eq now ds store.tables
  rcases hwrite : store.write "insert_symbols" (.upsertAll ds) with ⟨result, next⟩
  rw [hwrite] at hends
  cases hends with
  | done now hready hdone =>
    left
    rw [hall now] at hdone
    obtain ⟨after, hafter, hsame⟩ := map_eq_ok hdone
    cases hsame
    rw [Tables.write_each_untimed now, hafter]
    exact ⟨next, rfl, hready, rfl⟩
  | @failed e _ now hready hfailed htables =>
    right
    rw [hall now] at hfailed
    refine ⟨e, next, rfl, htables, ?_⟩
    rw [Tables.write_each_untimed now]
    cases hafter : store.tables.writeEach now ds with
    | ok after => rw [hafter] at hfailed; cases hfailed
    | error cause => rw [hafter] at hfailed; cases hfailed; rfl

theorem insert_batches_cons {next : Store} {batch : List Declaration} {n : Nat}
    {batches : List (List Declaration)}
    (hdone : store.write "insert_symbols" (.upsertAll batch) = (.ok n, next)) :
    store.insertBatches (batch :: batches) =
      ((next.insertBatches batches).1.map (n + ·), (next.insertBatches batches).2) := by
  rw [insertBatches, hdone]
  dsimp only
  rcases next.insertBatches batches with ⟨_ | _, _⟩ <;> rfl

theorem IsReady.insert_pieces {size most : Nat} (h : store.IsReady) (hsize : 0 < size)
    (hmost : ds.length ≤ most) (hnamed : ∀ d ∈ ds, Text.blank d.repository = false) :
    Batched size ds store.tables.untimed (store.insertBatches (piecesWithin size most ds)) := by
  fun_induction piecesWithin size most ds generalizing store with
  | case1 ds =>
    cases List.eq_nil_of_length_eq_zero (Nat.le_zero.mp hmost)
    exact batched_nil size store
  | case2 => exact batched_nil size store
  | case3 most ds hds ih =>
    have hlength : (ds.drop size).length ≤ most := by
      rw [List.length_drop]
      omega
    rcases h.write_batch fun d hd => hnamed d (List.mem_of_mem_take hd) with
      ⟨next, hwrite, hready, hdone⟩ | ⟨e, next, hwrite, htables, hfailed⟩
    · rw [insert_batches_cons hwrite]
      exact batched_done hsize hdone
        (ih hready hlength fun d hd => hnamed d (List.mem_of_mem_drop hd))
    · rw [insertBatches, hwrite]
      exact batched_failed hfailed (congrArg Tables.untimed htables)

theorem IsReady.insert_many (h : store.IsReady) (hsize : 0 < store.options.batchSize)
    (hnamed : ∀ d ∈ ds, Text.blank d.repository = false) :
    Batched store.options.batchSize ds store.tables.untimed (store.insertMany ds) := by
  have hnone : (ds.any fun d => Text.blank d.repository) = false :=
    List.any_eq_false.mpr fun d hd => by rw [hnamed d hd]; exact nofun
  rw [insertMany, hnone, pieces]
  cases ds with
  | nil => exact batched_nil _ store
  | cons first rest =>
    have hleast : 0 < min store.options.batchSize (first :: rest).length :=
      lt_min hsize (Nat.succ_pos _)
    have hbatched := h.insert_pieces hleast (Nat.le_refl _) hnamed
    refine ⟨hbatched.success, fun k d before e hd hbefore hfailed => ?_⟩
    obtain ⟨hresult, hkept⟩ := hbatched.failure k d before e hd hbefore hfailed
    refine ⟨hresult, ?_⟩
    obtain ⟨hk, _⟩ := List.getElem?_eq_some_iff.mp hd
    -- a size beyond all declarations makes one batch, like the size of all of them
    have hwhole : k / min store.options.batchSize (first :: rest).length *
        min store.options.batchSize (first :: rest).length =
          k / store.options.batchSize * store.options.batchSize := by
      rcases Nat.le_total store.options.batchSize (first :: rest).length with hle | hle
      · rw [min_eq_left hle]
      · rw [min_eq_right hle, Nat.div_eq_of_lt hk, Nat.div_eq_of_lt (hk.trans_le hle),
          Nat.zero_mul, Nat.zero_mul]
    rw [hwhole] at hkept
    exact hkept

/-- The law of batches. Nothing is written if a repository is blank. Otherwise the tables are, apart
from times, those after the declarations are written one by one; and if one of them is the first
that cannot be written, those after the declarations of the batches before its own. -/
theorem insert_many_batches (h : store.Reachable) (husable : store.IsUsable)
    (hsize : 0 < store.options.batchSize) (ds : List Declaration) (now : Int) :
    ((∃ d ∈ ds, Text.blank d.repository = true) →
      store.insertMany ds = (.error .missingRepository, store)) ∧
    ((∀ d ∈ ds, Text.blank d.repository = false) →
      (∀ after, store.tables.writeEach now ds = .ok after →
        (store.insertMany ds).1 = .ok ds.length ∧
        (store.insertMany ds).2.tables.untimed = after.untimed) ∧
      ∀ k d before e, ds[k]? = some d → store.tables.writeEach now (ds.take k) = .ok before →
        before.upsert d now = .error e →
          (store.insertMany ds).1 = .error (.database e) ∧
          ∃ kept, store.tables.writeEach now
              (ds.take (k / store.options.batchSize * store.options.batchSize)) = .ok kept ∧
            (store.insertMany ds).2.tables.untimed = kept.untimed) := by
  refine ⟨fun ⟨d, hd, hblank⟩ => ?_, fun hnamed => ?_⟩
  · rw [insertMany, if_pos (List.any_eq_true.mpr ⟨d, hd, hblank⟩)]
  · have hbatched := (h.isReady husable).insert_many hsize hnamed
    refine ⟨fun after hafter => hbatched.success _ ?_, fun k d before e hd hbefore hfailed => ?_⟩
    · rw [Tables.write_each_untimed now, hafter]
      rfl
    · obtain ⟨hresult, hkept⟩ := hbatched.failure k d before.untimed e hd
        (by rw [Tables.write_each_untimed now, hbefore]; rfl)
        (by rw [upsert_untimed before d now, hfailed]; rfl)
      rw [Tables.write_each_untimed now] at hkept
      obtain ⟨kept, hwritten, huntimed⟩ := map_eq_ok hkept
      exact ⟨hresult, kept, hwritten, huntimed.symm⟩

end Batches

/-! ## A sample -/

/-- An index with a row. -/
def batchStore : Store :=
  sampleStore.run [.call (.insert (sampleDeclaration "s" 1 none)), .passTime 7]

/-- A declaration that is there already, one that is its own parent, one with the first as its
parent, one whose parent is not there, and one more. -/
def sampleBatch : List Declaration :=
  [sampleDeclaration "s" 1 (some 1), sampleDeclaration "r" 1 (some 2),
    sampleDeclaration "s" 2 (some 1), sampleDeclaration "s" 3 (some 9),
    sampleDeclaration "s" 4 none]

/-- What the first batch of the sample comes to, and the third declaration after it. -/
def sampleWritten : Tables :=
  { symbols := [(Row.ofDeclaration 1 (sampleDeclaration "s" 1 none) 0).redeclare
        (sampleDeclaration "s" 1 (some 1)) 3,
      .ofDeclaration 2 (sampleDeclaration "r" 1 (some 2)) 3,
      .ofDeclaration 3 (sampleDeclaration "s" 2 (some 1)) 3] }

/-- The first batch of the sample stays, and the second one leaves no trace. -/
theorem insert_many_second_batch :
    batchStore.tables.writeEach 3 (sampleBatch.take 3) = .ok sampleWritten ∧
    (batchStore.insertMany sampleBatch).1 = .error (.database foreignKeyFailure) ∧
    (batchStore.insertMany sampleBatch).2.tables.untimed.symbols =
      (sampleWritten.untimed.symbols.take 2) := by
  have hreachable : batchStore.Reachable := ⟨_, _, _, _, _, sample_disk_empty, open_sample, rfl⟩
  have hnamed : ∀ d ∈ sampleBatch, Text.blank d.repository = false := by decide +kernel
  have hwritten : batchStore.tables.writeEach 3 (sampleBatch.take 3) = .ok sampleWritten := by
    decide +kernel
  have hfailed : sampleWritten.upsert (sampleDeclaration "s" 3 (some 9)) 3 =
      .error foreignKeyFailure := by decide +kernel
  obtain ⟨hresult, kept, hkept, huntimed⟩ := ((insert_many_batches hreachable (by decide +kernel)
    (by decide +kernel) sampleBatch 3).2 hnamed).2 3 _ _ _ rfl hwritten hfailed
  refine ⟨hwritten, hresult, ?_⟩
  have hfirst : batchStore.tables.writeEach 3
      (sampleBatch.take (3 / batchStore.options.batchSize * batchStore.options.batchSize)) =
        .ok { sampleWritten with symbols := sampleWritten.symbols.take 2 } := by decide +kernel
  rw [hkept] at hfirst
  cases hfirst
  rw [huntimed]
  rfl

end CodeAtlas.Store
