import CodeAtlas.Proofs.Store.Patterns
import CodeAtlas.Proofs.Store.Readiness

/-!
# The best matches of a search

`search_returns_top` says what a search of any index finds. The order of its rows is that of their
ranks (`search_le_iff`), so sorting them before the first ones are taken loses no better match.
-/

namespace CodeAtlas.Store

open CodeAtlas.Symbol (Stored)

variable {repository query : String} {kind : Option Symbol.Kind} {limit : Nat} {rows : List Row}

def Cell.toNat : Cell → Nat
  | .integer n => n.toNat
  | _ => 0

/-- What rows are sorted by: whether the name differs from the query, then the octets of the name
and those of the file, then the line. -/
def Row.rank (query : String) (row : Row) : Bool ×ₗ List Nat ×ₗ List Nat ×ₗ Nat :=
  toLex (row.name != query, toLex (Utf8.values row.name.toList,
    toLex (Utf8.values row.file.toList, row.line.toNat)))

/-- The rows that are the answer to a search among others. -/
structure IsTop (rows : List Row) (repository query : String) (kind : Option Symbol.Kind)
    (limit : Nat) (found : List Row) : Prop where
  hit : ∀ row ∈ found, row ∈ rows ∧ row.repository = repository ∧
    isLike row.name.toList (pattern query.toList) = true ∧ ∀ k ∈ kind, row.kind = k.name
  once : (found.map Row.id).Nodup
  length : found.length = min limit (rows.countP (isHit repository query kind))
  sorted : found.Pairwise fun a b => a.rank query ≤ b.rank query
  best : ∀ row ∈ rows, isHit repository query kind row = true → row ∉ found →
    ∀ other ∈ found, other.rank query ≤ row.rank query

theorem is_hit_iff {row : Row} : isHit repository query kind row = true ↔
    row.repository = repository ∧ isLike row.name.toList (pattern query.toList) = true ∧
      ∀ k ∈ kind, row.kind = k.name := by
  cases kind <;> simp [isHit, and_assoc]

theorem search_le_iff {a b : Row} (ha : a.line.IsNat) (hb : b.line.IsNat) :
    searchLe query a b = true ↔ a.rank query ≤ b.rank query := by
  obtain ⟨m, hm⟩ := ha
  obtain ⟨n, hn⟩ := hb
  have hvalues {s t : String} : Utf8.values s.toList = Utf8.values t.toList ↔ s = t :=
    Utf8.values_strict_mono.injective.eq_iff.trans String.toList_inj
  have hline : a.line.le b.line = true ↔ a.line.toNat ≤ b.line.toNat := by
    simp [hm, hn, natCell, Cell.le, Cell.toNat]
  simp only [searchLe, Row.rank, Prod.Lex.toLex_le_toLex, Utf8.values_lt_iff, hvalues,
    ← String.lt_iff_toList_lt, ← hline]
  by_cases hexact : (a.name == query) = (b.name == query)
  · have hsame : (a.name != query) = (b.name != query) := congrArg not hexact
    rw [hexact, bne_self_eq_false, hsame]
    by_cases hname : a.name = b.name
    · by_cases hfile : a.file = b.file <;> simp [hname, hfile]
    · simp [hname]
  · have hfirst : ((a.name == query) != (b.name == query)) = true := by simpa using hexact
    rw [if_pos hfirst, Bool.lt_iff]
    cases ha : a.name == query <;> cases hb : b.name == query <;> simp_all [bne]

/-- The rows of a search in their order, before the first ones are taken. -/
theorem sorted_hits (hrows : ∀ row ∈ rows, row.line.IsNat) :
    (rows.mergeSort (searchLe query)).Pairwise fun a b => a.rank query ≤ b.rank query := by
  have hranks : (rows.mergeSort (searchLe query)).map (Row.rank query) =
      (rows.map (Row.rank query)).mergeSort fun a b => decide (a ≤ b) := by
    refine List.map_mergeSort fun a ha b hb => Bool.eq_iff_iff.mpr ?_
    rw [search_le_iff (hrows a ha) (hrows b hb), decide_eq_true_iff]
  rw [← List.pairwise_map (R := (· ≤ ·)), hranks]
  exact List.sortedLE_mergeSort.pairwise

/-- The rows that a search takes are the best of those it concerns. -/
theorem hits_top (hrows : ∀ row ∈ rows, row.line.IsNat) (hids : (rows.map Row.id).Nodup) :
    IsTop rows repository query kind limit (hits repository query kind limit rows) := by
  let matching := rows.filter (isHit repository query kind)
  let ordered := matching.mergeSort (searchLe query)
  have hmem : ∀ row, row ∈ ordered ↔ row ∈ rows ∧ isHit repository query kind row = true :=
    fun row => List.mem_mergeSort.trans List.mem_filter
  have hsorted : (ordered.take limit ++ ordered.drop limit).Pairwise
      fun a b => a.rank query ≤ b.rank query := by
    rw [List.take_append_drop]
    exact sorted_hits fun row hrow => hrows row (List.mem_filter.mp hrow).1
  rw [List.pairwise_append] at hsorted
  refine ⟨fun row hrow => ?_, ?_, ?_, hsorted.1, fun row hrow hhit hleft other hother => ?_⟩
  · obtain ⟨hrow, hhit⟩ := (hmem row).mp (List.mem_of_mem_take hrow)
    exact ⟨hrow, is_hit_iff.mp hhit⟩
  · have hordered : (ordered.map Row.id).Nodup :=
      ((List.mergeSort_perm matching _).map Row.id).nodup_iff.mpr
        (hids.sublist (List.filter_sublist.map _))
    exact hordered.sublist ((List.take_sublist limit ordered).map _)
  · rw [hits, List.length_take, List.length_mergeSort, List.countP_eq_length_filter]
  · have hrest : row ∈ ordered.take limit ++ ordered.drop limit := by
      rw [List.take_append_drop]
      exact (hmem row).mpr ⟨hrow, hhit⟩
    exact hsorted.2.2 other hother row ((List.mem_append.mp hrest).resolve_left hleft)

/-- The first of the best matches has the name that was asked for, if there is one. -/
theorem IsTop.exact_first {found : List Row} {row : Row}
    (h : IsTop rows repository row.name kind limit found) (hlimit : 1 ≤ limit) (hrow : row ∈ rows)
    (hrepository : row.repository = repository) (hkind : ∀ k ∈ kind, row.kind = k.name) :
    ∃ first ∈ found.head?, first.name = row.name := by
  have hhit : isHit repository row.name kind row = true :=
    is_hit_iff.mpr ⟨hrepository, is_like_pattern_self _, hkind⟩
  have hsome : 0 < rows.countP (isHit repository row.name kind) :=
    List.countP_pos_iff.mpr ⟨row, hrow, hhit⟩
  cases found with
  | nil =>
    have hlength := h.length
    rw [List.length_nil] at hlength
    omega
  | cons first rest =>
    refine ⟨first, rfl, ?_⟩
    have hle : first.rank row.name ≤ row.rank row.name := by
      by_cases hmem : row ∈ first :: rest
      · rcases List.mem_cons.mp hmem with rfl | hmem
        · exact le_rfl
        · exact List.rel_of_pairwise_cons h.sorted hmem
      · exact h.best row hrow hhit hmem first List.mem_cons_self
    rw [Row.rank, Row.rank, Prod.Lex.toLex_le_toLex] at hle
    simpa using (hle.resolve_left (by simp)).1

theorem read_rows_iff : (∃ found, rows.mapM Row.read = .ok found) ↔
    ∀ row ∈ rows, row.read.isOk = true := by
  induction rows with
  | nil => simp [pure, Except.pure]
  | cons row rest ih =>
    rw [List.forall_mem_cons, ← ih, List.mapM_cons]
    cases row.read with
    | error e =>
      constructor
      · rintro ⟨_, h⟩
        cases h
      · rintro ⟨h, _⟩
        cases h
    | ok symbol =>
      constructor
      · rintro ⟨found, h⟩
        obtain ⟨_, _, h⟩ := bind_eq_ok h
        obtain ⟨more, hmore, _⟩ := bind_eq_ok h
        exact ⟨rfl, more, hmore⟩
      · rintro ⟨_, more, hmore⟩
        exact ⟨symbol :: more, by rw [hmore]; rfl⟩

/-- The first of the symbols that are read has the name of the first row. -/
theorem read_rows_head {found : List Stored} {first : Row} (h : rows.mapM Row.read = .ok found)
    (hfirst : first ∈ rows.head?) :
    ∃ symbol ∈ found.head?, symbol.declaration.name = first.name := by
  cases rows with
  | nil => cases hfirst
  | cons row rest =>
    cases hfirst
    rw [List.mapM_cons] at h
    obtain ⟨symbol, hsymbol, h⟩ := bind_eq_ok h
    obtain ⟨more, _, h⟩ := bind_eq_ok h
    cases h
    exact ⟨symbol, rfl, (Row.read_names hsymbol).1⟩

/-- What a query of an index returns, it has from the tables. -/
theorem Keeps.read_ok {α : Type} {store : Store} {query : Query α} {a : α}
    (h : store.Keeps fun _ => Tables.Sound) (hquery : ∀ tables, FailsForGood (query.onTables tables))
    (hread : (store.read query).1 = .ok a) : query.onTables store.tables = .ok a := by
  have hundergoes := Session.Keeps.attempt_undergoes h (transacts_read hquery)
  refine Session.read_ends (fun result _ => result = .ok a → query.onTables store.tables = .ok a)
    (fun b next hattempt hb => ?_) (fun _ _ _ _ herror => by cases herror)
    (fun _ _ _ _ herror => by cases herror) hread
  cases hb
  rw [hattempt] at hundergoes
  cases hundergoes with
  | done hworks => exact hworks.result

variable {store : Store}

/-- What a search of an index returns is read from the best matches among the rows of its tables,
the row with the name that was asked for first; and it returns if these rows can be read. -/
theorem search_returns_top (h : store.Reachable) (repository query : String)
    (kind : Option Symbol.Kind) (limit : Nat) :
    (∀ found, (store.search repository query kind limit).1 = .ok found →
      ∃ rows, rows.mapM Row.read = .ok found ∧
        IsTop store.tables.symbols repository query kind limit rows ∧
        ∀ row ∈ store.tables.symbols, row.name = query → row.repository = repository →
          (∀ k ∈ kind, row.kind = k.name) → 1 ≤ limit →
          ∃ first ∈ found.head?, first.declaration.name = query) ∧
    (store.IsUsable → Text.blank repository = false →
      octetCount (String.ofList (pattern query.toList)) ≤ patternLimit →
      ((∃ found, (store.search repository query kind limit).1 = .ok found) ↔
        ∀ row ∈ hits repository query kind limit store.tables.symbols, row.read.isOk = true)) := by
  have hsound := Session.Keeps.tables_sound h.keeps
  have htop {query : String} : IsTop store.tables.symbols repository query kind limit
      (hits repository query kind limit store.tables.symbols) :=
    hits_top (fun row hrow => (hsound.numbers row hrow).1) hsound.ids
  refine ⟨fun found hfound => ?_, fun husable hnamed hpattern => ?_⟩
  · rw [Store.search, Store.within] at hfound
    split at hfound
    next => cases hfound
    next =>
    have hsearch : store.tables.search repository query kind limit = .ok found :=
      Keeps.read_ok h.keeps (search_fails · repository query kind limit) hfound
    rw [Tables.search] at hsearch
    split at hsearch
    next => cases hsearch
    next =>
    refine ⟨_, hsearch, htop, ?_⟩
    rintro row hrow rfl hrepository hkind hlimit
    obtain ⟨first, hfirst, hname⟩ := htop.exact_first hlimit hrow hrepository hkind
    rw [← hname]
    exact read_rows_head hsearch hfirst
  · have hread : (store.read (.search repository query kind limit)).1 =
        (store.tables.search repository query kind limit).mapError .database :=
      (IsReady.read (h.isReady husable) (search_fails · repository query kind limit)).1
    have hsearch : store.tables.search repository query kind limit =
        (hits repository query kind limit store.tables.symbols).mapM Row.read :=
      if_neg fun hlong => absurd hlong.2.1 (Nat.not_lt.mpr hpattern)
    rw [Store.search, Store.within, if_neg (by simp [hnamed]), hread, hsearch, ← read_rows_iff]
    cases (hits repository query kind limit store.tables.symbols).mapM Row.read with
    | ok found => exact ⟨fun _ => ⟨found, rfl⟩, fun _ => ⟨found, rfl⟩⟩
    | error e =>
      constructor <;>
        · rintro ⟨_, hfound⟩
          cases hfound

/-- Two names of which one is the start of the other. -/
def searchedStore : Store :=
  sampleStore.run [.call (.insert { sampleDeclaration "r" 1 none with name := "F2" }),
    .call (.insert (sampleDeclaration "r" 2 none))]

/-- The name that was asked for is found first. -/
theorem search_returns_top_sample : searchedStore.IsUsable ∧
    ∃ found, (searchedStore.search "r" "f" none 1).1 = .ok found ∧
      ∃ first ∈ found.head?, first.declaration.name = "f" := by
  have hreachable : searchedStore.Reachable := ⟨_, _, _, _, _, sample_disk_empty, open_sample, rfl⟩
  have husable : searchedStore.IsUsable := by decide +kernel
  have hread : ∀ row ∈ searchedStore.tables.symbols, row.read.isOk = true := by decide +kernel
  obtain ⟨htop, hreturns⟩ := search_returns_top hreachable "r" "f" none 1
  obtain ⟨found, hfound⟩ := (hreturns husable (by decide) (by decide)).mpr fun row hrow =>
    hread row (List.mem_filter.mp (List.mem_mergeSort.mp (List.mem_of_mem_take hrow))).1
  obtain ⟨_, _, _, hfirst⟩ := htop found hfound
  refine ⟨husable, found, hfound, hfirst (.ofDeclaration 2 (sampleDeclaration "r" 2 none) 0) ?_ rfl
    rfl (fun _ h => by cases h) le_rfl⟩
  decide +kernel

end CodeAtlas.Store
