import CodeAtlas.Proofs.Store.Batches
import CodeAtlas.Proofs.Store.Frames

/-!
# What a bulk write has stored

Batches of a bulk write are tried one by one, and a batch that meets with damage has the whole
database replaced. So a bulk write that succeeds has stored the declarations of its batches from the
last replacement on, each occurrence as it was declared last (`insert_many_records`): all of them if
no batch but the first met with damage. Those of the batches before are gone, although the write
counts them (`insert_many_forgets`).
-/

namespace CodeAtlas.Store

open Files (FileTree Location)
open Logging (Event)
open CodeAtlas.Symbol (Declaration)

/-! ## Rows of declarations -/

/-- Whether there is a row with everything that a declaration says. -/
def Tables.Records (tables : Tables) (d : Declaration) : Prop :=
  ∃ row ∈ tables.symbols, row.untimed = (Row.ofDeclaration row.id d 0).untimed

instance (tables : Tables) (d : Declaration) : Decidable (tables.Records d) :=
  inferInstanceAs (Decidable (∃ row ∈ tables.symbols, _))

namespace Tables

variable {tables after : Tables} {d other : Declaration} {now id : Int} {ds : List Declaration}

theorem records_upsert (h : tables.upsert d now = .ok (id, after)) : after.Records d := by
  obtain ⟨_, ⟨old, hold, hkey, _, rfl⟩ | ⟨_, _, rfl⟩⟩ := upsert_cases h
  · refine ⟨old.redeclare d now, List.mem_map.mpr ⟨old, hold, if_pos rfl⟩, ?_⟩
    simp only [Row.key, declarationKey, Key.mk.injEq] at hkey
    obtain ⟨hline, hcolumn, hname, hfile, hrepository⟩ := hkey
    simp only [Row.untimed, Row.redeclare, Row.ofDeclaration, hline, hcolumn, hname, hfile,
      hrepository]
  · exact ⟨_, List.mem_append_right _ (List.mem_singleton_self _), rfl⟩

/-- What is recorded of an occurrence stays as long as no other declaration of it is written. -/
theorem Records.upsert (h : tables.Records d) (hsound : tables.Sound)
    (hother : declarationKey other ≠ declarationKey d)
    (hdone : tables.upsert other now = .ok (id, after)) : after.Records d := by
  obtain ⟨row, hrow, hdata⟩ := h
  have hkey : row.key = declarationKey d := congrArg Row.key hdata
  obtain ⟨_, ⟨old, hold, hold_key, _, rfl⟩ | ⟨_, _, rfl⟩⟩ := upsert_cases hdone
  · have hid : row.id ≠ old.id := by
      intro heq
      rw [hsound.row_unique hrow hold heq, hold_key] at hkey
      exact hother hkey
    exact ⟨row, List.mem_map.mpr ⟨row, hrow, if_neg hid⟩, hdata⟩
  · exact ⟨row, List.mem_append_left _ hrow, hdata⟩

theorem Records.congr (h : tables.Records d) (hsame : tables.untimed = after.untimed) :
    after.Records d := by
  obtain ⟨row, hrow, hdata⟩ := h
  have hmem : row.untimed ∈ after.untimed.symbols := hsame ▸ List.mem_map_of_mem hrow
  obtain ⟨other, hother, heq⟩ := List.mem_map.mp hmem
  have hid : row.untimed.id = other.untimed.id := congrArg Row.id heq.symm
  refine ⟨other, hother, ?_⟩
  rw [heq, hdata]
  exact congrArg (fun id => (Row.ofDeclaration id d 0).untimed) hid

theorem write_each_cons_ok (h : tables.writeEach now (d :: ds) = .ok after) :
    ∃ id middle, tables.upsert d now = .ok (id, middle) ∧ middle.writeEach now ds = .ok after := by
  rw [writeEach, List.foldlM_cons] at h
  obtain ⟨_, hmapped, hrest⟩ := bind_eq_ok h
  obtain ⟨⟨id, middle⟩, hfirst, rfl⟩ := map_eq_ok hmapped
  exact ⟨id, middle, hfirst, hrest⟩

/-- What is recorded stays while other occurrences are written. -/
theorem Records.write_each (h : tables.Records d) (hsound : tables.Sound)
    (hnamed : ∀ other ∈ ds, Text.blank other.repository = false)
    (hothers : ∀ other ∈ ds, declarationKey other ≠ declarationKey d)
    (hdone : tables.writeEach now ds = .ok after) : after.Records d := by
  induction ds generalizing tables with
  | nil =>
    cases hdone
    exact h
  | cons first ds ih =>
    obtain ⟨id, middle, hfirst, hrest⟩ := write_each_cons_ok hdone
    exact ih (h.upsert hsound (hothers first (.head _)) hfirst)
      (hsound.upsert (hnamed first (.head _)) hfirst)
      (fun other hother => hnamed other (.tail _ hother))
      (fun other hother => hothers other (.tail _ hother)) hrest

/-- Of declarations that were written in turn, the last one of each occurrence is recorded. -/
theorem write_each_records (hsound : tables.Sound)
    (hnamed : ∀ other ∈ ds, Text.blank other.repository = false)
    (hdone : tables.writeEach now ds = .ok after) {before rest : List Declaration}
    (hds : ds = before ++ d :: rest)
    (hlast : ∀ other ∈ rest, declarationKey other ≠ declarationKey d) : after.Records d := by
  induction before generalizing tables ds with
  | nil =>
    subst hds
    obtain ⟨id, middle, hfirst, hrest⟩ := write_each_cons_ok hdone
    exact (records_upsert hfirst).write_each (hsound.upsert (hnamed d (.head _)) hfirst)
      (fun other hother => hnamed other (.tail _ hother)) hlast hrest
  | cons first before ih =>
    subst hds
    obtain ⟨id, middle, hfirst, hrest⟩ := write_each_cons_ok hdone
    exact ih (hsound.upsert (hnamed first (.head _)) hfirst)
      (fun other hother => hnamed other (.tail _ hother)) hrest rfl

end Tables

/-! ## Sessions that lose their tables -/

namespace Session

variable {α : Type} {path : String} {s next last : DiskSession}
  {effect : Effect α}
  {use : Use α}

/-- How often the database was replaced, as it was reported. -/
def replacements (path : String) (s : DiskSession) : Nat :=
  s.log.count (recreated path)

/-- A session without connection whose file is broken, so that only a replacement helps. -/
def IsLost (path : String) (s : DiskSession) : Prop :=
  s.connection = none ∧ ∃ location, placeOf? path s.world.tree = some (.file location) ∧
    ¬ s.world.IsIntact (.file location)

theorem log_attempt (access : Access Connection Disk) (body : Use α) (s : DiskSession) :
    (s.attempt access body).2.log = s.log := by
  unfold attempt
  split
  · rfl
  · split <;> rfl

theorem log_forget (access : Access Connection Disk) (s : DiskSession) :
    (s.forget access).log = s.log := by
  unfold forget
  split <;> rfl

/-- Who has lost its file fails and has lost it still. -/
theorem IsLost.attempt (h : s.IsLost path) (hkeeps : s.IsSound path) (body : Use α) :
    ∃ e, (s.attempt (diskAccess path) body).1 = .error e ∧
      (s.attempt (diskAccess path) body).2.IsLost path := by
  obtain ⟨connection, world, log⟩ := s
  obtain ⟨hnone, location, hplace, hbroken⟩ := h
  cases hnone
  obtain ⟨hmet, _⟩ := hkeeps.meet_remains
  have hfails : ∃ e failed, world.tryConnect path = (.error e, failed) := by
    unfold Disk.tryConnect
    split
    · exact ⟨_, _, rfl⟩
    · next met heq =>
      rw [heq] at hmet
      obtain ⟨address, hparse, hsite, haim⟩ := aim_of_place (hmet.place.trans hplace)
      have hstill : ¬ met.IsIntact (.file location) := fun hintact =>
        hbroken ((hmet.intact _ hplace).mp hintact)
      obtain ⟨e, failed, hconnect, _⟩ := Disk.connect_broken hparse hsite haim hstill
      exact ⟨e, failed, hconnect⟩
  obtain ⟨e, failed, hfails⟩ := hfails
  have hopens := hkeeps.try_connect_opens
  rw [hfails] at hopens
  have hremains := hopens.2
  have hattempt : Session.attempt (diskAccess path) body ⟨none, world, log⟩ =
      (.error e, ⟨none, failed, log⟩) := by
    unfold Session.attempt
    dsimp only [diskAccess]
    rw [hfails]
  rw [hattempt]
  exact ⟨e, rfl, rfl, location, hremains.place.trans hplace, fun hintact =>
    hbroken ((hremains.intact _ hplace).mp hintact)⟩

/-- Closing the connection to a file leaves the tables as they are, or the file was broken. -/
theorem Keeps.forget_cases (h : s.IsSound path) (hfile : IsInFile path) :
    Remains path s (s.forget (diskAccess path)) ∨ (s.forget (diskAccess path)).IsLost path := by
  by_cases hintact : ∀ place, placeOf? path s.world.tree = some place → s.world.IsIntact place
  · exact .inl (h.forget_remains hfile hintact)
  · right
    simp only [not_forall] at hintact
    obtain ⟨place, hplace, hbroken⟩ := hintact
    obtain ⟨location, rfl⟩ := hfile.is_file hplace
    obtain ⟨connection, world, log⟩ := s
    cases connection with
    | none => exact ⟨rfl, location, hplace, hbroken⟩
    | some connection =>
      have hserves := h.serves connection rfl
      obtain ⟨found, manner, _, rfl⟩ := hserves.not_own hfile
      cases hserves.place_eq.symm.trans hplace
      have hpaths := (Disk.unlink_shape world location).sameLinks
      exact ⟨rfl, location, (Disk.place_of_paths hpaths).trans hplace,
        Disk.broken_of_unlink hbroken⟩

/-! ## Operations that replace the database -/

/-- A session that an operation has come to: its tables are those that it began with, unless the
database was replaced since or is lost. -/
structure Follows (path : String) (s next : DiskSession) : Prop where
  keeps : next.IsSound path
  count : s.replacements path ≤ next.replacements path
  tables : IsInFile path → next.replacements path = s.replacements path →
    next.tables path = s.tables path ∨ next.IsLost path

/-- A session after an operation that has had its effect: on the tables that it began with, unless
the database was replaced on the way. -/
structure Accomplishes (path : String) (effect : Effect α) (s : DiskSession) (a : α)
    (next : DiskSession) : Prop where
  keeps : next.IsSound path
  count : s.replacements path ≤ next.replacements path
  effect : ∃ now base, base.Sound ∧
    effect now (.tables base) = (.ok a, .tables (next.tables path)) ∧
    (IsInFile path → next.replacements path = s.replacements path → base = s.tables path)

namespace Follows

variable (h : Follows path s next)

include h

theorem note (event : Event) : Follows path s (next.note event) := by
  have hcount : next.replacements path ≤ (next.note event).replacements path :=
    List.Sublist.count_le _ (List.sublist_append_left _ _)
  refine ⟨h.keeps.note event, h.count.trans hcount, fun hfile hsame => ?_⟩
  exact h.tables hfile (Nat.le_antisymm (hsame ▸ hcount) h.count)

/-- A failed attempt leaves the tables as they are, or they are lost already. -/
theorem failed {e : DatabaseError} (huse : Transacts use effect)
    (hattempt : next.attempt (diskAccess path) (Disk.tryUse use) = (.error e, last))
    (hclass : e.classify ≠ .permanent) : Follows path s last := by
  have hundergoes := h.keeps.attempt_undergoes huse
  have hlog := log_attempt (diskAccess path) (Disk.tryUse use) next
  rw [hattempt] at hundergoes hlog
  have hsame : last.replacements path = next.replacements path := congrArg (List.count _) hlog
  have hremains : Remains path next last := by
    generalize hresult : (.error e : Result α) = result at hundergoes
    cases hundergoes with
    | failed _ hremains => exact hremains
    | done hworks =>
      subst hresult
      exact absurd (hworks.failure huse).1 hclass
  refine ⟨hremains.keeps, hsame ▸ h.count, fun hfile heq => ?_⟩
  rcases h.tables hfile (hsame ▸ heq) with htables | hlost
  · exact .inl (hremains.tables.trans htables)
  · obtain ⟨_, _, hstill⟩ := hlost.attempt h.keeps (Disk.tryUse use)
    rw [hattempt] at hstill
    exact .inr hstill

theorem forget : Follows path s (next.forget (diskAccess path)) := by
  have hsame : (next.forget (diskAccess path)).replacements path = next.replacements path :=
    congrArg (List.count _) (log_forget _ next)
  refine ⟨h.keeps.forget fun _ => Tables.sound_empty, hsame ▸ h.count, fun hfile heq => ?_⟩
  rcases h.tables hfile (hsame ▸ heq) with htables | ⟨hnone, hlost⟩
  · rcases h.keeps.forget_cases hfile with hremains | hlost
    · exact .inl (hremains.tables.trans htables)
    · exact .inr hlost
  · -- there is no connection that could be closed
    have hidle : next.forget (diskAccess path) = next := by
      unfold Session.forget
      rw [hnone]
    rw [hidle]
    exact .inr ⟨hnone, hlost⟩

/-- A database that is replaced is reported, so nothing is said about the tables then. -/
theorem recover (hrecover : Operation.recover (diskAccess path) next = (.ok (), last)) :
    Follows path s last := by
  have hkeeps := h.keeps.recover fun _ => Tables.sound_empty
  rw [hrecover] at hkeeps
  have hcount : next.replacements path < last.replacements path := by
    unfold Operation.recover at hrecover
    dsimp only [diskAccess] at hrecover
    unfold replaceDamaged at hrecover
    split at hrecover
    · next heq =>
      cases hrecover
      split at heq
      · cases heq
      · split at heq <;> cases heq
        unfold replacements
        rw [List.count_append, List.count_append, List.count_singleton_self]
        omega
    · cases hrecover
  refine ⟨hkeeps, h.count.trans hcount.le, fun _ hsame => ?_⟩
  exact absurd h.count (by omega)

theorem success {a : α} (huse : Transacts use effect)
    (hattempt : next.attempt (diskAccess path) (Disk.tryUse use) = (.ok a, last)) :
    Accomplishes path effect s a last := by
  have hundergoes := h.keeps.attempt_undergoes huse
  have hlog := log_attempt (diskAccess path) (Disk.tryUse use) next
  rw [hattempt] at hundergoes hlog
  have hsame : last.replacements path = next.replacements path := congrArg (List.count _) hlog
  cases hundergoes with
  | done hworks =>
    refine ⟨hworks.keeps, hsame ▸ h.count, last.world.now, next.tables path,
      h.keeps.tables_sound, Prod.ext hworks.result hworks.tables, fun hfile heq => ?_⟩
    rcases h.tables hfile (hsame ▸ heq) with htables | hlost
    · exact htables
    · obtain ⟨e, hfails, _⟩ := hlost.attempt h.keeps (Disk.tryUse use)
      rw [hattempt] at hfails
      cases hfails

end Follows

/-- An operation that succeeds has had its effect on the tables that it began with, unless the
database was replaced on the way. -/
theorem Keeps.run_accomplishes (h : s.IsSound path) (huse : Transacts use effect) (op : Operation)
    {a : α} (hdone : op.run (diskAccess path) (Disk.tryUse use) s = (.ok a, next)) :
    Accomplishes path effect s a next := by
  have hattempts : Attempts op (diskAccess path) (Disk.tryUse use) (Follows path s)
      fun result last => ∀ a, result = .ok a → Accomplishes path effect s a last := by
    constructor
    case note => exact fun _ event hfollows => hfollows.note event
    case success =>
      intro _ a _ hfollows heq b hb
      cases hb
      exact hfollows.success huse heq
    case permanent => exact fun _ _ _ _ _ _ => nofun
    case transient =>
      intro _ e last hfollows heq hclass
      exact ⟨(hfollows.failed huse heq (by rw [hclass]; exact nofun)).forget, nofun⟩
    case corruption =>
      intro _ e last hfollows heq hclass
      have hfailed := hfollows.failed huse heq (by rw [hclass]; exact nofun)
      refine ⟨nofun, fun _ hrecover => ?_, fun _ _ _ => nofun⟩
      exact (hfailed.note (op.damaged e)).recover hrecover
  have hends := hattempts.run ⟨h, Nat.le_refl _, fun _ _ => .inl rfl⟩
  rw [hdone] at hends
  exact hends a rfl

end Session

/-! ## Batches -/

def replacements (store : Store) : Nat := store.session.replacements store.path

section Bulk

variable {store next : Store} {ds : List Declaration} {batches : List (List Declaration)} {n : Nat}

/-- An index after a batch was written: to the tables that it had, unless its database was replaced
on the way. -/
theorem Keeps.write_batch (h : store.Keeps fun _ => Tables.Sound)
    (hnamed : ∀ d ∈ ds, Text.blank d.repository = false)
    (hdone : store.write "insert_symbols" (.upsertAll ds) = (.ok n, next)) :
    n = ds.length ∧ next.path = store.path ∧ (next.Keeps fun _ => Tables.Sound) ∧
      store.replacements ≤ next.replacements ∧
      ∃ base : Tables, base.Sound ∧ base.untimed.writeEach 0 ds = .ok next.tables.untimed ∧
        (IsInFile store.path → next.replacements = store.replacements → base = store.tables) := by
  rw [Store.write] at hdone
  rcases hrun : (store.operation "insert_symbols").run (diskAccess store.path)
    (Disk.tryUse (Disk.write (.upsertAll ds))) store.session with ⟨result, session⟩
  rw [hrun] at hdone
  cases hdone
  have hwrite := transacts_write (Statement.upsert_all_sound hnamed)
  obtain ⟨hkeeps, hcount, now, base, hsound, heffect, hbase⟩ :=
    Session.Keeps.run_accomplishes h hwrite (store.operation "insert_symbols") hrun
  have hall : base.upsertAll ds now = .ok (n, session.tables store.path) := run_eq_ok heffect
  rw [Tables.upsert_all_eq] at hall
  obtain ⟨after, hafter, hsame⟩ := map_eq_ok hall
  cases hsame
  refine ⟨rfl, rfl, hkeeps, hcount, base, hsound, ?_, hbase⟩
  rw [Tables.write_each_untimed now, hafter]
  rfl

theorem insert_batches_cons_ok {batch : List Declaration}
    (hdone : (store.insertBatches (batch :: batches)).1 = .ok n) :
    ∃ m more middle, store.write "insert_symbols" (.upsertAll batch) = (.ok m, middle) ∧
      (middle.insertBatches batches).1 = .ok more ∧ n = m + more := by
  rcases hwrite : store.write "insert_symbols" (.upsertAll batch) with ⟨_ | m, middle⟩
  · rw [insertBatches, hwrite] at hdone
    cases hdone
  · rw [insert_batches_cons hwrite] at hdone
    obtain ⟨more, hmore, rfl⟩ := map_eq_ok hdone
    exact ⟨m, more, middle, rfl, hmore, rfl⟩

/-- Batches that are written count all their declarations; and unless the database was replaced on
the way, the tables are those after the declarations were written in turn. -/
theorem Keeps.insert_batches_ok (h : store.Keeps fun _ => Tables.Sound)
    (hnamed : ∀ batch ∈ batches, ∀ d ∈ batch, Text.blank d.repository = false)
    (hdone : (store.insertBatches batches).1 = .ok n) :
    n = batches.flatten.length ∧ store.replacements ≤ (store.insertBatches batches).2.replacements ∧
      (IsInFile store.path →
        (store.insertBatches batches).2.replacements = store.replacements →
        store.tables.untimed.writeEach 0 batches.flatten =
          .ok (store.insertBatches batches).2.tables.untimed) := by
  induction batches generalizing store n with
  | nil =>
    cases hdone
    exact ⟨rfl, Nat.le_refl _, fun _ _ => rfl⟩
  | cons batch batches ih =>
    obtain ⟨m, more, middle, hwrite, hrest, rfl⟩ := insert_batches_cons_ok hdone
    obtain ⟨rfl, hpath, hkeeps, hcount, base, _, hbatch, hbase⟩ :=
      h.write_batch (hnamed batch (.head _)) hwrite
    obtain ⟨rfl, hmore, htables⟩ :=
      ih hkeeps (fun other hother => hnamed other (.tail _ hother)) hrest
    rw [insert_batches_cons hwrite, List.flatten_cons]
    refine ⟨List.length_append.symm, hcount.trans hmore, fun hfile hsame => ?_⟩
    have hfirst : middle.replacements = store.replacements :=
      Nat.le_antisymm (hsame ▸ hmore) hcount
    rw [Tables.write_each_append, ← hbase hfile hfirst, hbatch]
    exact htables (hpath ▸ hfile) (hsame.trans hfirst.symm)

/-- Once the database is not replaced any more, a bulk write has written the declarations in turn,
from those of the batch on in which that was. -/
theorem Keeps.insert_batches_from (h : store.Keeps fun _ => Tables.Sound)
    (hfile : IsInFile store.path)
    (hnamed : ∀ batch ∈ batches, ∀ d ∈ batch, Text.blank d.repository = false)
    (hdone : (store.insertBatches batches).1 = .ok n) (i : Nat)
    (hlast : (store.insertBatches (batches.take (i + 1))).2.replacements =
      (store.insertBatches batches).2.replacements) :
    ∃ base : Tables, base.Sound ∧ base.untimed.writeEach 0 (batches.drop i).flatten =
      .ok (store.insertBatches batches).2.tables.untimed := by
  induction batches generalizing store n i with
  | nil =>
    rw [List.drop_nil]
    exact ⟨store.tables, Session.Keeps.tables_sound h, rfl⟩
  | cons batch batches ih =>
    obtain ⟨m, more, middle, hwrite, hrest, rfl⟩ := insert_batches_cons_ok hdone
    obtain ⟨_, hpath, hkeeps, _, base, hsound, hbatch, _⟩ :=
      h.write_batch (hnamed batch (.head _)) hwrite
    have hnamed : ∀ other ∈ batches, ∀ d ∈ other, Text.blank d.repository = false :=
      fun other hother => hnamed other (.tail _ hother)
    rw [List.take_succ_cons, insert_batches_cons hwrite, insert_batches_cons hwrite] at hlast
    rw [insert_batches_cons hwrite]
    cases i with
    | zero =>
      obtain ⟨_, _, htables⟩ := hkeeps.insert_batches_ok hnamed hrest
      refine ⟨base, hsound, ?_⟩
      rw [List.drop_zero, List.flatten_cons, Tables.write_each_append, hbatch]
      exact htables (hpath ▸ hfile) hlast.symm
    | succ i => exact ih hkeeps (hpath ▸ hfile) hnamed hrest i hlast

theorem drop_pieces_within {β : Type} {size most : Nat} {items : List β} (hsize : 0 < size)
    (hmost : items.length ≤ most) (i : Nat) :
    ((piecesWithin size most items).drop i).flatten = items.drop (i * size) := by
  fun_induction piecesWithin size most items generalizing i with
  | case1 items =>
    cases List.eq_nil_of_length_eq_zero (Nat.le_zero.mp hmost)
    rw [List.drop_nil, List.drop_nil, List.flatten_nil]
  | case2 => rw [List.drop_nil, List.drop_nil, List.flatten_nil]
  | case3 most items hitems ih =>
    have hlength : (items.drop size).length ≤ most := by
      rw [List.length_drop]
      omega
    cases i with
    | zero =>
      have hrest := ih hlength 0
      rw [List.drop_zero, Nat.zero_mul, List.drop_zero] at hrest
      rw [List.drop_zero, List.flatten_cons, hrest, Nat.zero_mul, List.drop_zero,
        List.take_append_drop]
    | succ i => rw [List.drop_succ_cons, ih hlength, List.drop_drop, Nat.succ_mul, Nat.add_comm]

theorem drop_pieces {β : Type} {size : Nat} (hsize : 0 < size) (items : List β) (i : Nat) :
    ((pieces size items).drop i).flatten = items.drop (i * size) := by
  unfold pieces
  cases items with
  | nil => simp [piecesWithin]
  | cons first rest =>
    have hleast : 0 < min size (first :: rest).length := lt_min hsize (Nat.succ_pos _)
    rw [drop_pieces_within hleast (Nat.le_refl _)]
    rcases Nat.le_total size (first :: rest).length with hle | hle
    · rw [min_eq_left hle]
    · -- there is one piece, and nothing behind it
      rw [min_eq_right hle]
      cases i with
      | zero => rw [Nat.zero_mul, Nat.zero_mul]
      | succ i =>
        rw [List.drop_eq_nil_of_le (Nat.le_mul_of_pos_left _ i.succ_pos),
          List.drop_eq_nil_of_le (hle.trans (Nat.le_mul_of_pos_left _ i.succ_pos))]

/-- What a bulk write that succeeds has stored. It counts all its declarations. If the database is
not replaced any more after one of its batches, then of the declarations from that batch on, the
last one of each occurrence is recorded. -/
theorem insert_many_records (h : store.Reachable) (hfile : IsInFile store.path)
    (hsize : 0 < store.options.batchSize) (hdone : (store.insertMany ds).1 = .ok n) :
    n = ds.length ∧ ∀ i before d after,
      (store.insertBatches ((pieces store.options.batchSize ds).take (i + 1))).2.replacements =
        (store.insertMany ds).2.replacements →
      ds.drop (i * store.options.batchSize) = before ++ d :: after →
      (∀ other ∈ after, declarationKey other ≠ declarationKey d) →
      (store.insertMany ds).2.tables.Records d := by
  cases hblank : ds.any fun d => Text.blank d.repository with
  | true =>
    rw [insertMany, hblank] at hdone
    cases hdone
  | false =>
    have hnamed : ∀ d ∈ ds, Text.blank d.repository = false := fun d hd =>
      Bool.eq_false_iff.mpr (List.any_eq_false.mp hblank d hd)
    have hbatches : ∀ batch ∈ pieces store.options.batchSize ds, ∀ d ∈ batch,
        Text.blank d.repository = false :=
      fun _ hbatch d hd => hnamed d (mem_of_mem_pieces hbatch hd)
    have hmany : store.insertMany ds =
        store.insertBatches (pieces store.options.batchSize ds) := by
      rw [insertMany, hblank]
      rfl
    rw [hmany] at hdone ⊢
    refine ⟨?_, fun i before d after hlast hds hothers => ?_⟩
    · obtain ⟨rfl, _⟩ := h.keeps.insert_batches_ok hbatches hdone
      simpa using congrArg List.length (drop_pieces hsize ds 0)
    · obtain ⟨base, hsound, hwritten⟩ :=
        h.keeps.insert_batches_from hfile hbatches hdone i hlast
      rw [drop_pieces hsize, Tables.write_each_untimed 0] at hwritten
      cases hafter : base.writeEach 0 (ds.drop (i * store.options.batchSize)) with
      | error e =>
        rw [hafter] at hwritten
        cases hwritten
      | ok written =>
        rw [hafter] at hwritten
        have hrecords := Tables.write_each_records hsound
          (fun other hother => hnamed other (List.mem_of_mem_drop hother)) hafter hds hothers
        exact hrecords.congr (Except.ok.inj hwritten)

end Bulk

/-- An index whose next use meets with damage; and another one later finds the database locked. -/
def bulkStore : Store :=
  sampleStore.run [.call (.insert (sampleDeclaration "r" 9 none)),
    .befall [{ cause := some damagedFailure }, {}, {}, { cause := some lockedFailure }]]

/-- Four declarations of three occurrences. -/
def bulkDeclarations : List Declaration :=
  [sampleDeclaration "s" 1 none, sampleDeclaration "s" 2 none, sampleDeclaration "s" 1 (some 2),
    sampleDeclaration "s" 3 none]

/-- The database is replaced for the first batch and locked for the second one. Both are stored. -/
theorem insert_many_records_sample :
    (bulkStore.insertMany bulkDeclarations).1 = .ok 4 ∧
      (bulkStore.insertMany bulkDeclarations).2.replacements = 1 ∧
      (bulkStore.insertMany bulkDeclarations).2.tables.Records (sampleDeclaration "s" 2 none) ∧
      (bulkStore.insertMany bulkDeclarations).2.tables.Records
        (sampleDeclaration "s" 1 (some 2)) := by
  have hreachable : bulkStore.Reachable :=
    ⟨"index.db", { batchSize := 2 }, sampleDisk, sampleStore, _, sample_disk_empty, open_sample,
      rfl⟩
  have hfile : IsInFile bulkStore.path :=
    ⟨{ path := octets "index.db" }, by decide +kernel, by decide +kernel⟩
  have hdone : (bulkStore.insertMany bulkDeclarations).1 = .ok 4 := by decide +kernel
  obtain ⟨_, hrecords⟩ := insert_many_records hreachable hfile (by decide +kernel) hdone
  refine ⟨hdone, by decide +kernel, ?_, ?_⟩
  · exact hrecords 0 [sampleDeclaration "s" 1 none] (sampleDeclaration "s" 2 none)
      [sampleDeclaration "s" 1 (some 2), sampleDeclaration "s" 3 none]
      (by decide +kernel) (by decide +kernel) (by decide +kernel)
  · exact hrecords 0 [sampleDeclaration "s" 1 none, sampleDeclaration "s" 2 none]
      (sampleDeclaration "s" 1 (some 2)) [sampleDeclaration "s" 3 none]
      (by decide +kernel) (by decide +kernel) (by decide +kernel)

/-- A bulk write that succeeds may have lost declarations. The second batch meets with damage, so
the database with the first one is set aside; the write counts all three declarations, although two
of them are not recorded. -/
theorem insert_many_forgets :
    let outcome := (sampleStore.run [.befall [{}, { cause := some damagedFailure }]]).insertMany
      [sampleDeclaration "s" 1 none, sampleDeclaration "s" 2 none, sampleDeclaration "s" 3 none]
    outcome.1 = .ok 3 ∧ ¬ outcome.2.tables.Records (sampleDeclaration "s" 1 none) ∧
      ¬ outcome.2.tables.Records (sampleDeclaration "s" 2 none) ∧
      outcome.2.tables.Records (sampleDeclaration "s" 3 none) := by
  decide +kernel

end CodeAtlas.Store
