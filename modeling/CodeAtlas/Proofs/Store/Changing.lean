import CodeAtlas.Proofs.Store.Locality
import CodeAtlas.Proofs.Store.Upserting

/-!
# Changing and deleting rows

`change_updates` says when a change of a row succeeds and what the row is then: it has the parts
that the change gives and keeps all others, and no other row changes. `delete_removes` says what is
left when the rows of a file or of a repository are deleted: all other rows, and those that lose
their parent have none then.
-/

namespace CodeAtlas.Store

open CodeAtlas.Symbol (Change Declaration)
open Time (Timestamp)

/-! ## Changes -/

/-- A part of a symbol after a change: what the change gives, or else what was there. -/
def Takes {α : Type} (given : Option α) (old new : α) : Prop :=
  (∀ a ∈ given, new = a) ∧ (given = none → new = old)

/-- A symbol that a change gives new parts. -/
structure Amends (c : Change) (old new : Declaration) : Prop where
  name : new.name = old.name
  file : new.file = old.file
  repository : new.repository = old.repository
  kind : Takes c.kind old.kind new.kind
  line : Takes c.line old.line new.line
  column : Takes c.column old.column new.column
  docstring : Takes (c.docstring.map some) old.docstring new.docstring
  parent : Takes (c.parent.map some) old.parent new.parent
  endLine : Takes (c.endLine.map some) old.endLine new.endLine
  endColumn : Takes (c.endColumn.map some) old.endColumn new.endColumn

theorem takes_get_d {α : Type} (given : Option α) (old : α) : Takes given old (given.getD old) := by
  cases given <;> simp [Takes]

theorem takes_or {α : Type} (given old : Option α) : Takes (given.map some) old (given.or old) := by
  cases given <;> simp [Takes]

theorem amends_amend (c : Change) (d : Declaration) : Amends c d (amend d c) where
  name := rfl
  file := rfl
  repository := rfl
  kind := takes_get_d c.kind d.kind
  line := takes_get_d c.line d.line
  column := takes_get_d c.column d.column
  docstring := takes_or c.docstring d.docstring
  parent := takes_or c.parent d.parent
  endLine := takes_or c.endLine d.endLine
  endColumn := takes_or c.endColumn d.endColumn

namespace Tables

variable {tables after : Tables} {repository : String} {id now : Int} {c : Change}

/-- What becomes of tables when the row of an id is written anew. -/
structure Rewritten (row : Row) (before after : Tables) : Prop where
  written : row ∈ after.symbols
  others : ∀ other : Row, other.id ≠ row.id → (other ∈ after.symbols ↔ other ∈ before.symbols)
  ids : after.symbols.map Row.id = before.symbols.map Row.id
  replies : after.replies = before.replies

theorem rewritten_replace {row changed : Row} (hrow : row ∈ tables.symbols)
    (hid : row.id = changed.id) :
    Rewritten changed tables { tables with symbols := replaceRow changed tables.symbols } where
  written := List.mem_map.mpr ⟨row, hrow, if_pos hid⟩
  others other hother := by
    refine ⟨fun hmem => ?_, fun hmem => List.mem_map.mpr ⟨other, hmem, if_neg hother⟩⟩
    rcases mem_replace_row hmem with ⟨rfl, _⟩ | ⟨hmem, _⟩
    · exact absurd rfl hother
    · exact hmem
  ids := map_id_replace_row changed tables.symbols
  replies := rfl

theorem find_none (h : ∀ row ∈ tables.symbols, row.id = id → row.repository ≠ repository) :
    tables.symbols.find? (fun row => row.id == id && row.repository == repository) = none := by
  rw [List.find?_eq_none]
  intro row hrow htest
  rw [Bool.and_eq_true, beq_iff_eq, beq_iff_eq] at htest
  exact h row hrow htest.1 htest.2

/-- A row can be changed unless its new parent is missing or its new occurrence is that of another
row. -/
theorem update_ok_iff (h : tables.Sound) {row : Row} (hrow : row ∈ tables.symbols) :
    (tables.update row.repository row.id c now).isOk = true ↔
      (∀ parent ∈ c.parent, ∃ other ∈ tables.symbols, other.id = parent) ∧
        ∀ other ∈ tables.symbols, other.id ≠ row.id → other.key ≠ (row.change c now).key := by
  have hparent : parentExists tables.symbols (row.change c now).parent = true ↔
      ∀ parent ∈ c.parent, ∃ other ∈ tables.symbols, other.id = parent := by
    rw [parent_exists_iff, Row.change]
    cases hgiven : c.parent with
    | none => simpa using h.parents row hrow
    | some parent => simp [eq_comm]
  rw [update, find_own h hrow, ← hparent]
  dsimp only
  split
  · next hany =>
    obtain ⟨other, hother, htest⟩ := List.any_eq_true.mp hany
    simp only [Bool.and_eq_true, bne_iff_ne, beq_iff_eq] at htest
    exact ⟨fun hok => absurd hok Bool.false_ne_true,
      fun hkeys => absurd htest.2 (hkeys.2 other hother htest.1)⟩
  · next hnone =>
    simp only [List.any_eq_true, Bool.and_eq_true, bne_iff_ne, beq_iff_eq, not_exists,
      not_and] at hnone
    rw [and_iff_left hnone]
    split <;> simp [*, Except.isOk, Except.toBool]

end Tables

section Calls

variable {store : Store} {r : String} {id : Int} {c : Change} {row : Row}

theorem IsReady.change_empty (h : store.IsReady) (hnamed : Text.blank r = false)
    (hempty : c.isEmpty = true) (id : Int) :
    (store.change r id c).1 = ((store.tables.find r id).map Option.isSome).mapError .database ∧
      (store.change r id c).2.tables = store.tables := by
  have hread : (store.read (.find r id)).1 = (store.tables.find r id).mapError .database :=
    (h.read (find_fails · r id)).1
  have htables : store.tables = (store.read (.find r id)).2.tables :=
    (Store.IsCalm.read h.calm (find_fails · r id)).1.tables
  rw [Store.change, Store.within, if_neg (by simp [hnamed]), if_pos hempty, get, Store.within,
    if_neg (by simp [hnamed])]
  refine ⟨?_, htables.symm⟩
  change (store.read (.find r id)).1.map Option.isSome = _
  rw [hread]
  cases store.tables.find r id <;> rfl

theorem change_eq_write (hnamed : Text.blank r = false) (hchange : c.isEmpty = false) (id : Int) :
    store.change r id c = store.write "update_symbol" (.update r id c) := by
  rw [Store.change, Store.within, if_neg (by simp [hnamed]), if_neg (by simp [hchange])]

theorem IsReady.change_missing (h : store.IsReady) (hnamed : Text.blank r = false) (c : Change)
    (hmissing : ∀ row ∈ store.tables.symbols, row.id = id → row.repository ≠ r) :
    (store.change r id c).1 = .ok false ∧ (store.change r id c).2.tables = store.tables := by
  have hnone := Tables.find_none hmissing
  cases hempty : c.isEmpty with
  | true =>
    obtain ⟨hresult, htables⟩ := h.change_empty hnamed hempty id
    refine ⟨?_, htables⟩
    rw [hresult, Tables.find, hnone]
    rfl
  | false =>
    rw [change_eq_write hnamed hempty]
    have hupdate (now : Int) :
        (Statement.update r id c).onTables now store.tables = .ok (false, store.tables) := by
      change Tables.update _ _ _ _ _ = _
      rw [Tables.update, hnone]
    obtain ⟨hresult, htables, _⟩ :=
      h.write_eq (Statement.update_sound r id c) "update_symbol" hupdate
    exact ⟨hresult, htables⟩

/-- A change of a row that is there fails and does nothing, or writes the row anew. -/
theorem IsReady.change_row (h : store.IsReady) (hnamed : Text.blank row.repository = false)
    (hchange : c.isEmpty = false) (hrow : row ∈ store.tables.symbols) :
    let result := (store.change row.repository row.id c).1
    let next := (store.change row.repository row.id c).2
    (∃ now, result.isOk = (store.tables.update row.repository row.id c now).isOk) ∧
      (result.isOk = false → next.tables = store.tables) ∧
      (result.isOk = true → result = .ok true ∧
        Tables.Rewritten (row.change c next.session.world.now) store.tables next.tables) := by
  intro result next
  have hsound := Statement.update_sound row.repository row.id c
  have heq : store.change row.repository row.id c =
      store.write "update_symbol" (.update row.repository row.id c) :=
    change_eq_write hnamed hchange row.id
  have hcarries : store.Carries (.update row.repository row.id c) result next := by
    simp only [result, next, heq]
    exact h.write hsound "update_symbol"
  have hwritten (found : Bool) (hfound : result = .ok found) :
      store.tables.update row.repository row.id c next.session.world.now =
        .ok (found, next.tables) := by
    simp only [result, next, heq] at hfound ⊢
    exact h.write_ok hsound hfound
  generalize result = outcome at hcarries hwritten
  cases hcarries with
  | failed now _ hfailed htables =>
    exact ⟨⟨now, (congrArg Except.isOk hfailed).symm⟩, fun _ => htables, (nomatch ·)⟩
  | done now _ hdone =>
    refine ⟨⟨now, (congrArg Except.isOk hdone).symm⟩, (nomatch ·), fun _ => ?_⟩
    have hdone := hwritten _ rfl
    obtain ⟨_, _, hmissing⟩ | ⟨rfl, old, hold, hid, _, _, _, hafter⟩ := Tables.update_cases hdone
    · exact absurd rfl (hmissing row hrow rfl)
    · obtain rfl := (IsCalm.sound h.calm).row_unique hold hrow hid
      rw [hafter]
      exact ⟨rfl, Tables.rewritten_replace hold rfl⟩

/-- A change in an index that is in use finds nothing if the repository has no such row. An empty
change of a row leaves all as it is, and finds the row. Any other one fails, and changes nothing,
exactly if its parent is not there or the row would have the occurrence of another one; otherwise
the row has the parts that are given, keeps the others and its id and first time, and all other rows
stay as they are. -/
theorem change_updates (h : store.Reachable) (husable : store.IsUsable)
    (hnamed : Text.blank r = false) (id : Int) (c : Change) :
    let before := store.tables
    let result := (store.change r id c).1
    let next := (store.change r id c).2
    let now := next.session.world.now
    ((∀ row ∈ before.symbols, row.id = id → row.repository ≠ r) →
      result = .ok false ∧ next.tables = before) ∧
    ∀ row ∈ before.symbols, row.id = id → row.repository = r →
      ∃ old created last, row = .written id old created last ∧
        (c.isEmpty = true → next.tables = before ∧
          ∀ createdAt updatedAt, Timestamp.ofMillis? created = some createdAt →
            Timestamp.ofMillis? last = some updatedAt → Fits old → result = .ok true) ∧
        (c.isEmpty = false → ∃ new, Amends c old new ∧
          (result.isOk = false ↔
            (∃ parent ∈ c.parent, ∀ other ∈ before.symbols, other.id ≠ parent) ∨
              ∃ other ∈ before.symbols, other.id ≠ id ∧ other.key = declarationKey new) ∧
          (result.isOk = false → next.tables = before) ∧
          (result.isOk = true → result = .ok true ∧
            Tables.Rewritten (.written id new created now) before next.tables)) := by
  intro before result next now
  have hready := h.isReady husable
  have hsound : before.Sound := IsCalm.sound hready.calm
  refine ⟨hready.change_missing hnamed c, ?_⟩
  rintro row hrow rfl rfl
  obtain ⟨old, created, last, hold⟩ := h.rows_written row hrow
  refine ⟨old, created, last, hold, fun hempty => ?_, fun hchange => ?_⟩
  · obtain ⟨hresult, htables⟩ := hready.change_empty hnamed hempty row.id
    refine ⟨htables, fun createdAt updatedAt hcreated hlast hfits => ?_⟩
    have hread : row.read = .ok _ := hold ▸ Row.read_written hfits hcreated hlast
    change (store.change row.repository row.id c).1 = .ok true
    rw [hresult, find_row hsound hrow, hread]
    rfl
  · have hamended (now : Int) :
        row.change c now = .written row.id (amend old c) created now := by
      conv_lhs => rw [hold]
      exact Row.change_written row.id old created last c now
    obtain ⟨⟨time, hok⟩, hfails, hdone⟩ := hready.change_row hnamed hchange hrow
    refine ⟨amend old c, amends_amend c old, ?_, hfails, fun h => ?_⟩
    · have hkey : (row.change c time).key = declarationKey (amend old c) := by
        rw [hamended]
        rfl
      change (store.change row.repository row.id c).1.isOk = false ↔ _
      rw [hok, ← Bool.not_eq_true, Tables.update_ok_iff hsound hrow, hkey, not_and_or]
      push Not
      rfl
    · rw [← hamended]
      exact hdone h

end Calls

/-- A row cannot take the place of another one, and may get a parent in another repository. -/
theorem change_updates_local :
    localStore.IsUsable ∧
      ((localStore.change "r" 2 { line := some 1 }).1.isOk = false ∧
        (localStore.change "r" 2 { line := some 1 }).2.tables = localStore.tables) ∧
      (localStore.change "r" 2 { parent := some 4 }).1 = .ok true ∧
      ∃ row, Tables.Rewritten row localStore.tables
        (localStore.change "r" 2 { parent := some 4 }).2.tables := by
  have hreachable : localStore.Reachable := ⟨_, _, _, _, _, sample_disk_empty, open_sample, rfl⟩
  have husable : localStore.IsUsable := by decide +kernel
  obtain ⟨row, hrow, hid, hrepository⟩ :
      ∃ row ∈ localStore.tables.symbols, row.id = 2 ∧ row.repository = "r" := by decide +kernel
  have hchange (c : Change) :=
    (change_updates hreachable husable (r := "r") (by decide) 2 c).2 row hrow hid hrepository
  obtain ⟨_, _, _, _, _, hmoved⟩ := hchange { line := some 1 }
  obtain ⟨_, _, _, hsame, _⟩ := hmoved rfl
  obtain ⟨_, _, _, _, _, hchanged⟩ := hchange { parent := some 4 }
  obtain ⟨_, _, _, _, hdone⟩ := hchanged rfl
  have hfails : (localStore.change "r" 2 { line := some 1 }).1.isOk = false := by decide +kernel
  obtain ⟨hresult, hrewritten⟩ := hdone (by decide +kernel)
  exact ⟨husable, ⟨hfails, hsame hfails⟩, hresult, _, hrewritten⟩

/-! ## Deletions -/

namespace Tables

variable {tables after : Tables} {test : Row → Bool} {count : Nat}

/-- Whether the parent of a row is among those that satisfy a test. -/
def LosesParent (tables : Tables) (test : Row → Bool) (row : Row) : Prop :=
  ∃ parent ∈ tables.symbols, test parent = true ∧ row.parent = some (.integer parent.id)

/-- What is left of tables when the rows that satisfy a test are deleted. -/
structure Deleted (test : Row → Bool) (before after : Tables) : Prop where
  gone : ∀ row ∈ before.symbols, test row = true → ∀ other ∈ after.symbols, other.id ≠ row.id
  kept : ∀ row ∈ before.symbols, test row = false → ∃ parent, { row with parent } ∈ after.symbols ∧
    (before.LosesParent test row → parent = none) ∧
    (¬ before.LosesParent test row → parent = row.parent)
  known : ∀ row ∈ after.symbols, ∃ old ∈ before.symbols, test old = false ∧ old.id = row.id
  replies : after.replies = before.replies

theorem deleted_delete (h : tables.Sound) (hdone : tables.deleteWhere test = .ok (count, after)) :
    Deleted test tables after := by
  cases hdone
  have hold {row : Row} (hrow : row ∈ (tables.symbols.filter fun row => !test row).map
      (Row.orphan (tables.symbols.filter test))) :
      ∃ old ∈ tables.symbols, test old = false ∧ old.id = row.id := by
    obtain ⟨old, hold, htest, rfl⟩ := mem_kept hrow
    exact ⟨old, hold, htest, (orphan_id _ _).symm⟩
  refine ⟨fun row hrow htest other hother hid => ?_, fun row hrow htest => ?_, fun _ => hold, rfl⟩
  · obtain ⟨old, hmem, hkept, hsame⟩ := hold hother
    rw [h.row_unique hmem hrow (hsame.trans hid), htest] at hkept
    cases hkept
  · have hmem := List.mem_map_of_mem (f := Row.orphan (tables.symbols.filter test))
      (List.mem_filter.mpr ⟨hrow, by simp [htest]⟩ : row ∈ tables.symbols.filter (!test ·))
    rcases orphan_cases (tables.symbols.filter test) row with
      ⟨heq, hothers⟩ | ⟨heq, parent, hparent, hlost⟩ <;> rw [heq] at hmem
    · refine ⟨row.parent, hmem, fun ⟨parent, hparent, htest, hlost⟩ => ?_, fun _ => rfl⟩
      exact absurd hlost (hothers parent (List.mem_filter.mpr ⟨hparent, htest⟩))
    · obtain ⟨hparent, htest⟩ := List.mem_filter.mp hparent
      exact ⟨none, hmem, fun _ => rfl, fun hkept => absurd ⟨parent, hparent, htest, hlost⟩ hkept⟩

theorem count_delete {repository : String}
    (htest : ∀ row, test row = true → row.repository = repository)
    (hdone : tables.deleteWhere test = .ok (count, after)) :
    tables.count repository = after.count repository + count := by
  cases hdone
  have hsame : (fun row : Row => row.repository == repository) ∘
      Row.orphan (tables.symbols.filter test) = (·.repository == repository) :=
    funext fun row => by rw [Function.comp_apply, orphan_repository]
  have hall : (tables.symbols.filter test).countP (·.repository == repository) =
      (tables.symbols.filter test).length :=
    List.countP_eq_length.mpr fun row hrow => beq_iff_eq.mpr (htest row (List.mem_filter.mp hrow).2)
  rw [Tables.count, Tables.count, ← List.countP_eq_length_filter, ← List.countP_eq_length_filter,
    List.countP_map, hsame, ← hall, Nat.add_comm]
  simpa using List.countP_eq_countP_filter_add tables.symbols (·.repository == repository) test

/-- A test that does not look at parents finds nothing more to delete. -/
theorem delete_again (htest : ∀ (row : Row) parent, test { row with parent } = test row)
    (hdone : tables.deleteWhere test = .ok (count, after)) :
    after.deleteWhere test = .ok (0, after) := by
  cases hdone
  generalize hgone : tables.symbols.filter test = gone
  have hkept {row : Row} (hrow : row ∈ (tables.symbols.filter fun row => !test row).map
      (Row.orphan gone)) : test row = false := by
    obtain ⟨old, _, hold, rfl⟩ := mem_kept hrow
    rcases orphan_cases gone old with ⟨heq, _⟩ | ⟨heq, _⟩ <;> rw [heq]
    · exact hold
    · rw [htest, hold]
  have hnone := List.filter_eq_nil_iff.mpr fun row hrow => Bool.not_eq_true _ ▸ hkept hrow
  have hall := List.filter_eq_self.mpr fun row hrow => congrArg Bool.not (hkept hrow)
  have horphan : Row.orphan [] = id := rfl
  rw [deleteWhere, hnone]
  dsimp only
  rw [hall, horphan, List.map_id]
  rfl

end Tables

section Calls

variable {store : Store} {r : String} {test : Row → Bool}

/-- What a call does that deletes the rows of a repository that satisfy a test. -/
structure Removes (store : Store) (r : String) (test : Row → Bool)
    (delete : Store → Except Error Nat × Store) : Prop where
  number : (delete store).1 = .ok (store.tables.symbols.countP test)
  rows : store.tables.Deleted test (delete store).2.tables
  count : ∃ left, ((delete store).2.count r).1 = .ok left ∧
    (store.count r).1 = .ok (left + store.tables.symbols.countP test)
  again : (delete (delete store).2).1 = .ok 0 ∧
    (delete (delete store).2).2.tables = (delete store).2.tables

theorem IsReady.count_eq (h : store.IsReady) (hnamed : Text.blank r = false) :
    (store.count r).1 = .ok (store.tables.count r) := by
  rw [Store.count, Store.within, if_neg (by simp [hnamed]), (h.read fun _ => fails_for_good_ok _).1]
  rfl

/-- What a call does that is the statement of such a deletion. -/
theorem IsReady.removes {name : String} {statement : Statement Nat}
    {delete : Store → Except Error Nat × Store} (h : store.IsReady) (hnamed : Text.blank r = false)
    (hsound : statement.IsSound) (hdelete : ∀ store, delete store = store.write name statement)
    (hstatement : ∀ now tables, statement.onTables now tables = tables.deleteWhere test)
    (htest : ∀ row, test row = true → row.repository = r)
    (hparent : ∀ (row : Row) parent, test { row with parent } = test row) :
    store.Removes r test delete := by
  have hlength := List.countP_eq_length_filter (p := test) (l := store.tables.symbols)
  have hdone : ∃ after, store.tables.deleteWhere test =
    .ok ((store.tables.symbols.filter test).length, after) := ⟨_, rfl⟩
  obtain ⟨after, hdone⟩ := hdone
  obtain ⟨hnumber, htables, hready⟩ := h.write_eq hsound name fun now =>
    (hstatement now store.tables).trans hdone
  have hagain := hready.write_eq hsound name fun now => (hstatement now _).trans
    (htables ▸ Tables.delete_again hparent hdone)
  rw [← hdelete] at hnumber htables hready hagain
  rw [← hdelete, htables] at hagain
  constructor
  case number => rw [hnumber, hlength]
  case rows => exact htables ▸ Tables.deleted_delete (IsCalm.sound h.calm) hdone
  case count =>
    refine ⟨_, hready.count_eq hnamed, ?_⟩
    rw [h.count_eq hnamed, hlength, htables, Tables.count_delete htest hdone]
  case again => exact ⟨hagain.1, hagain.2.1.trans htables.symm⟩

/-- Deleting the rows of a file or of a repository gives their number, leaves all others, and takes
from these only the parents that are gone; so many rows less are counted then, and deleting them
again does nothing. -/
theorem delete_removes (h : store.Reachable) (husable : store.IsUsable)
    (hnamed : Text.blank r = false) (file : String) :
    store.Removes r (fun row => row.file == file && row.repository == r) (·.deleteFile file r) ∧
      store.Removes r (·.repository == r) (·.deleteRepository r) := by
  have hready := h.isReady husable
  have hfile (store : Store) : store.deleteFile file r =
      store.write "delete_symbols_by_file" (.deleteFile file r) := if_neg (by simp [hnamed])
  have hrepository (store : Store) : store.deleteRepository r =
      store.write "delete_symbols_by_repository" (.deleteRepository r) := if_neg (by simp [hnamed])
  constructor
  · exact hready.removes hnamed (Statement.delete_file_sound file r) hfile (fun _ _ => rfl)
      (fun row htest => beq_iff_eq.mp (Bool.and_eq_true_iff.mp htest).2) fun _ _ => rfl
  · exact hready.removes hnamed (Statement.delete_repository_sound r) hrepository (fun _ _ => rfl)
      (fun row htest => beq_iff_eq.mp htest) fun _ _ => rfl

end Calls

/-- Deleting a repository whose row is the parent of a row of another one. -/
theorem delete_removes_shared :
    sharedStore.IsUsable ∧
      sharedStore.Removes "r" (fun row => row.file == "a" && row.repository == "r")
        (·.deleteFile "a" "r") ∧
      sharedStore.Removes "r" (·.repository == "r") (·.deleteRepository "r") := by
  have husable : sharedStore.IsUsable := by decide +kernel
  exact ⟨husable, delete_removes shared_reachable husable (by decide) "a"⟩

end CodeAtlas.Store
