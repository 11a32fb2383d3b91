import CodeAtlas.Store.Statement
import Mathlib.Data.List.Nodup

/-!
# Statements keep tables sound

`Tables.Sound` says that rows fit together: ids and occurrences are unique, every parent is a row,
replies are unique, and every row names a repository. `Tables.Timely` says that no row was changed
before it was made. For each statement there is one lemma that says what it can do to the rows
(`upsert_cases`, `update_cases`), and from it what it preserves. Every statement that writes comes
down to putting a row in the place of another (`Sound.replace`), adding one (`Sound.append`), or
taking rows away (`Sound.delete`).
-/

namespace CodeAtlas.Store

open CodeAtlas.Symbol (Change Declaration)

/-! ## Ids and parents -/

theorem le_foldl_max_id (rows : List Row) (most : Int) :
    most ≤ rows.foldl (fun most row => max most row.id) most := by
  induction rows generalizing most with
  | nil => exact Int.le_refl most
  | cons row rest ih => exact Int.le_trans (Int.le_max_left most row.id) (ih (max most row.id))

variable {now : Int} {rows : List Row} {row : Row}

theorem id_le_foldl_max_id (hrow : row ∈ rows) (most : Int) :
    row.id ≤ rows.foldl (fun most row => max most row.id) most := by
  induction rows generalizing most with
  | nil => cases hrow
  | cons first rest ih =>
    rcases List.mem_cons.mp hrow with rfl | hrest
    · exact Int.le_trans (Int.le_max_right most row.id) (le_foldl_max_id rest _)
    · exact ih hrest _

theorem id_lt_next_id (hrow : row ∈ rows) : row.id < nextId rows := by
  cases rows with
  | nil => cases hrow
  | cons first rest =>
    rw [nextId]
    apply Int.lt_add_one_of_le
    rcases List.mem_cons.mp hrow with rfl | hrest
    · exact le_foldl_max_id rest row.id
    · exact id_le_foldl_max_id hrest first.id

theorem parent_exists_iff {parent : Option Cell} :
    parentExists rows parent = true ↔
      ∀ cell, parent = some cell → ∃ row ∈ rows, cell = .integer row.id := by
  cases parent with
  | none => simp [parentExists]
  | some cell =>
    cases cell with
    | integer id => simp [parentExists, eq_comm (a := id)]
    | real | text => simp [parentExists]

/-- Only the ids of rows decide whether a parent is there. -/
theorem parent_exists_mono {more : List Row} {parent : Option Cell}
    (hids : ∀ row ∈ rows, ∃ other ∈ more, other.id = row.id) (h : parentExists rows parent = true) :
    parentExists more parent = true := by
  rw [parent_exists_iff] at h ⊢
  intro cell hcell
  obtain ⟨row, hrow, rfl⟩ := h cell hcell
  obtain ⟨other, hother, hid⟩ := hids row hrow
  exact ⟨other, hother, by rw [hid]⟩

/-! ## Putting a row in the place of another -/

section Replace

variable {changed row : Row} {rows : List Row}

theorem mem_replace_row (h : row ∈ replaceRow changed rows) :
    (row = changed ∧ ∃ old ∈ rows, old.id = changed.id) ∨ (row ∈ rows ∧ row.id ≠ changed.id) := by
  obtain ⟨old, hold, heq⟩ := List.mem_map.mp h
  by_cases hid : old.id = changed.id
  · rw [if_pos hid] at heq
    exact .inl ⟨heq.symm, old, hold, hid⟩
  · rw [if_neg hid] at heq
    subst heq
    exact .inr ⟨hold, hid⟩

@[simp]
theorem map_id_replace_row (changed : Row) (rows : List Row) :
    (replaceRow changed rows).map Row.id = rows.map Row.id := by
  rw [replaceRow, List.map_map]
  apply List.map_congr_left
  intro row _
  change (if row.id = changed.id then changed else row).id = row.id
  split
  · exact Eq.symm ‹_›
  · rfl

theorem parent_exists_replace_row (changed : Row) (rows : List Row) (parent : Option Cell) :
    parentExists (replaceRow changed rows) parent = parentExists rows parent := by
  have hids (row : Row) : row.id ∈ (replaceRow changed rows).map Row.id ↔
      row.id ∈ rows.map Row.id := by rw [map_id_replace_row]
  rw [Bool.eq_iff_iff]
  constructor
  · apply parent_exists_mono
    intro row hrow
    exact List.mem_map.mp ((hids row).mp (List.mem_map_of_mem hrow))
  · apply parent_exists_mono
    intro row hrow
    exact List.mem_map.mp ((hids row).mpr (List.mem_map_of_mem hrow))

end Replace

/-! ## Sound tables -/

/-- Whether a cell holds a natural number. -/
def Cell.IsNat (cell : Cell) : Prop := ∃ n : Nat, cell = natCell n

/-- Tables whose rows fit together. -/
structure Tables.Sound (tables : Tables) : Prop where
  ids : (tables.symbols.map Row.id).Nodup
  keys : (tables.symbols.map Row.key).Nodup
  numbers : ∀ row ∈ tables.symbols, row.line.IsNat ∧ row.column.IsNat
  /-- Every parent is the id of a row. -/
  parents : ∀ row ∈ tables.symbols, ∀ cell, row.parent = some cell →
    ∃ parent ∈ tables.symbols, cell = .integer parent.id
  named : ∀ row ∈ tables.symbols, Text.blank row.repository = false
  /-- Each comment is answered once. -/
  answers : (tables.replies.map Entry.key).Nodup
  repliesNamed : ∀ entry ∈ tables.replies, Text.blank entry.repository = false

/-- Rows that were last written no earlier than they were made, and no later than now. -/
def Tables.Timely (now : Int) (tables : Tables) : Prop :=
  ∀ row ∈ tables.symbols, ∃ created updated : Int,
    row.createdAt = .integer created ∧ row.updatedAt = .integer updated ∧
      created ≤ updated ∧ updated ≤ now

theorem Tables.Timely.mono {later : Int} {tables : Tables} (h : tables.Timely now)
    (hlater : now ≤ later) : tables.Timely later := by
  intro row hrow
  obtain ⟨created, updated, hcreated, hupdated, hle, hnow⟩ := h row hrow
  exact ⟨created, updated, hcreated, hupdated, hle, Int.le_trans hnow hlater⟩

namespace Tables

variable {tables : Tables}

theorem sound_empty : Sound {} where
  ids := List.nodup_nil
  keys := List.nodup_nil
  numbers _ h := nomatch h
  parents _ h := nomatch h
  named _ h := nomatch h
  answers := List.nodup_nil
  repliesNamed _ h := nomatch h

theorem nodup_map_append {β γ : Type} {items : List β} {added : β} {seen : β → γ}
    (h : (items.map seen).Nodup) (hnew : ∀ item ∈ items, seen item ≠ seen added) :
    ((items ++ [added]).map seen).Nodup := by
  rw [List.map_append, List.map_singleton]
  refine List.nodup_append.mpr ⟨h, List.nodup_singleton _, fun _ hmem other hother => ?_⟩
  obtain ⟨item, hitem, rfl⟩ := List.mem_map.mp hmem
  rw [List.mem_singleton.mp hother]
  exact hnew item hitem

/-! ## Declarations -/

variable {after : Tables} {test : Row → Bool} {repository : String} {count : Nat} {d : Declaration}
  {found : Bool} {c : Change} (gone : List Row)

/-- What writing a declaration can do: the row of its occurrence is written again, or a row with a
new id is added. The parent is there afterwards. -/
theorem upsert_cases {id : Int} (h : tables.upsert d now = .ok (id, after)) :
    parentExists after.symbols (d.parent.map .integer) = true ∧
      ((∃ old ∈ tables.symbols, old.key = declarationKey d ∧ id = old.id ∧
          after = { tables with symbols := replaceRow (old.redeclare d now) tables.symbols }) ∨
        ((∀ row ∈ tables.symbols, row.key ≠ declarationKey d) ∧ id = nextId tables.symbols ∧
          after = { tables with
            symbols := tables.symbols ++ [Row.ofDeclaration (nextId tables.symbols) d now] })) := by
  rw [upsert, placeRow] at h
  cases hfind : tables.symbols.find? fun row => row.key == declarationKey d with
  | some old =>
    simp only [hfind] at h
    split at h
    · next hparent =>
      cases h
      have hkey : old.key = declarationKey d := by simpa using List.find?_some hfind
      exact ⟨hparent, .inl ⟨old, List.mem_of_find?_eq_some hfind, hkey, rfl, rfl⟩⟩
    · cases h
  | none =>
    simp only [hfind] at h
    split at h
    · next hparent =>
      cases h
      refine ⟨hparent, .inr ⟨fun row hrow => ?_, rfl, rfl⟩⟩
      simpa using List.find?_eq_none.mp hfind row hrow
    · cases h

/-- What each declaration preserves, several that are written in their order preserve. -/
theorem upsert_each_induction (P : Tables → Prop) {ds : List Declaration} {tables : Tables}
    (hstep : ∀ d ∈ ds, ∀ tables id after, P tables → tables.upsert d now = .ok (id, after) →
      P after) (h : P tables) (hdone : upsertEach now ds tables = .ok after) : P after := by
  induction ds generalizing tables with
  | nil =>
    cases hdone
    exact h
  | cons d ds ih =>
    rw [upsertEach] at hdone
    split at hdone
    · next id next hfirst =>
      refine ih (fun d hd => hstep d (.tail _ hd)) ?_ hdone
      exact hstep d (.head _) tables id next h hfirst
    · cases hdone

theorem upsert_all_ok {ds : List Declaration} (h : tables.upsertAll ds now = .ok (count, after)) :
    count = ds.length ∧ upsertEach now ds tables = .ok after := by
  rw [upsertAll] at h
  cases heach : upsertEach now ds tables with
  | error e => simp [heach, Except.map] at h
  | ok last =>
    simp only [heach, Except.map, Except.ok.injEq, Prod.mk.injEq] at h
    exact ⟨h.1.symm, by rw [h.2]⟩

/-! ## Changes -/

/-- What a change can do: nothing if its row is not in the repository; otherwise the row gets new
parts, its occurrence is still its own, and its parent is there. -/
theorem update_cases {id : Int} (h : tables.update repository id c now = .ok (found, after)) :
    (found = false ∧ after = tables ∧
        ∀ row ∈ tables.symbols, row.id = id → row.repository ≠ repository) ∨
      (found = true ∧ ∃ row ∈ tables.symbols, row.id = id ∧ row.repository = repository ∧
        (∀ other ∈ tables.symbols, other.id ≠ id → other.key ≠ (row.change c now).key) ∧
        parentExists tables.symbols (row.change c now).parent = true ∧
        after = { tables with symbols := replaceRow (row.change c now) tables.symbols }) := by
  revert h
  fun_cases update with
  | case1 hfind =>
    rintro ⟨⟩
    refine .inl ⟨rfl, rfl, fun row hrow hid hrepository => ?_⟩
    simpa [hid, hrepository] using List.find?_eq_none.mp hfind row hrow
  | case3 row hfind changed hkeys hparent =>
    rintro ⟨⟩
    have htest := List.find?_some hfind
    simp only [Bool.and_eq_true, beq_iff_eq] at htest
    refine .inr ⟨rfl, row, List.mem_of_find?_eq_some hfind, htest.1, htest.2,
      fun other hother hid hkey => hkeys ?_, hparent, rfl⟩
    exact List.any_eq_true.mpr ⟨other, hother, by simp [changed, hid, hkey]⟩
  | case2 | case4 => exact nofun

theorem is_nat_get_d {n : Option Nat} {cell : Cell} (h : cell.IsNat) :
    ((n.map natCell).getD cell).IsNat := by
  cases n with
  | none => exact h
  | some n => exact ⟨n, rfl⟩

/-! ## Deletions -/

/-- A row that loses its parent keeps everything else. -/
theorem orphan_cases (row : Row) :
    (row.orphan gone = row ∧ ∀ other ∈ gone, row.parent ≠ some (.integer other.id)) ∨
      (row.orphan gone = { row with parent := none } ∧
        ∃ other ∈ gone, row.parent = some (.integer other.id)) := by
  rw [Row.orphan]
  split
  · next h =>
    obtain ⟨other, hother, heq⟩ := List.any_eq_true.mp h
    exact .inr ⟨rfl, other, hother, by simpa using heq⟩
  · next h =>
    refine .inl ⟨rfl, fun other hother heq => h ?_⟩
    exact List.any_eq_true.mpr ⟨other, hother, by simpa using heq⟩

@[simp]
theorem orphan_id (row : Row) : (row.orphan gone).id = row.id := by
  rw [Row.orphan]
  split <;> rfl

@[simp]
theorem orphan_key (row : Row) : (row.orphan gone).key = row.key := by
  rw [Row.orphan]
  split <;> rfl

@[simp]
theorem orphan_repository (row : Row) :
    (row.orphan gone).repository = row.repository := congrArg Key.repository (orphan_key gone row)

theorem mem_kept {gone : List Row}
    (h : row ∈ (rows.filter fun row => !test row).map (Row.orphan gone)) :
    ∃ old ∈ rows, test old = false ∧ row = old.orphan gone := by
  obtain ⟨old, hold, rfl⟩ := List.mem_map.mp h
  obtain ⟨hrows, htest⟩ := List.mem_filter.mp hold
  exact ⟨old, hrows, by simpa using htest, rfl⟩

/-! ## Replies -/

theorem record_reply_symbols {entry : Entry} {isFirst : Bool}
    (hdone : tables.recordReply entry = .ok (isFirst, after)) : after.symbols = tables.symbols := by
  rw [recordReply] at hdone
  split at hdone <;> cases hdone <;> rfl

/-! ## What keeps tables sound -/

namespace Sound

variable (h : tables.Sound)

include h

theorem row_unique {other : Row} (hrow : row ∈ tables.symbols) (hother : other ∈ tables.symbols)
    (hid : row.id = other.id) : row = other :=
  List.inj_on_of_nodup_map h.ids hrow hother hid

/-- A row that takes the place of another one and fits to the rest keeps tables sound. -/
theorem replace {changed old : Row} (hold : old ∈ tables.symbols) (hid : changed.id = old.id)
    (hrepository : changed.repository = old.repository)
    (hkey : ∀ other ∈ tables.symbols, other.id ≠ changed.id → other.key ≠ changed.key)
    (hnumbers : changed.line.IsNat ∧ changed.column.IsNat)
    (hparent : parentExists tables.symbols changed.parent = true) :
    Sound { tables with symbols := replaceRow changed tables.symbols } where
  ids := by
    rw [map_id_replace_row]
    exact h.ids
  keys := by
    -- the keys of two rows can agree only if one of them is the changed row
    have hpair : tables.symbols.Pairwise fun a b => a.id ≠ b.id ∧ a.key ≠ b.key :=
      (List.pairwise_map.mp h.ids).and (List.pairwise_map.mp h.keys)
    refine List.pairwise_map.mpr (List.pairwise_map.mpr (hpair.imp_of_mem ?_))
    intro a b ha hb hab
    by_cases haid : a.id = changed.id
    · have hbid : b.id ≠ changed.id := fun hbid => hab.1 (haid.trans hbid.symm)
      rw [if_pos haid, if_neg hbid]
      exact (hkey b hb hbid).symm
    · rw [if_neg haid]
      split
      · exact hkey a ha haid
      · exact hab.2
  numbers row hrow := by
    rcases mem_replace_row hrow with ⟨rfl, _⟩ | ⟨hrow, _⟩
    · exact hnumbers
    · exact h.numbers row hrow
  parents row hrow cell hcell := by
    have hfound : parentExists tables.symbols row.parent = true := by
      rcases mem_replace_row hrow with ⟨rfl, _⟩ | ⟨hrow, _⟩
      · exact hparent
      · exact parent_exists_iff.mpr (h.parents row hrow)
    rw [← parent_exists_replace_row changed] at hfound
    exact parent_exists_iff.mp hfound cell hcell
  named row hrow := by
    rcases mem_replace_row hrow with ⟨rfl, _⟩ | ⟨hrow, _⟩
    · rw [hrepository]
      exact h.named old hold
    · exact h.named row hrow
  answers := h.answers
  repliesNamed := h.repliesNamed

/-- A row with a new id and a new occurrence whose parent is there keeps tables sound. -/
theorem append {added : Row} (hid : ∀ row ∈ tables.symbols, row.id ≠ added.id)
    (hkey : ∀ row ∈ tables.symbols, row.key ≠ added.key)
    (hnumbers : added.line.IsNat ∧ added.column.IsNat)
    (hnamed : Text.blank added.repository = false)
    (hparent : parentExists (tables.symbols ++ [added]) added.parent = true) :
    Sound { tables with symbols := tables.symbols ++ [added] } where
  ids := nodup_map_append h.ids hid
  keys := nodup_map_append h.keys hkey
  numbers := List.forall_mem_append.mpr ⟨h.numbers, List.forall_mem_singleton.mpr hnumbers⟩
  parents row hrow := by
    rw [← parent_exists_iff]
    rcases List.mem_append.mp hrow with hrow | hrow
    · refine parent_exists_mono ?_ (parent_exists_iff.mpr (h.parents row hrow))
      exact fun other hother => ⟨other, List.mem_append_left _ hother, rfl⟩
    · rw [List.mem_singleton.mp hrow]
      exact hparent
  named := List.forall_mem_append.mpr ⟨h.named, List.forall_mem_singleton.mpr hnamed⟩
  answers := h.answers
  repliesNamed := h.repliesNamed

theorem upsert {id : Int} (hnamed : Text.blank d.repository = false)
    (hdone : tables.upsert d now = .ok (id, after)) : after.Sound := by
  obtain ⟨hparent, ⟨old, hold, hkey, rfl, rfl⟩ | ⟨hkey, rfl, rfl⟩⟩ := upsert_cases hdone
  · -- the row keeps its key, which no other row has
    have hothers (other : Row) (hother : other ∈ tables.symbols) (heq : other.key = old.key) :
        other = old := List.inj_on_of_nodup_map h.keys hother hold heq
    refine h.replace hold rfl rfl (fun other hother hid heq => hid ?_) (h.numbers old hold) ?_
    · rw [hothers other hother heq]
      rfl
    · rwa [parent_exists_replace_row] at hparent
  · refine h.append (fun row hrow => Int.ne_of_lt (id_lt_next_id hrow)) hkey ⟨⟨_, rfl⟩, ⟨_, rfl⟩⟩
      hnamed ?_
    exact hparent

theorem update {id : Int} (hdone : tables.update repository id c now = .ok (found, after)) :
    after.Sound := by
  obtain ⟨_, rfl, _⟩ | ⟨_, row, hrow, rfl, _, hkeys, hparent, rfl⟩ := update_cases hdone
  · exact h
  · obtain ⟨hline, hcolumn⟩ := h.numbers row hrow
    exact h.replace hrow rfl rfl hkeys ⟨is_nat_get_d hline, is_nat_get_d hcolumn⟩ hparent

theorem delete (hdone : tables.deleteWhere test = .ok (count, after)) : after.Sound := by
  have hkept {β : Type} {g : Row → β} (hg : (tables.symbols.map g).Nodup)
      (hsame : ∀ row : Row, g (row.orphan (tables.symbols.filter test)) = g row) :
      (((tables.symbols.filter fun row => !test row).map
        (Row.orphan (tables.symbols.filter test))).map g).Nodup := by
    rw [List.map_map, funext (f := g ∘ _) hsame]
    exact (List.Sublist.map g List.filter_sublist).nodup hg
  cases hdone
  constructor
  case ids => exact hkept h.ids (orphan_id _)
  case keys => exact hkept h.keys (orphan_key _)
  case numbers =>
    intro row hrow
    obtain ⟨old, hold, _, rfl⟩ := mem_kept hrow
    have hkey := orphan_key (tables.symbols.filter test) old
    rw [show (old.orphan (tables.symbols.filter test)).line = old.line from congrArg Key.line hkey,
      show (old.orphan (tables.symbols.filter test)).column = old.column from
        congrArg Key.column hkey]
    exact h.numbers old hold
  case parents =>
    intro row hrow cell hcell
    obtain ⟨old, hold, _, rfl⟩ := mem_kept hrow
    rcases orphan_cases (tables.symbols.filter test) old with ⟨heq, hothers⟩ | ⟨heq, _⟩
    · rw [heq] at hcell
      obtain ⟨parent, hparent, rfl⟩ := h.parents old hold cell hcell
      -- a parent that was deleted would have been taken from the row
      have hkept : test parent = false := by
        by_contra htest
        refine hothers parent (List.mem_filter.mpr ⟨hparent, ?_⟩) hcell
        simpa using htest
      refine ⟨parent.orphan (tables.symbols.filter test), ?_, by rw [orphan_id]⟩
      exact List.mem_map_of_mem (List.mem_filter.mpr ⟨hparent, by simp [hkept]⟩)
    · rw [heq] at hcell
      cases hcell
  case named =>
    intro row hrow
    obtain ⟨old, hold, _, rfl⟩ := mem_kept hrow
    rw [orphan_repository]
    exact h.named old hold
  case answers => exact h.answers
  case repliesNamed => exact h.repliesNamed

theorem record_reply {entry : Entry} {isFirst : Bool} (hnamed : Text.blank entry.repository = false)
    (hdone : tables.recordReply entry = .ok (isFirst, after)) : after.Sound := by
  rw [recordReply] at hdone
  split at hdone <;> cases hdone
  · exact h
  · next hnew =>
    refine { h with
      answers := nodup_map_append h.answers fun old hold heq => hnew ?_
      repliesNamed := List.forall_mem_append.mpr
        ⟨h.repliesNamed, List.forall_mem_singleton.mpr hnamed⟩ }
    exact List.any_eq_true.mpr ⟨old, hold, by simp [heq]⟩

theorem delete_replies {cutoff : Int}
    (hdone : tables.deleteRepliesBefore cutoff = .ok (count, after)) : after.Sound := by
  cases hdone
  refine { h with answers := ?_, repliesNamed := ?_ }
  · exact (List.Sublist.map _ List.filter_sublist).nodup h.answers
  · exact fun entry hentry => h.repliesNamed entry (List.mem_filter.mp hentry).1

end Sound

end Tables

end CodeAtlas.Store
