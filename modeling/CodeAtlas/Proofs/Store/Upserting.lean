import CodeAtlas.Proofs.Store.Readiness

/-!
# Writing a declaration

`insert_upserts` says what becomes of the tables of an index when a declaration is written: which
parents it may have, what its row holds, what the other rows are, and that writing it again changes
the time of its row alone.
-/

namespace CodeAtlas.Store

open CodeAtlas.Symbol (Change Declaration)
open Time (Timestamp)

/-- The row of a declaration that was first and last written at given times. -/
def Row.written (id : Int) (d : Declaration) (created now : Int) : Row :=
  { Row.ofDeclaration id d now with createdAt := .integer created }

theorem Row.redeclare_eq {old : Row} {d : Declaration} {created : Int}
    (h : old.key = declarationKey d) (hcreated : old.createdAt = .integer created) (now : Int) :
    old.redeclare d now = .written old.id d created now := by
  simp only [Row.key, declarationKey, Key.mk.injEq] at h
  obtain ⟨hline, hcolumn, hname, hfile, hrepository⟩ := h
  simp only [redeclare, written, ofDeclaration, hline, hcolumn, hname, hfile, hrepository, hcreated]

/-- A declaration with the parts that a change gives. -/
def amend (d : Declaration) (c : Change) : Declaration :=
  { d with
    kind := c.kind.getD d.kind
    docstring := c.docstring.or d.docstring
    line := c.line.getD d.line
    column := c.column.getD d.column
    endLine := c.endLine.or d.endLine
    endColumn := c.endColumn.or d.endColumn
    parent := c.parent.or d.parent }

theorem Row.change_written (id : Int) (d : Declaration) (created last : Int) (c : Change)
    (now : Int) :
    (Row.written id d created last).change c now = .written id (amend d c) created now := by
  simp only [change, written, ofDeclaration, amend, Option.getD_map, Option.map_or]

/-- Whether the numbers of a declaration have at most 32 bits. -/
def Fits (d : Declaration) : Prop :=
  d.line < 0x100000000 ∧ d.column < 0x100000000 ∧ (∀ n ∈ d.endLine, n < 0x100000000) ∧
    ∀ n ∈ d.endColumn, n < 0x100000000

theorem read_nat {n : Nat} (h : n < 0x100000000) (index : Nat) (name : String) :
    readNat32 index name (natCell n) = .ok n := by
  have hread (n : Int) (h : 0 ≤ n ∧ n < 0x100000000) :
      readNat32 index name (.integer n) = .ok n.toNat := by
    unfold readNat32
    simp only [readInteger, bind, Except.bind]
    split
    · rfl
    · next hout => exact absurd h hout
  exact hread n (by omega)

theorem read_optional {α : Type} {cell : α → Cell} {read : Cell → Result α}
    {value : Option α} (h : ∀ a ∈ value, read (cell a) = .ok a) :
    readNullable read (value.map cell) = .ok value := by
  cases value with
  | none => rfl
  | some a =>
    rw [Option.map_some, readNullable, h a rfl]
    rfl

/-- A row is read as the declaration that was written. -/
theorem Row.read_written {id : Int} {d : Declaration} {created now : Int}
    {createdAt updatedAt : Timestamp} (hfits : Fits d)
    (hcreated : Timestamp.ofMillis? created = some createdAt)
    (hnow : Timestamp.ofMillis? now = some updatedAt) :
    (Row.written id d created now).read = .ok ⟨id, d, createdAt, updatedAt⟩ := by
  obtain ⟨hline, hcolumn, hendLine, hendColumn⟩ := hfits
  have hkind : readKind 2 d.kind.name = .ok d.kind := by rw [readKind, Symbol.Kind.ofName?_name]
  have hparent : readNullable (readInteger 8 "parent_id") (d.parent.map .integer) = .ok d.parent :=
    read_optional fun _ _ => rfl
  have hbind {α β : Type} (a : α) (next : α → Result β) :
      (Except.ok a >>= next) = next a := rfl
  rw [Row.read]
  dsimp only [written, ofDeclaration]
  rw [hkind, hbind, read_nat hline, hbind, read_nat hcolumn, hbind, hparent, hbind,
    read_optional fun n hn => read_nat (hendLine n hn) _ _, hbind,
    read_optional fun n hn => read_nat (hendColumn n hn) _ _, hbind, read_time hcreated, hbind,
    read_time hnow, hbind]
  rfl

namespace Tables

variable {tables after : Tables} {d : Declaration} {now id created : Int}

/-- What writing a declaration does to tables. -/
structure Upserted (d : Declaration) (now id created : Int) (before after : Tables) : Prop where
  row : .written id d created now ∈ after.symbols
  others : ∀ row : Row, row.id ≠ id → (row ∈ after.symbols ↔ row ∈ before.symbols)
  replies : after.replies = before.replies
  /-- An occurrence that is there keeps its id and its first time. -/
  known : ∀ old ∈ before.symbols, old.key = declarationKey d → id = old.id ∧
    old.createdAt = .integer created ∧ after.symbols.length = before.symbols.length
  new : (∀ row ∈ before.symbols, row.key ≠ declarationKey d) →
    (∀ row ∈ before.symbols, row.id ≠ id) ∧ created = now ∧
      after.count d.repository = before.count d.repository + 1

theorem upsert_upserted (h : tables.Sound)
    (hcreated : ∀ row ∈ tables.symbols, ∃ time, row.createdAt = .integer time)
    (hdone : tables.upsert d now = .ok (id, after)) :
    ∃ created, Upserted d now id created tables after := by
  obtain ⟨_, ⟨old, hold, hkey, rfl, rfl⟩ | ⟨hnew, rfl, rfl⟩⟩ := upsert_cases hdone
  · obtain ⟨created, hcreated⟩ := hcreated old hold
    refine ⟨created, ?_, fun row hid => ⟨fun hrow => ?_, fun hrow => ?_⟩, rfl,
      fun other hother hsame => ?_, fun hnew => absurd hkey (hnew old hold)⟩
    · rw [← Row.redeclare_eq hkey hcreated]
      exact List.mem_map.mpr ⟨old, hold, if_pos rfl⟩
    · rcases mem_replace_row hrow with ⟨rfl, _⟩ | ⟨hrow, _⟩
      · exact absurd rfl hid
      · exact hrow
    · exact List.mem_map.mpr ⟨row, hrow, if_neg hid⟩
    · obtain rfl := List.inj_on_of_nodup_map h.keys hother hold (hsame.trans hkey.symm)
      exact ⟨rfl, hcreated, List.length_map ..⟩
  · refine ⟨now, List.mem_append_right _ (.head _), fun row hid => ?_, rfl,
      fun old hold hkey => absurd hkey (hnew old hold), fun _ => ⟨fun row hrow => ?_, rfl, ?_⟩⟩
    · rw [List.mem_append, List.mem_singleton, or_iff_left]
      rintro rfl
      exact hid rfl
    · exact Int.ne_of_lt (id_lt_next_id hrow)
    · rw [count, count, List.filter_append, List.length_append]
      simp [Row.ofDeclaration]

/-- A declaration can be written if its parent is there, or is its own new row. -/
theorem upsert_ok_iff (tables : Tables) (d : Declaration) (now : Int) :
    (tables.upsert d now).isOk = true ↔ ∀ parent ∈ d.parent,
    (∃ row ∈ tables.symbols, row.id = parent) ∨
      (∀ row ∈ tables.symbols, row.key ≠ declarationKey d) ∧ parent = nextId tables.symbols := by
  have hok (rows : List Row) (written : Int × Tables) :
      (if parentExists rows (d.parent.map .integer) then (.ok written : Written Int)
        else .error foreignKeyFailure).isOk = true ↔
      ∀ parent ∈ d.parent, parent ∈ rows.map Row.id := by
    have hparents : parentExists rows (d.parent.map .integer) = true ↔
        ∀ parent ∈ d.parent, parent ∈ rows.map Row.id := by
      rw [parent_exists_iff]
      cases d.parent <;> simp [eq_comm]
    rw [← hparents]
    split <;> simp [*, Except.isOk, Except.toBool]
  rw [upsert, placeRow]
  cases hfind : tables.symbols.find? fun row => row.key == declarationKey d with
  | some old =>
    have hold := List.mem_of_find?_eq_some hfind
    have hkey : old.key = declarationKey d := by simpa using List.find?_some hfind
    refine (hok _ _).trans (forall₂_congr fun parent _ => ?_)
    rw [map_id_replace_row, List.mem_map, or_iff_left fun hnew => hnew.1 old hold hkey]
  | none =>
    have hnew : ∀ row ∈ tables.symbols, row.key ≠ declarationKey d := by simpa using hfind
    refine (hok _ _).trans (forall₂_congr fun parent _ => ?_)
    rw [List.map_append, List.mem_append, List.mem_map, List.map_singleton, List.mem_singleton,
      and_iff_right hnew]
    rfl

/-- Writing what was just written changes the time of its row alone. -/
theorem upsert_again (h : after.Sound) (hdone : tables.upsert d now = .ok (id, after))
    (hrow : .written id d created now ∈ after.symbols) (later : Int) :
    after.upsert d later = .ok (id, { after with
      symbols := replaceRow (.written id d created later) after.symbols }) := by
  have hfind : after.symbols.find? (fun row => row.key == declarationKey d) =
      some (.written id d created now) := by
    refine find_unique (fun row hrow hkey => ?_) hrow (beq_self_eq_true _)
    exact List.inj_on_of_nodup_map h.keys hrow ‹_› (beq_iff_eq.mp hkey)
  rw [upsert, placeRow, hfind]
  simp only [parent_exists_replace_row, (upsert_cases hdone).1, if_true]
  rfl

theorem find_own (h : tables.Sound) {row : Row} (hrow : row ∈ tables.symbols) :
    tables.symbols.find? (fun other => other.id == row.id && other.repository == row.repository) =
      some row := by
  refine find_unique (fun other hother htest => ?_) hrow (by simp)
  rw [Bool.and_eq_true, beq_iff_eq] at htest
  exact h.row_unique hother hrow htest.1

end Tables

section Calls

variable {α : Type} {store : Store} {statement : Statement α} {d : Declaration}

/-- A statement that a ready index carries out has its effect at the time that it is then. -/
theorem IsReady.write_ok {a : α} {name : String} (h : store.IsReady)
    (hstatement : statement.IsSound) (hok : (store.write name statement).1 = .ok a) :
    statement.onTables (store.write name statement).2.session.world.now store.tables =
      .ok (a, (store.write name statement).2.tables) := by
  obtain ⟨hdoes, _⟩ := Session.IsReady.attempt h (succeeds_write hstatement)
  have hundergoes := Session.Keeps.attempt_undergoes h.calm.keeps (transacts_write hstatement)
  rw [Store.write, Operation.run, Operation.tries.eq_def] at hok ⊢
  cases hattempt : store.session.attempt (diskAccess store.path)
      (Disk.tryUse (Disk.write statement)) with
  | mk result next =>
    rw [hattempt] at hdoes hundergoes
    simp only [hattempt] at hok ⊢
    cases result with
    | error e =>
      dsimp only at hdoes hok
      rw [(hdoes.failure (transacts_write hstatement)).1] at hok
      cases hok
    | ok b =>
      cases hok
      cases hundergoes with
      | done hworks => exact run_eq_ok (Prod.ext hworks.result hworks.tables)

theorem find_row {tables : Tables} {row : Row} (h : tables.Sound) (hrow : row ∈ tables.symbols) :
    tables.find row.repository row.id = some <$> row.read := by
  rw [Tables.find, Tables.find_own h hrow]

/-- What becomes of a declaration that is written to a ready index. -/
theorem IsReady.insert (h : store.IsReady) (hnamed : Text.blank d.repository = false) :
    (store.insert d).2.IsReady ∧
      (∃ now, (store.insert d).1.isOk = (store.tables.upsert d now).isOk) ∧
      ∀ id, (store.insert d).1 = .ok id → store.tables.upsert d
        (store.insert d).2.session.world.now = .ok (id, (store.insert d).2.tables) := by
  have hinsert : store.insert d = store.write "insert_symbol" (.upsert d) :=
    if_neg (by simp [hnamed])
  rw [hinsert]
  obtain ⟨hready, hok⟩ := h.write_is_ok (Statement.upsert_sound hnamed) "insert_symbol"
  exact ⟨hready, hok, fun id => h.write_ok (Statement.upsert_sound hnamed)⟩

theorem Reachable.rows_written (h : store.Reachable) :
    ∀ row ∈ store.tables.symbols, ∃ d created last, row = .written row.id d created last := by
  have hinvariant := Tables.invariant_rows
    (Q := fun _ row => ∃ d created last, row = .written row.id d created last)
    (fun id d now => ⟨d, now, now, rfl⟩)
    (fun old d now ⟨_, created, _, hold⟩ hkey =>
      ⟨d, created, now, Row.redeclare_eq hkey (congrArg Row.createdAt hold) now⟩)
    (fun old c now ⟨d, created, last, hold⟩ =>
      ⟨amend d c, created, now, by
        rw [hold, Row.change_written]
        rfl⟩)
    fun row _ ⟨d, created, last, hrow⟩ => ⟨{ d with parent := none }, created, last, by
      rw [hrow]
      rfl⟩
  exact Session.Keeps.tables_all (h.keeps_all hinvariant) (List.forall_mem_nil _)

theorem Reachable.created_at (h : store.Reachable) (row : Row) (hrow : row ∈ store.tables.symbols) :
    ∃ time, row.createdAt = .integer time := by
  obtain ⟨_, created, _, hwritten⟩ := h.rows_written row hrow
  exact ⟨created, congrArg Row.createdAt hwritten⟩

/-- Writing a declaration to an index that is in use succeeds exactly if its parent is a row that is
there then. Its row is read as the declaration, all other rows stay, and the row has its id and its
first time from one with the same occurrence, or is new. Writing it again changes the last time of
its row and no more. -/
theorem insert_upserts (h : store.Reachable) (husable : store.IsUsable)
    (hnamed : Text.blank d.repository = false) :
    let before := store.tables
    let next := (store.insert d).2
    let now := next.session.world.now
    ((store.insert d).1.isOk = true ↔ ∀ parent ∈ d.parent,
      (∃ row ∈ before.symbols, row.id = parent) ∨
        (∀ row ∈ before.symbols, row.key ≠ declarationKey d) ∧ parent = nextId before.symbols) ∧
    ∀ id, (store.insert d).1 = .ok id → ∃ created,
      Tables.Upserted d now id created before next.tables ∧
      (∀ createdAt updatedAt, Timestamp.ofMillis? created = some createdAt →
        Timestamp.ofMillis? now = some updatedAt → Fits d →
        (next.get d.repository id).1 = .ok (some ⟨id, d, createdAt, updatedAt⟩)) ∧
      (next.insert d).1 = .ok id ∧ (next.insert d).2.tables = { next.tables with
        symbols := replaceRow (.written id d created (next.insert d).2.session.world.now)
          next.tables.symbols } := by
  intro before next now
  have hready := h.isReady husable
  obtain ⟨hnext, ⟨_, hsame⟩, hwritten⟩ := hready.insert hnamed
  rw [hsame, Tables.upsert_ok_iff]
  refine ⟨Iff.rfl, fun id hid => ?_⟩
  have hdone := hwritten id hid
  obtain ⟨created, hupserted⟩ :=
    Tables.upsert_upserted (IsCalm.sound hready.calm) h.created_at hdone
  have hsound : next.tables.Sound := IsCalm.sound hnext.calm
  obtain ⟨_, ⟨later, hagain⟩, hrewritten⟩ := hnext.insert hnamed
  have hrepeated := Tables.upsert_again hsound hdone hupserted.row
  refine ⟨created, hupserted, ?_, ?_⟩
  · intro createdAt updatedAt hcreated hnow hfits
    have hread : (next.read (.find d.repository id)).1 =
        (next.tables.find d.repository id).mapError .database :=
      (hnext.read (find_fails · d.repository id)).1
    have hfind : next.tables.find d.repository id = _ := find_row hsound hupserted.row
    rw [get, Store.within, if_neg (by simp [hnamed]), hread, hfind,
      Row.read_written hfits hcreated hnow]
    rfl
  · cases hresult : (next.insert d).1 with
    | error e =>
      rw [hrepeated, hresult] at hagain
      cases hagain
    | ok other =>
      obtain ⟨hid, htables⟩ := Prod.mk.inj
        (Except.ok.inj ((hrewritten other hresult).symm.trans (hrepeated _)))
      exact ⟨congrArg Except.ok hid, htables⟩

end Calls

/-- A row may be its own parent, and then it is new. -/
theorem insert_upserts_sample :
    let d := sampleDeclaration "r" 1 (some 1)
    sampleStore.IsUsable ∧ (sampleStore.insert d).1 = .ok 1 ∧
      ((sampleStore.insert d).2.get "r" 1).1 = .ok (some ⟨1, d, ⟨0, 0⟩, ⟨0, 0⟩⟩) := by
  intro d
  have hreachable : sampleStore.Reachable := ⟨_, _, _, _, [], sample_disk_empty, open_sample, rfl⟩
  have husable : sampleStore.IsUsable := by decide +kernel
  have hinsert : (sampleStore.insert d).1 = .ok 1 := by decide +kernel
  obtain ⟨_, hwritten⟩ := insert_upserts (d := d) hreachable husable (by decide)
  obtain ⟨created, hupserted, hget, _⟩ := hwritten 1 hinsert
  obtain ⟨_, rfl, _⟩ := hupserted.new (by decide +kernel)
  have hfits : Fits d := by simp [Fits, d, sampleDeclaration]
  exact ⟨husable, hinsert, hget _ _ (by decide +kernel) (by decide +kernel) hfits⟩

end CodeAtlas.Store
