import CodeAtlas.Proofs.Store.Keeping

/-!
# Answers from the tables of an index

`Inquiry.answer` says what a question about a repository is answered from given tables. Statements
and queries that fail on tables fail for good (`FailsForGood`), so they are not tried again and the
index keeps its connection. In a calm index a statement has its effect on the tables or none
(`Store.IsCalm.write`), and every answer is the one from its tables (`Store.IsCalm.inquire`). An
answer depends on the rows of its repository alone (`Inquiry.answer_within`), and gives symbols of
no other (`Inquiry.answer_repository`).
-/

namespace CodeAtlas.Store

open CodeAtlas.Symbol (Change Declaration Reply Stored)

/-! ## Failures -/

/-- A computation that would fail in the same way again, if it fails. -/
def FailsForGood {α : Type} (result : Result α) : Prop :=
  ∀ e, result = .error e → e.classify = .permanent

section Failures

variable {α β : Type} {result : Result α} {tables : Tables}

theorem fails_for_good_ok (a : α) : FailsForGood (.ok a) := fun _ herror => nomatch herror

theorem fails_for_good_error {e : DatabaseError} (h : e.classify = .permanent) :
    FailsForGood (.error e : Result α) := by
  intro cause heq
  cases heq
  exact h

theorem FailsForGood.bind {next : α → Result β} (h : FailsForGood result)
    (hnext : ∀ a, FailsForGood (next a)) : FailsForGood (result >>= next) := by
  intro e heq
  cases result with
  | error cause =>
    cases heq
    exact h _ rfl
  | ok a => exact hnext a e heq

theorem FailsForGood.map {f : α → β} (h : FailsForGood result) : FailsForGood (f <$> result) := by
  intro e heq
  cases result with
  | error cause =>
    cases heq
    exact h _ rfl
  | ok a => cases heq

theorem fails_for_good_map_m {f : α → Result β} {items : List α}
    (h : ∀ item, FailsForGood (f item)) : FailsForGood (items.mapM f) := by
  induction items with
  | nil => exact fails_for_good_ok []
  | cons item rest ih =>
    rw [List.mapM_cons]
    exact (h item).bind fun _ => ih.bind fun _ => fails_for_good_ok _

theorem read_integer_fails (index : Nat) (name : String) (cell : Cell) :
    FailsForGood (readInteger index name cell) := by
  cases cell with
  | integer n => exact fails_for_good_ok n
  | real | text => exact fails_for_good_error rfl

theorem read_nat32_fails (index : Nat) (name : String) (cell : Cell) :
    FailsForGood (readNat32 index name cell) := by
  refine (read_integer_fails index name cell).bind fun n => ?_
  split <;> first | exact fails_for_good_ok _ | exact fails_for_good_error rfl

theorem read_time_fails (index : Nat) (name : String) (cell : Cell) :
    FailsForGood (readTime index name cell) := by
  refine (read_integer_fails index name cell).bind fun n => ?_
  split <;> first | exact fails_for_good_ok _ | exact fails_for_good_error rfl

theorem read_kind_fails (index : Nat) (name : String) : FailsForGood (readKind index name) := by
  fun_cases readKind <;> first | exact fails_for_good_ok _ | exact fails_for_good_error rfl

theorem read_nullable_fails {read : Cell → Result α}
    (h : ∀ cell, FailsForGood (read cell)) (cell : Option Cell) :
    FailsForGood (readNullable read cell) := by
  cases cell with
  | none => exact fails_for_good_ok _
  | some cell => exact (h cell).map

theorem Row.read_fails (row : Row) : FailsForGood row.read := by
  refine (read_kind_fails _ _).bind fun _ => ?_
  refine (read_nat32_fails _ _ _).bind fun _ => ?_
  refine (read_nat32_fails _ _ _).bind fun _ => ?_
  refine (read_nullable_fails (read_integer_fails _ _) _).bind fun _ => ?_
  refine (read_nullable_fails (read_nat32_fails _ _) _).bind fun _ => ?_
  refine (read_nullable_fails (read_nat32_fails _ _) _).bind fun _ => ?_
  refine (read_time_fails _ _ _).bind fun _ => ?_
  refine (read_time_fails _ _ _).bind fun _ => ?_
  exact fails_for_good_ok _

theorem Entry.read_fails (entry : Entry) : FailsForGood entry.read := by
  refine (read_integer_fails _ _ _).bind fun _ => ?_
  refine (read_integer_fails _ _ _).bind fun _ => ?_
  refine (read_time_fails _ _ _).bind fun _ => ?_
  exact fails_for_good_ok _

theorem upsert_fails (tables : Tables) (d : Declaration) (now : Int) :
    FailsForGood (tables.upsert d now) := by
  fun_cases Tables.upsert <;> first | exact fails_for_good_ok _ | exact fails_for_good_error rfl

theorem upsert_each_fails (now : Int) (ds : List Declaration) (tables : Tables) :
    FailsForGood (Tables.upsertEach now ds tables) := by
  induction ds generalizing tables with
  | nil => exact fails_for_good_ok tables
  | cons d ds ih =>
    rw [Tables.upsertEach]
    split
    · exact ih _
    · next e heq => exact fails_for_good_error (upsert_fails tables d now e heq)

theorem upsert_all_fails (tables : Tables) (ds : List Declaration) (now : Int) :
    FailsForGood (tables.upsertAll ds now) := (upsert_each_fails now ds tables).map

theorem find_fails (tables : Tables) (repository : String) (id : Int) :
    FailsForGood (tables.find repository id) := by
  rw [Tables.find]
  split
  · exact fails_for_good_ok _
  · exact (Row.read_fails _).map

theorem search_fails (tables : Tables) (repository query : String) (kind : Option Symbol.Kind)
    (limit : Nat) : FailsForGood (tables.search repository query kind limit) := by
  rw [Tables.search]
  split
  · exact fails_for_good_error rfl
  · exact fails_for_good_map_m Row.read_fails

theorem listed_fails (tables : Tables) (test : Row → Bool) : FailsForGood (tables.listed test) :=
  fails_for_good_map_m Row.read_fails

theorem find_reply_fails (tables : Tables) (comment pullRequest : Int) (repository : String) :
    FailsForGood (tables.findReply comment pullRequest repository) := by
  rw [Tables.findReply]
  split
  · exact fails_for_good_ok _
  · exact (Entry.read_fails _).map

end Failures

/-! ## Answers -/

def Answer.stored : Answer → List Stored
  | .symbols found => found
  | _ => []

/-- The answer to a question about a repository from tables. -/
def Inquiry.answer (repository : String) (tables : Tables) : Inquiry → Result Answer
  | .get id => (fun found => .symbols found.toList) <$> tables.find repository id
  | .search query kind limit => .symbols <$> tables.search repository query kind limit
  | .inFile file => .symbols <$> tables.inFile file repository
  | .children id => .symbols <$> tables.childrenOf repository id
  | .count => .ok (.count (tables.count repository))
  | .getReply comment pullRequest => .reply <$> tables.findReply comment pullRequest repository
  | .hasReplied comment pullRequest =>
    (fun found => .flag found.isSome) <$> tables.findReply comment pullRequest repository

def Tables.within (tables : Tables) (repository : String) : Tables where
  symbols := tables.symbols.filter fun row => row.repository == repository
  replies := tables.replies.filter fun entry => entry.repository == repository

section Answers

variable {α : Type} {repository : String} {tables other : Tables} {inquiry : Inquiry}
  {answer : Answer}

theorem filter_filter_of_imp {p q : α → Bool} (h : ∀ a, q a = true → p a = true) (items : List α) :
    (items.filter p).filter q = items.filter q := by
  rw [List.filter_filter]
  apply List.filter_congr
  intro a _
  cases hq : q a with
  | false => rfl
  | true => rw [h a hq]; rfl

theorem find_filter_of_imp {p q : α → Bool} (h : ∀ a, q a = true → p a = true) (items : List α) :
    (items.filter p).find? q = items.find? q := by
  rw [← List.head?_filter, ← List.head?_filter, filter_filter_of_imp h]

/-- A question about a repository is answered from its rows alone. -/
theorem Inquiry.answer_within (inquiry : Inquiry) (repository : String) (tables : Tables) :
    inquiry.answer repository (tables.within repository) = inquiry.answer repository tables := by
  -- every test that selects rows asks for their repository too
  have hlisted {test : Row → Bool}
      (h : ∀ row, test row = true → (row.repository == repository) = true) :
      (tables.within repository).listed test = tables.listed test := by
    rw [Tables.listed, Tables.listed, Tables.within, filter_filter_of_imp h]
  have hreply (comment pullRequest : Int) : (tables.within repository).findReply comment pullRequest
      repository = tables.findReply comment pullRequest repository := by
    rw [Tables.findReply, Tables.findReply, Tables.within]
    dsimp only
    rw [find_filter_of_imp]
    intro entry hentry
    rw [beq_iff_eq] at hentry ⊢
    exact congrArg (fun key => key.2.2) hentry
  cases inquiry with
  | get id =>
    rw [answer, answer, Tables.find, Tables.find, Tables.within, find_filter_of_imp]
    intro row hrow
    exact (Bool.and_eq_true_iff.mp hrow).2
  | search query kind limit =>
    have hany : ((tables.within repository).symbols.any fun row => row.repository == repository) =
        tables.symbols.any fun row => row.repository == repository := by
      rw [Tables.within, List.any_filter]
      simp
    rw [answer, answer, Tables.search, Tables.search, hany, hits, hits, Tables.within,
      filter_filter_of_imp]
    intro row hrow
    rw [isHit] at hrow
    exact (Bool.and_eq_true_iff.mp (Bool.and_eq_true_iff.mp hrow).1).1
  | inFile file =>
    rw [answer, answer, Tables.inFile, Tables.inFile, hlisted]
    exact fun row hrow => (Bool.and_eq_true_iff.mp hrow).2
  | children id =>
    rw [answer, answer, Tables.childrenOf, Tables.childrenOf, hlisted]
    exact fun row hrow => (Bool.and_eq_true_iff.mp hrow).2
  | count =>
    rw [answer, answer, Tables.count, Tables.count, Tables.within,
      filter_filter_of_imp fun _ => id]
  | getReply | hasReplied => rw [answer, answer, hreply]

theorem find_unique {test : α → Bool} {items : List α} {a : α}
    (h : ∀ b ∈ items, test b = true → b = a) (hmem : a ∈ items) (ha : test a = true) :
    items.find? test = some a := by
  obtain ⟨b, hb⟩ := Option.isSome_iff_exists.mp (List.find?_isSome.mpr ⟨a, hmem, ha⟩)
  rw [hb, h b (List.mem_of_find?_eq_some hb) (List.find?_some hb)]

theorem bind_eq_ok {β : Type} {result : Result α} {next : α → Result β}
    {b : β} (h : result >>= next = .ok b) : ∃ a, result = .ok a ∧ next a = .ok b := by
  cases result with
  | error e => cases h
  | ok a => exact ⟨a, rfl, h⟩

theorem read_time {ms : Int} {time : Time.Timestamp} (h : Time.Timestamp.ofMillis? ms = some time)
    (index : Nat) (name : String) : readTime index name (.integer ms) = .ok time := by
  simp only [readTime, readInteger, bind, Except.bind, h]
  rfl

theorem Row.read_names {row : Row} {symbol : Stored} (h : row.read = .ok symbol) :
    symbol.declaration.name = row.name ∧ symbol.declaration.repository = row.repository := by
  rw [Row.read] at h
  iterate 8 obtain ⟨_, _, h⟩ := bind_eq_ok h
  cases h
  exact ⟨rfl, rfl⟩

theorem read_rows_repository {rows : List Row} {found : List Stored}
    (hrows : ∀ row ∈ rows, row.repository = repository) (h : rows.mapM Row.read = .ok found) :
    ∀ symbol ∈ found, symbol.declaration.repository = repository := by
  induction rows generalizing found with
  | nil =>
    cases h
    intro _ hsymbol
    cases hsymbol
  | cons row rest ih =>
    rw [List.mapM_cons] at h
    obtain ⟨first, hfirst, h⟩ := bind_eq_ok h
    obtain ⟨more, hmore, h⟩ := bind_eq_ok h
    cases h
    intro symbol hsymbol
    rcases List.mem_cons.mp hsymbol with rfl | hsymbol
    · rw [(Row.read_names hfirst).2]
      exact hrows row (.head _)
    · exact ih (fun row hrow => hrows row (.tail _ hrow)) hmore symbol hsymbol

theorem map_eq_ok {β ε : Type} {f : α → β} {result : Except ε α} {b : β}
    (h : f <$> result = .ok b) : ∃ a, result = .ok a ∧ f a = b := by
  cases result with
  | error e => cases h
  | ok a => exact ⟨a, rfl, Except.ok.inj h⟩

theorem listed_repository {test : Row → Bool} {found : List Stored}
    (htest : ∀ row, test row = true → row.repository = repository)
    (h : tables.listed test = .ok found) :
    ∀ symbol ∈ found, symbol.declaration.repository = repository := by
  refine read_rows_repository (fun row hrow => htest row ?_) h
  exact (List.mem_filter.mp (List.mem_mergeSort.mp hrow)).2

theorem Inquiry.answer_repository (h : inquiry.answer repository tables = .ok answer) :
    ∀ symbol ∈ answer.stored, symbol.declaration.repository = repository := by
  cases inquiry with
  | get id =>
    obtain ⟨found, hfound, rfl⟩ := map_eq_ok h
    rw [Tables.find] at hfound
    split at hfound
    · cases hfound
      intro _ hsymbol
      cases hsymbol
    · next row hrow =>
      obtain ⟨symbol, hsymbol, rfl⟩ := map_eq_ok hfound
      intro other hother
      rw [Answer.stored, Option.toList_some, List.mem_singleton] at hother
      rw [hother, (Row.read_names hsymbol).2]
      have htest := List.find?_some hrow
      simpa using (Bool.and_eq_true_iff.mp htest).2
  | search query kind limit =>
    obtain ⟨found, hfound, rfl⟩ := map_eq_ok h
    rw [Tables.search] at hfound
    split at hfound
    · cases hfound
    · refine read_rows_repository (fun row hrow => ?_) hfound
      have hhit := (List.mem_filter.mp (List.mem_mergeSort.mp (List.mem_of_mem_take hrow))).2
      rw [isHit] at hhit
      simpa using (Bool.and_eq_true_iff.mp (Bool.and_eq_true_iff.mp hhit).1).1
  | inFile | children =>
    obtain ⟨found, hfound, rfl⟩ := map_eq_ok h
    refine listed_repository (fun row hrow => ?_) hfound
    simpa using (Bool.and_eq_true_iff.mp hrow).2
  | count =>
    cases h
    intro _ hsymbol
    cases hsymbol
  | getReply | hasReplied =>
    obtain ⟨_, _, rfl⟩ := map_eq_ok h
    intro _ hsymbol
    cases hsymbol

end Answers

/-! ## Calls of calm indices -/

/-- A statement that keeps tables sound and fails for good if it fails. -/
structure Statement.IsSound {α : Type} (statement : Statement α) : Prop where
  keeps : ∀ now tables a changed, tables.Sound → statement.onTables now tables = .ok (a, changed) →
    changed.Sound
  fails : ∀ now tables, FailsForGood (statement.onTables now tables)

namespace Statement

theorem upsert_sound {d : Declaration} (hnamed : Text.blank d.repository = false) :
    (upsert d).IsSound :=
  ⟨fun _ _ _ _ h hdone => h.upsert hnamed hdone, fun now tables => upsert_fails tables d now⟩

theorem upsert_all_sound {ds : List Declaration}
    (hnamed : ∀ d ∈ ds, Text.blank d.repository = false) : (upsertAll ds).IsSound where
  keeps _ _ _ _ h hdone :=
    Tables.upsert_each_induction Tables.Sound
      (fun d hd _ _ _ hsound hnext => hsound.upsert (hnamed d hd) hnext) h
      (Tables.upsert_all_ok hdone).2
  fails now tables := upsert_all_fails tables ds now

theorem update_sound (repository : String) (id : Int) (c : Change) :
    (update repository id c).IsSound := by
  refine ⟨fun _ _ _ _ h hdone => h.update hdone, fun now tables => ?_⟩
  show FailsForGood (tables.update repository id c now)
  fun_cases Tables.update <;> first | exact fails_for_good_ok _ | exact fails_for_good_error rfl

theorem delete_file_sound (file repository : String) : (deleteFile file repository).IsSound :=
  ⟨fun _ _ _ _ h hdone => h.delete hdone, fun _ _ => fails_for_good_ok _⟩

theorem delete_repository_sound (repository : String) : (deleteRepository repository).IsSound :=
  ⟨fun _ _ _ _ h hdone => h.delete hdone, fun _ _ => fails_for_good_ok _⟩

theorem record_reply_sound {repository : String} (hnamed : Text.blank repository = false)
    (comment pullRequest time : Int) :
    (recordReply comment pullRequest repository time).IsSound where
  keeps _ _ _ _ h hdone := h.record_reply hnamed hdone
  fails _ tables := by
    change FailsForGood (tables.recordReply _)
    rw [Tables.recordReply]
    split <;> exact fails_for_good_ok _

theorem delete_replies_before_sound (cutoff : Int) : (deleteRepliesBefore cutoff).IsSound :=
  ⟨fun _ _ _ _ h hdone => h.delete_replies hdone, fun _ _ => fails_for_good_ok _⟩

end Statement

section Calls

variable {α : Type} {store : Store} {R : Tables → Tables → Prop} {statement : Statement α}

theorem transacts_execute (writes : Bool) (h : statement.IsSound) :
    Session.Transacts (Disk.execute writes statement) statement.run where
  performs _ _ hlive := Disk.performs_execute writes statement hlive
  preserves now tables hsound := by
    rw [Statement.run]
    split
    · next a changed hdone => exact ⟨changed, rfl, h.keeps now tables a changed hsound hdone⟩
    · exact ⟨tables, rfl, hsound⟩
  atomic now tables e herror := by
    rw [Statement.run] at herror ⊢
    split at herror
    · cases herror
    · next cause hfailed =>
      cases herror
      exact ⟨rfl, h.fails now tables e hfailed⟩

theorem transacts_write (h : statement.IsSound) :
    Session.Transacts (Disk.write statement) statement.run := transacts_execute true h

theorem statement_run (query : Query α) :
    query.statement.run = fun _ contents => (query.run contents, contents) := by
  funext _ contents
  cases contents with
  | catalog => rfl
  | tables tables =>
    simp only [Statement.run, Query.statement, Query.run]
    cases query.onTables tables <;> rfl

theorem statement_sound {query : Query α} (h : ∀ tables, FailsForGood (query.onTables tables)) :
    query.statement.IsSound :=
  ⟨fun _ _ _ _ hsound hdone => Disk.statement_keeps hdone ▸ hsound, fun _ tables => (h tables).map⟩

theorem transacts_read {query : Query α} (h : ∀ tables, FailsForGood (query.onTables tables)) :
    Session.Transacts (Disk.read query) fun _ contents => (query.run contents, contents) :=
  statement_run query ▸ transacts_execute false (statement_sound h)

/-- An index whose tables are sound, whose database has no damage, and ahead of which lies nothing
that loses it. -/
def IsCalm (store : Store) : Prop := store.session.IsCalm store.path

/-- Whether the database of an index has no damage. -/
def IsIntact (store : Store) : Prop :=
  ∀ place, placeOf? store.path store.session.world.tree = some place →
    store.session.world.IsIntact place

instance (database : Database) : Decidable database.IsIntact :=
  decidable_of_iff (database.damaged = false ∧ database.torn = false ∧
      ∀ e ∈ database.fault, e.classify ≠ .corruption)
    ⟨fun ⟨damaged, torn, fault⟩ => ⟨damaged, torn, fault⟩, fun h => ⟨h.damaged, h.torn, h.fault⟩⟩

instance (disk : Disk) (place : Place) : Decidable (disk.IsIntact place) :=
  inferInstanceAs (Decidable (∃ database ∈ disk.standing? place, database.IsIntact))

instance (store : Store) : Decidable store.IsIntact :=
  inferInstanceAs (Decidable (∀ place ∈ placeOf? store.path store.session.world.tree,
    store.session.world.IsIntact place))

theorem Reachable.isCalm (h : store.Reachable) (hintact : store.IsIntact)
    (hincidents : ∀ incident ∈ store.session.world.incidents, incident.Spares store.path) :
    store.IsCalm :=
  ⟨h.keeps, hintact, hincidents⟩

theorem IsCalm.sound (h : store.IsCalm) : store.tables.Sound := Session.Keeps.tables_sound h.keeps

/-- A calm index after a call, with tables that stand in a relation to those before. -/
structure Passes (R : Tables → Tables → Prop) (store next : Store) : Prop where
  path : next.path = store.path
  calm : next.IsCalm
  tables : R store.tables next.tables

theorem Passes.refl (h : store.IsCalm) (hR : R store.tables store.tables) : store.Passes R store :=
  ⟨rfl, h, hR⟩

theorem run_eq_ok {now : Int} {tables changed : Tables} {a : α}
    (h : statement.run now (.tables tables) = (.ok a, .tables changed)) :
    statement.onTables now tables = .ok (a, changed) := by
  rw [Statement.run] at h
  split at h <;> cases h
  assumption

/-- A statement of a calm index has its effect if it succeeds, and none if it fails. -/
theorem IsCalm.write_result (h : store.IsCalm) (hstatement : statement.IsSound) (name : String) :
    store.Passes (fun before after => (∃ now a, (store.write name statement).1 = .ok a ∧
        statement.onTables now before = .ok (a, after)) ∨
      (∃ e, (store.write name statement).1 = .error e) ∧ after = before)
      (store.write name statement).2 := by
  have hends {result : Except Error α} {next : DiskSession}
      (hends : Session.Ends store.path statement.run store.session result next) :
      store.Passes (fun before after => (∃ now a, result = .ok a ∧
          statement.onTables now before = .ok (a, after)) ∨
        (∃ e, result = .error e) ∧ after = before) { store with session := next } := by
    cases hends with
    | failed hstays => exact ⟨rfl, hstays.calm, .inr ⟨⟨_, rfl⟩, hstays.tables⟩⟩
    | done now hcalm heffect => exact ⟨rfl, hcalm, .inl ⟨now, _, rfl, run_eq_ok heffect⟩⟩
  exact hends (Session.IsCalm.run h (transacts_write hstatement) (store.operation name))

/-- A statement that writes has its effect on the tables, or none. -/
theorem IsCalm.write (h : store.IsCalm) (hstatement : statement.IsSound)
    (hrefl : R store.tables store.tables)
    (hR : ∀ now a changed, statement.onTables now store.tables = .ok (a, changed) →
      R store.tables changed) (name : String) : store.Passes R (store.write name statement).2 := by
  have hpasses := h.write_result hstatement name
  refine ⟨hpasses.path, hpasses.calm, ?_⟩
  rcases hpasses.tables with ⟨now, a, _, hdone⟩ | ⟨_, htables⟩
  · exact hR now a _ hdone
  · rw [htables]
    exact hrefl

/-- A query leaves the tables alone and answers from them. -/
theorem IsCalm.read {query : Query α} (h : store.IsCalm)
    (hquery : ∀ tables, FailsForGood (query.onTables tables)) :
    store.Passes Eq (store.read query).2 ∧
      ∀ a, (store.read query).1 = .ok a → query.onTables store.tables = .ok a := by
  have hends {result : Except Error α} {next : DiskSession}
      (hends : Session.Ends store.path (fun _ contents => (query.run contents, contents))
        store.session result next) :
      store.Passes Eq { store with session := next } ∧
        ∀ a, result = .ok a → query.onTables store.tables = .ok a := by
    cases hends with
    | failed hstays => exact ⟨⟨rfl, hstays.calm, hstays.tables.symm⟩, fun _ herror => nomatch herror⟩
    | done now hcalm heffect =>
      obtain ⟨hanswer, htables⟩ := Prod.mk.inj heffect
      refine ⟨⟨rfl, hcalm, Contents.tables.inj htables⟩, fun a heq => ?_⟩
      cases heq
      exact hanswer
  exact hends (Session.IsCalm.read h (transacts_read hquery))

theorem IsCalm.within {operation : Store → Except Error α × Store} {repository : String}
    (h : store.IsCalm) (hrefl : R store.tables store.tables)
    (hoperation : Text.blank repository = false → store.Passes R (operation store).2) :
    store.Passes R (store.within repository operation).2 :=
  within_cases (store.Passes R) (.refl h hrefl) hoperation

theorem inquire_query (repository : String) (inquiry : Inquiry) :
    ∃ (α : Type) (query : Query α) (f : α → Answer),
      (∀ tables, FailsForGood (query.onTables tables)) ∧
      (∀ tables, inquiry.answer repository tables = f <$> query.onTables tables) ∧
      ∀ store : Store, store.inquire repository inquiry =
        ((store.within repository fun store => store.read query).1.map f,
          (store.within repository fun store => store.read query).2) := by
  have hreply (comment pullRequest : Int) (tables : Tables) :
      FailsForGood ((Query.findReply comment pullRequest repository).onTables tables) :=
    find_reply_fails tables comment pullRequest repository
  cases inquiry with
  | get id => exact ⟨_, .find repository id, _, (find_fails · _ _), fun _ => rfl, fun _ => rfl⟩
  | search query kind limit =>
    exact ⟨_, .search repository query kind limit, _, (search_fails · _ _ _ _), fun _ => rfl,
      fun _ => rfl⟩
  | inFile file =>
    exact ⟨_, .inFile file repository, _, (listed_fails · _), fun _ => rfl, fun _ => rfl⟩
  | children id =>
    exact ⟨_, .childrenOf repository id, _, (listed_fails · _), fun _ => rfl, fun _ => rfl⟩
  | count =>
    exact ⟨_, .count repository, _, fun _ => fails_for_good_ok _, fun _ => rfl, fun _ => rfl⟩
  | getReply comment pullRequest =>
    exact ⟨_, .findReply comment pullRequest repository, _, hreply _ _, fun _ => rfl, fun _ => rfl⟩
  | hasReplied comment pullRequest =>
    refine ⟨_, .findReply comment pullRequest repository, fun found => .flag found.isSome,
      hreply _ _, fun _ => rfl, fun store => ?_⟩
    rw [Store.inquire, hasReplied, getReply]
    rcases store.within repository fun store =>
      store.read (.findReply comment pullRequest repository) with ⟨_ | _, _⟩ <;> rfl

/-- Questions leave the tables alone and are answered from them. -/
theorem IsCalm.inquire (h : store.IsCalm) (repository : String) (inquiry : Inquiry) :
    store.Passes Eq (store.inquire repository inquiry).2 ∧
      ∀ answer, (store.inquire repository inquiry).1 = .ok answer →
        inquiry.answer repository store.tables = .ok answer := by
  obtain ⟨α, query, f, hquery, hanswer, hinquire⟩ := inquire_query repository inquiry
  rw [hinquire, hanswer, Store.within]
  split
  · refine ⟨.refl h rfl, fun answer heq => ?_⟩
    cases heq
  · obtain ⟨hpasses, hread⟩ := h.read hquery
    refine ⟨hpasses, fun answer heq => ?_⟩
    obtain ⟨a, hresult, rfl⟩ := map_eq_ok heq
    rw [hread a hresult]
    rfl

end Calls

end CodeAtlas.Store
