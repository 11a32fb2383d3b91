import CodeAtlas.Proofs.Store.Bulk
import CodeAtlas.Proofs.Store.Working

/-!
# Damaged indices and new ones

A write to an index whose file is damaged moves the file aside and is made on an empty one instead.
So it gives what it gives on an index that was just opened where there is no file, it leaves the
same tables, and the damaged file is kept; reads fail instead and leave the file where it is
(`damaged_serves_as_new`).

Calls are taken apart into statements first (`write_statement`, `read_query`). What is left to be
shown is about single statements: that a damaged index agrees with a new one on each of them
(`IsDamaged.agrees`), and so do the two indices after it (`Mirrors.agrees`).
-/

namespace CodeAtlas.Store

open Files (FileTree Location)
open CodeAtlas.Symbol (Declaration)

/-! ## Calls as statements -/

inductive Response where
  | id (id : Int)
  | count (n : Nat)
  | flag (value : Bool)
  | answer (answer : Answer)
  | done
deriving DecidableEq

def respond (store : Store) : Call → Except Error Response
  | .insert d => (store.insert d).1.map .id
  | .insertMany ds => (store.insertMany ds).1.map .count
  | .change repository id c => (store.change repository id c).1.map .flag
  | .deleteFile file repository => (store.deleteFile file repository).1.map .count
  | .deleteRepository repository => (store.deleteRepository repository).1.map .count
  | .recordReply comment pullRequest repository =>
    (store.recordReply comment pullRequest repository).1.map .flag
  | .recordReplyAt comment pullRequest repository time =>
    (store.recordReplyAt comment pullRequest repository time).1.map .flag
  | .cleanupReplies age => (store.cleanupReplies age).1.map .count
  | .inquire repository inquiry => (store.inquire repository inquiry).1.map .answer
  | .isHealthy => .ok (.flag store.isHealthy.1)
  | .reset => store.reset.1.map fun () => .done

def Call.isWrite : Call → Bool
  | .insert d => !Text.blank d.repository
  | .insertMany ds => !ds.isEmpty && ds.all fun d => !Text.blank d.repository
  | .change repository _ c => !Text.blank repository && !c.isEmpty
  | .deleteFile _ repository | .deleteRepository repository | .recordReply _ _ repository
  | .recordReplyAt _ _ repository _ => !Text.blank repository
  | .cleanupReplies _ => true
  | .inquire _ _ | .isHealthy | .reset => false

/-- Whether a call reads, and says where. A change that changes nothing is one that does. -/
def Call.isRead : Call → Bool
  | .inquire repository _ => !Text.blank repository
  | .change repository _ c => !Text.blank repository && c.isEmpty
  | _ => false

section Calls

variable {α : Type} {store fresh : Store} {call : Call}

theorem within_named {repository : String} {operation : Store → Except Error α × Store}
    (h : (!Text.blank repository) = true) :
    store.within repository operation = operation store := by
  rw [Store.within, if_neg (by simpa using h)]

theorem write_statement (hcall : call.isWrite = true) (now : Int) :
    (∃ ds : List Declaration, call = .insertMany ds ∧ ds ≠ [] ∧
      ∀ d ∈ ds, Text.blank d.repository = false) ∨
    ∃ (α : Type) (name : String) (statement : Statement α) (f : α → Response),
      statement.IsSound ∧ ∀ store : Store, store.session.world.now = now →
        store.respond call = (store.write name statement).1.map f ∧
          store.perform call = (store.write name statement).2 := by
  cases call with
  | insert d =>
    have hnamed : Text.blank d.repository = false := by simpa [Call.isWrite] using hcall
    refine .inr ⟨_, "insert_symbol", .upsert d, .id, Statement.upsert_sound hnamed,
      fun store _ => ?_⟩
    rw [respond, perform, Store.insert, within_named hcall]
    exact ⟨rfl, rfl⟩
  | insertMany ds =>
    simp only [Call.isWrite, Bool.and_eq_true, Bool.not_eq_true', List.isEmpty_eq_false_iff,
      List.all_eq_true] at hcall
    exact .inl ⟨ds, rfl, hcall.1, hcall.2⟩
  | change repository id c =>
    obtain ⟨hnamed, hchange⟩ := Bool.and_eq_true_iff.mp hcall
    refine .inr ⟨_, "update_symbol", .update repository id c, .flag,
      Statement.update_sound repository id c, fun store _ => ?_⟩
    rw [respond, perform, Store.change, within_named hnamed, if_neg (by simpa using hchange)]
    exact ⟨rfl, rfl⟩
  | deleteFile file repository =>
    refine .inr ⟨_, "delete_symbols_by_file", .deleteFile file repository, .count,
      Statement.delete_file_sound file repository, fun store _ => ?_⟩
    rw [respond, perform, Store.deleteFile, within_named hcall]
    exact ⟨rfl, rfl⟩
  | deleteRepository repository =>
    refine .inr ⟨_, "delete_symbols_by_repository", .deleteRepository repository, .count,
      Statement.delete_repository_sound repository, fun store _ => ?_⟩
    rw [respond, perform, Store.deleteRepository, within_named hcall]
    exact ⟨rfl, rfl⟩
  | recordReply comment pullRequest repository =>
    have hnamed : Text.blank repository = false := by simpa [Call.isWrite] using hcall
    refine .inr ⟨_, "record_reply", .recordReply comment pullRequest repository now, .flag,
      Statement.record_reply_sound hnamed comment pullRequest now, fun store hnow => ?_⟩
    rw [respond, perform, Store.recordReply, within_named hcall, hnow]
    exact ⟨rfl, rfl⟩
  | recordReplyAt comment pullRequest repository time =>
    have hnamed : Text.blank repository = false := by simpa [Call.isWrite] using hcall
    refine .inr ⟨_, "record_reply", .recordReply comment pullRequest repository time.millis,
      .flag, Statement.record_reply_sound hnamed comment pullRequest time.millis,
      fun store _ => ?_⟩
    rw [respond, perform, Store.recordReplyAt, within_named hcall]
    exact ⟨rfl, rfl⟩
  | cleanupReplies age =>
    refine .inr ⟨_, "cleanup_old_replies", .deleteRepliesBefore (cutoff now age), .count,
      Statement.delete_replies_before_sound _, fun store hnow => ?_⟩
    rw [respond, perform, Store.cleanupReplies, Store.expireReplies, hnow]
    exact ⟨rfl, rfl⟩
  | inquire | isHealthy | reset => cases hcall

theorem read_query (hcall : call.isRead = true) :
    ∃ (α : Type) (query : Query α) (f : α → Response),
      (∀ tables, FailsForGood (query.onTables tables)) ∧
      ∀ store : Store, store.respond call = (store.read query).1.map f ∧
        store.perform call = (store.read query).2 := by
  cases call with
  | inquire repository inquiry =>
    obtain ⟨α, query, f, hquery, _, hinquire⟩ := inquire_query repository inquiry
    refine ⟨α, query, fun a => .answer (f a), hquery, fun store => ?_⟩
    rw [respond, perform, hinquire, within_named hcall]
    rcases store.read query with ⟨_ | _, _⟩ <;> exact ⟨rfl, rfl⟩
  | change repository id c =>
    obtain ⟨hnamed, hchange⟩ := Bool.and_eq_true_iff.mp hcall
    refine ⟨_, .find repository id, fun found => .flag found.isSome,
      fun tables => find_fails tables repository id, fun store => ?_⟩
    rw [respond, perform, Store.change, within_named hnamed, if_pos hchange, Store.get,
      within_named hnamed]
    rcases store.read (.find repository id) with ⟨_ | _, _⟩ <;> exact ⟨rfl, rfl⟩
  | _ => cases hcall

/-! ## Agreement on writes -/

/-- Two indices on which every statement gives the same, and that are related after it. -/
structure Agrees (R : Store → Store → Prop) (store fresh : Store) : Prop where
  now : store.session.world.now = fresh.session.world.now
  size : store.options.batchSize = fresh.options.batchSize
  write : ∀ {α : Type} {statement : Statement α}, statement.IsFinal → ∀ name,
    (store.write name statement).1 = (fresh.write name statement).1 ∧
      R (store.write name statement).2 (fresh.write name statement).2

variable {R : Store → Store → Prop}

/-- Indices that agree on the first batch agree on all, if they do so after it. -/
theorem Agrees.insert_batches_cons (h : Agrees R store fresh) {batches : List (List Declaration)}
    (hrest : ∀ next last, R next last →
      (next.insertBatches batches).1 = (last.insertBatches batches).1 ∧
        R (next.insertBatches batches).2 (last.insertBatches batches).2)
    (batch : List Declaration) :
    (store.insertBatches (batch :: batches)).1 = (fresh.insertBatches (batch :: batches)).1 ∧
      R (store.insertBatches (batch :: batches)).2 (fresh.insertBatches (batch :: batches)).2 := by
  have hfinal : (Statement.upsertAll batch).IsFinal :=
    fun now tables => upsert_all_fails tables batch now
  obtain ⟨hresult, hrelated⟩ := h.write hfinal "insert_symbols"
  cases hwrite : store.write "insert_symbols" (.upsertAll batch) with
  | mk result next =>
    cases hfresh : fresh.write "insert_symbols" (.upsertAll batch) with
    | mk other last =>
      rw [hwrite, hfresh] at hresult hrelated
      cases hresult
      cases result with
      | error e =>
        rw [insertBatches, insertBatches, hwrite, hfresh]
        exact ⟨rfl, hrelated⟩
      | ok n =>
        rw [Store.insert_batches_cons hwrite, Store.insert_batches_cons hfresh]
        obtain ⟨hmore, hafter⟩ := hrest next last hrelated
        exact ⟨congrArg (Except.map (n + ·)) hmore, hafter⟩

theorem insert_batches_related (hR : ∀ store fresh, R store fresh → Agrees R store fresh)
    (h : R store fresh) (batches : List (List Declaration)) :
    (store.insertBatches batches).1 = (fresh.insertBatches batches).1 ∧
      R (store.insertBatches batches).2 (fresh.insertBatches batches).2 := by
  induction batches generalizing store fresh with
  | nil => exact ⟨rfl, h⟩
  | cons batch batches ih =>
    exact (hR store fresh h).insert_batches_cons (fun _ _ hrelated => ih hrelated) batch

/-- Indices that agree, and go on to do so, give the same in every call that writes. -/
theorem Agrees.perform (h : Agrees R store fresh)
    (hR : ∀ store fresh, R store fresh → Agrees R store fresh) (hcall : call.isWrite = true) :
    store.respond call = fresh.respond call ∧ R (store.perform call) (fresh.perform call) := by
  rcases write_statement hcall store.session.world.now with
    ⟨ds, rfl, hnone, hnamed⟩ | ⟨α, name, statement, f, hsound, hcalls⟩
  · have hblank : (ds.any fun d => Text.blank d.repository) = false :=
      List.any_eq_false.mpr fun d hd => by rw [hnamed d hd]; exact nofun
    obtain ⟨first, rest, rfl⟩ := List.exists_cons_of_ne_nil hnone
    -- there is a first batch, and the damage is met with there
    obtain ⟨hresult, hrelated⟩ := h.insert_batches_cons
      (fun _ _ hrelated => insert_batches_related hR hrelated _) _
    rw [respond, respond, Store.perform, Store.perform, insertMany, insertMany, hblank, ← h.size]
    exact ⟨congrArg (Except.map Response.count) hresult, hrelated⟩
  · obtain ⟨hrespond, hperform⟩ := hcalls store rfl
    obtain ⟨hfresh, hlast⟩ := hcalls fresh h.now.symm
    obtain ⟨hresult, hrelated⟩ := h.write hsound.fails name
    rw [hrespond, hfresh, hperform, hlast, hresult]
    exact ⟨rfl, hrelated⟩

/-! ## Reads in vain -/

/-- An index that answers no query, and satisfies a condition after it. -/
structure Refuses (Q : Store → Prop) (store : Store) : Prop where
  read : ∀ {α : Type} {query : Query α}, (∀ tables, FailsForGood (query.onTables tables)) →
    (∃ e, (store.read query).1 = .error (.database e)) ∧ Q (store.read query).2

variable {Q : Store → Prop}

theorem Refuses.perform (h : Refuses Q store) (hcall : call.isRead = true) :
    (∃ e, store.respond call = .error (.database e)) ∧ Q (store.perform call) := by
  obtain ⟨α, query, f, hquery, hcalls⟩ := read_query hcall
  obtain ⟨hrespond, hperform⟩ := hcalls store
  obtain ⟨⟨e, hresult⟩, hafter⟩ := h.read hquery
  rw [hrespond, hperform, hresult]
  exact ⟨⟨e, rfl⟩, hafter⟩

/-- What refuses to answer, and goes on to do so, has the condition after all reads. -/
theorem reads_refused (hQ : ∀ store, Q store → Refuses Q store) (h : Q store) {reads : List Call}
    (hreads : ∀ read ∈ reads, read.isRead = true) : Q (reads.foldl Store.perform store) := by
  induction reads generalizing store with
  | nil => exact h
  | cons read reads ih =>
    exact ih ((hQ store h).perform (hreads read (.head _))).2
      fun other hother => hreads other (.tail _ hother)

end Calls

/-! ## Damaged indices -/

/-- An index on which every statement meets with damage, and with nothing else. -/
structure IsDamaged (store : Store) : Prop where
  write : ∀ {α : Type} (statement : Statement α), ∃ e : DatabaseError,
    (store.session.attempt (diskAccess store.path) (Disk.tryUse (Disk.write statement))).1 =
      .error e ∧ e.classify = .corruption
  read : ∀ {α : Type} (query : Query α), ∃ e : DatabaseError,
    (store.session.attempt (diskAccess store.path) (Disk.tryUse (Disk.read query))).1 =
      .error e ∧ e.classify = .corruption
  incidents : store.session.world.incidents = []

/-- An index whose file can be replaced once a statement has failed on it. -/
structure IsReplaceable (store : Store) : Prop where
  path : IsFilePath store.path
  unlinked : IsUnlinked store.path store.session.world.tree
  made : (Operation.recover (diskAccess store.path)
    (store.session.attempt (diskAccess store.path)
      (Disk.tryUse (Disk.write .nothing))).2).1 = .ok ()

/-- An index without a connection, whose file is broken. -/
def IsStranded (path : String) (location : Location) (content : Content) (now : Int)
    (store : Store) : Prop :=
  store.path = path ∧ store.session.IsStranded path location content now

/-- Two indices at work on the same tables. Beside the file of the first one another is kept. -/
structure Mirrors (path : String) (content : Content) (store fresh : Store) : Prop where
  path_eq : store.path = path
  size : store.options.batchSize = fresh.options.batchSize
  work : ∃ location other now tables, store.session.IsAtWork path location now tables ∧
    store.session.HasBackup path location content ∧
    fresh.session.IsAtWork fresh.path other now tables

section Damage

variable {α : Type} {store fresh : Store} {path : String} {location : Location}
  {content : Content} {now : Int} {tables : Tables}

/-- A connection to a file whose pages are overwritten meets with the damage at once. -/
theorem Disk.contents_of_damaged {disk : Disk} {database : Database} (hhold : disk.hold = none)
    (hcontent : disk.content? location = some (.database database))
    (hdamaged : database.damaged = true) (subject : Subject) (writes : Bool) :
    disk.contentsOf (.file location) {} subject writes = (.error damagedFailure, disk) := by
  rw [Disk.contentsOf.eq_def]
  dsimp only
  rw [Disk.database_of_logs hhold hcontent]
  dsimp only
  rw [if_pos (.inl hdamaged)]

/-- An index whose file was overwritten while it was at work is damaged. -/
theorem is_damaged_of_database {database : Database} {prepared : List Form}
    (hconnection : store.session.connection = some (.to (.file location) {} prepared))
    (hcontent : store.session.world.content? location = some (.database database))
    (hdamaged : database.damaged = true) (hhold : store.session.world.hold = none)
    (hincidents : store.session.world.incidents = []) : store.IsDamaged := by
  have hattempt {α : Type} {use : Use α}
      (huse : (use (.to (.file location) {} prepared) store.session.world).1 =
        .error damagedFailure) :
      (store.session.attempt (diskAccess store.path) (Disk.tryUse use)).1 =
        .error damagedFailure := by
    rw [Session.attempt, hconnection]
    dsimp only
    rw [Disk.tryUse, Disk.meet, hincidents]
    exact huse
  have hsaid (isPrepared : Bool) : reported isPrepared damagedFailure = damagedFailure := by
    cases isPrepared <;> rfl
  have hdamages {α : Type} (writes : Bool) (statement : Statement α) :
      (store.session.world.execute writes statement (.to (.file location) {} prepared)).1 =
        .error damagedFailure := by
    rw [Disk.execute.eq_def]
    dsimp only
    rw [Disk.contents_of_damaged hhold hcontent hdamaged]
    exact congrArg Except.error (hsaid _)
  refine ⟨fun statement => ⟨_, hattempt ?_, rfl⟩, fun query => ⟨_, hattempt ?_, rfl⟩, hincidents⟩
  · exact hdamages true statement
  · exact hdamages false query.statement

theorem write_at_work {statement : Statement α}
    (h : store.session.IsAtWork store.path location now tables) (hfinal : statement.IsFinal)
    (name : String) :
    (store.write name statement).1 = (statement.apply now tables).1.mapError .database ∧
      (store.write name statement).2.session.IsAtWork store.path location now
        (statement.apply now tables).2 ∧
      store.session.world.Touches (location :: besides location)
        (store.write name statement).2.session.world := by
  obtain ⟨_, hwork, htouches⟩ := h.attempt statement
  rw [Store.write, Operation.run, h.tries hfinal]
  exact ⟨rfl, hwork, htouches⟩

theorem Mirrors.agrees (h : Mirrors path content store fresh) :
    Agrees (Mirrors path content) store fresh := by
  obtain ⟨rfl, hsize, location, other, now, tables, hwork, hbackup, hfresh⟩ := h
  refine ⟨hwork.now.trans hfresh.now.symm, hsize, fun hfinal name => ?_⟩
  obtain ⟨hresult, hafter, htouches⟩ := write_at_work hwork hfinal name
  obtain ⟨hsame, hlast, _⟩ := write_at_work hfresh hfinal name
  exact ⟨hresult.trans hsame.symm, rfl, hsize, location, other, now, _, hafter,
    hbackup.touches htouches, hlast⟩

/-- What every use comes to that meets with the damage: the file is looked at, and the index is
stranded when its connection is closed. -/
theorem IsDamaged.strands (h : store.IsDamaged) (hkeeps : store.Keeps fun _ => Tables.Sound)
    (hpath : IsFilePath store.path) (hunlinked : IsUnlinked store.path store.session.world.tree)
    (hfile : store.close.tree.read store.path = .ok content) :
    ∃ location, ∀ {α : Type} {writes : Bool} {e : DatabaseError}
      {use : Use α},
      Session.Stops writes use →
      (store.session.attempt (diskAccess store.path) (Disk.tryUse use)).1 = .error e →
      e.classify = .corruption →
      (store.session.attempt (diskAccess store.path) (Disk.tryUse use)).2 =
          store.session.look store.path writes ∧
        ((store.session.look store.path writes).forget (diskAccess store.path)).IsStranded
          store.path location content store.session.world.now := by
  obtain ⟨e, herror, hclass⟩ := h.write .nothing
  obtain ⟨location, hplace, hbroken⟩ := Session.Keeps.broken hkeeps h.incidents herror hclass
  exact ⟨location, fun huse herror hclass =>
    Session.Keeps.strands hkeeps hpath h.incidents hunlinked hplace hbroken hfile huse herror
      hclass⟩

/-- A damaged index agrees with one at work on empty tables: the statement fails, the file is
replaced, and the statement is made again. -/
theorem IsDamaged.agrees {other : Location} (h : store.IsDamaged)
    (hkeeps : store.Keeps fun _ => Tables.Sound) (hreplaceable : store.IsReplaceable)
    (hfile : store.close.tree.read store.path = .ok content)
    (hsize : store.options.batchSize = fresh.options.batchSize)
    (hfresh : fresh.session.IsAtWork fresh.path other store.session.world.now {}) :
    Agrees (Mirrors store.path content) store fresh := by
  obtain ⟨hpath, hunlinked, hmade⟩ := hreplaceable
  obtain ⟨location, hstrands⟩ := h.strands hkeeps hpath hunlinked hfile
  refine ⟨hfresh.now.symm, hsize, fun {α statement} hfinal name => ?_⟩
  have hnothing : (store.session.attempt (diskAccess store.path)
      (Disk.tryUse (Disk.write .nothing))).2 = store.session.look store.path true := by
    obtain ⟨e, herror, hclass⟩ := h.write .nothing
    exact (hstrands (Session.stops_write Session.nothing_sound.fails) herror hclass).1
  rw [hnothing] at hmade
  obtain ⟨e, herror, hclass⟩ := h.write statement
  obtain ⟨hlook, hstranded⟩ := hstrands (Session.stops_write hfinal) herror hclass
  have hrun : (store.operation name).run (diskAccess store.path)
      (Disk.tryUse (Disk.write statement)) store.session =
        (store.operation name).restart (diskAccess store.path)
          (Disk.tryUse (Disk.write statement)) ((store.operation name).limit - 1) e
          (store.session.look store.path true) := by
    rw [Operation.run, Operation.tries.eq_def]
    dsimp only
    rw [← Prod.eta (store.session.attempt _ _), herror, hlook]
    dsimp only
    rw [hclass]
  obtain ⟨next, hrestart, hwork, hbackup⟩ := hstranded.restart hpath hmade hfinal
    (store.operation name) ((store.operation name).limit - 1) e
  obtain ⟨hsame, hlast, _⟩ := write_at_work hfresh hfinal name
  rw [hsame, Store.write, hrun, hrestart]
  exact ⟨rfl, rfl, hsize, location, other, _, _, hwork, hbackup, hlast⟩

theorem IsStranded.refuses (hpath : IsFilePath path)
    (h : store.IsStranded path location content now) :
    Refuses (IsStranded path location content now) store := by
  obtain ⟨rfl, hstranded⟩ := h
  refine ⟨fun {α query} _ => ?_⟩
  obtain ⟨hresult, hafter⟩ := hstranded.read hpath (Disk.read query)
  exact ⟨hresult, rfl, hafter⟩

/-- A damaged index answers no query, and is stranded after it. -/
theorem IsDamaged.refuses (h : store.IsDamaged) (hkeeps : store.Keeps fun _ => Tables.Sound)
    (hpath : IsFilePath store.path) (hunlinked : IsUnlinked store.path store.session.world.tree)
    (hfile : store.close.tree.read store.path = .ok content) :
    ∃ location, Refuses
      (IsStranded store.path location content store.session.world.now) store := by
  obtain ⟨location, hstrands⟩ := h.strands hkeeps hpath hunlinked hfile
  refine ⟨location, ⟨fun {α query} hquery => ?_⟩⟩
  obtain ⟨e, herror, hclass⟩ := h.read query
  obtain ⟨hlook, hstranded⟩ := hstrands (Session.stops_read hquery) herror hclass
  have hread : store.session.read (diskAccess store.path) (Disk.tryUse (Disk.read query)) =
      (.error (.database e),
        (store.session.look store.path false).forget (diskAccess store.path)) := by
    rw [Session.read, ← Prod.eta (store.session.attempt _ _), herror, hlook]
    dsimp only
    rw [hclass, if_neg (by decide)]
  rw [Store.read, hread]
  exact ⟨⟨e, rfl⟩, rfl, hstranded⟩

theorem IsStranded.file (h : store.IsStranded path location content now) :
    store.close.tree.read path = .ok content := by
  obtain ⟨rfl, hstranded⟩ := h
  rw [Store.close, Store.disconnect]
  dsimp only
  rw [hstranded.forget, FileTree.read, hstranded.found]

/-- An index whose file is damaged and can be replaced is as good as new for those who write: a call
gives what it gives on an index that was just opened on a bare disk, and leaves the same tables,
while the damaged file is kept. For those who only read it is of no use: every call fails, and the
file stays as it is. -/
theorem damaged_serves_as_new {disk : Disk} (hkeeps : store.Keeps fun _ => Tables.Sound)
    (hdamaged : store.IsDamaged) (hreplaceable : store.IsReplaceable)
    (hfile : store.close.tree.read store.path = .ok content) (hpath : IsFilePath path)
    (hbare : disk.IsBare) (hnow : disk.now = store.session.world.now)
    (hopen : (open_ path store.options disk).1 = .ok fresh) :
    (∀ call : Call, call.isWrite = true →
      store.respond call = fresh.respond call ∧
        (store.perform call).tables = (fresh.perform call).tables ∧
        (store.perform call).session.world.tree.read (backupPath store.path) = .ok content) ∧
    ∀ reads : List Call, (∀ read ∈ reads, read.isRead = true) →
      (∀ call : Call, call.isRead = true →
        ∃ e, (reads.foldl Store.perform store).respond call = .error (.database e)) ∧
      (reads.foldl Store.perform store).close.tree.read store.path = .ok content := by
  constructor
  · intro call hcall
    obtain ⟨rfl, hoptions, other, hfresh⟩ := open_at_work hpath hbare hopen
    have hagrees := hdamaged.agrees hkeeps hreplaceable hfile
      (congrArg Options.batchSize hoptions.symm) (hnow ▸ hfresh)
    obtain ⟨hresponse, hmirrors⟩ := hagrees.perform (fun _ _ => Mirrors.agrees) hcall
    obtain ⟨hsame, _, location, _, _, _, hwork, ⟨_, _, hbackup⟩, hlast⟩ := hmirrors
    refine ⟨hresponse, ?_, ?_⟩
    · rw [Store.tables, Store.tables, hsame]
      exact hwork.tables_eq.trans hlast.tables_eq.symm
    · rw [FileTree.read, hbackup]
  · intro reads hreads
    obtain ⟨location, hrefuses⟩ :=
      hdamaged.refuses hkeeps hreplaceable.path hreplaceable.unlinked hfile
    have hagain (next : Store)
        (h : next.IsStranded store.path location content store.session.world.now) :=
      h.refuses hreplaceable.path
    cases reads with
    | nil => exact ⟨fun call hcall => (hrefuses.perform hcall).1, hfile⟩
    | cons read reads =>
      have hstranded := reads_refused hagain (hrefuses.perform (hreads read (.head _))).2
        fun other hother => hreads other (.tail _ hother)
      exact ⟨fun call hcall => ((hagain _ hstranded).perform hcall).1, hstranded.file⟩

end Damage

/-- An index with one declaration, whose file is damaged then. -/
def damagedStore : Store :=
  sampleStore.run [.call (.insert (sampleDeclaration "r" 1 none)), .damage]

def damagedDatabase : Database :=
  { contents := .tables { symbols := [.ofDeclaration 1 (sampleDeclaration "r" 1 none) 0] }
    damaged := true }

/-- A bulk write to the damaged sample begins anew, and so does a write that fails for want of a
parent. After two reads the file is still there. -/
theorem damaged_serves_as_new_sample :
    (damagedStore.respond (.insertMany bulkDeclarations) = .ok (.count 4) ∧
      (damagedStore.perform (.insertMany bulkDeclarations)).tables =
        (sampleStore.perform (.insertMany bulkDeclarations)).tables ∧
      (damagedStore.perform (.insertMany bulkDeclarations)).session.world.tree.read
        "index.db.corrupt" = .ok (.database damagedDatabase)) ∧
    damagedStore.respond (.insert (sampleDeclaration "s" 1 (some 7))) =
      sampleStore.respond (.insert (sampleDeclaration "s" 1 (some 7))) ∧
    (∃ e, ([.inquire "r" .count, .change "r" 1 {}].foldl Store.perform damagedStore).respond
      (.inquire "r" (.get 1)) = .error (.database e)) ∧
    ([.inquire "r" .count, .change "r" 1 {}].foldl Store.perform damagedStore).close.tree.read
      "index.db" = .ok (.database damagedDatabase) := by
  have hreachable : damagedStore.Reachable :=
    ⟨"index.db", { batchSize := 2 }, sampleDisk, sampleStore, _, sample_disk_empty, open_sample,
      rfl⟩
  have hdamaged : damagedStore.IsDamaged :=
    is_damaged_of_database
      (show damagedStore.session.connection = some (.to (.file ["index.db"]) {} [.upsert]) by
        decide +kernel)
      (show damagedStore.session.world.content? ["index.db"] = some (.database damagedDatabase) by
        decide +kernel)
      rfl (by decide +kernel) (by decide +kernel)
  have hreplaceable : damagedStore.IsReplaceable :=
    ⟨by decide +kernel, unlinked_of_entries (by decide +kernel), by decide +kernel⟩
  have hbare : sampleDisk.IsBare := by
    refine ⟨fun location => ?_, rfl, rfl⟩
    cases location <;> rfl
  have hfile : damagedStore.close.tree.read damagedStore.path =
      .ok (.database damagedDatabase) := by decide +kernel
  have hpath : damagedStore.path = "index.db" := by decide +kernel
  have hoptions : damagedStore.options = { batchSize := 2 } := by decide +kernel
  obtain ⟨hwrites, hreads⟩ := damaged_serves_as_new hreachable.keeps hdamaged hreplaceable hfile
    (show IsFilePath "index.db" by decide +kernel) hbare (by decide +kernel)
    (hoptions ▸ open_sample)
  rw [hpath] at hwrites hreads
  obtain ⟨hbulk, htables, hbackup⟩ := hwrites (.insertMany bulkDeclarations) (by decide +kernel)
  obtain ⟨hrefused, hkept⟩ := hreads [.inquire "r" .count, .change "r" 1 {}] (by decide +kernel)
  refine ⟨⟨hbulk.trans (by decide +kernel), htables, hbackup⟩, ?_, ?_, hkept⟩
  · exact (hwrites (.insert (sampleDeclaration "s" 1 (some 7))) (by decide +kernel)).1
  · exact hrefused (.inquire "r" (.get 1)) (by decide +kernel)

end CodeAtlas.Store
