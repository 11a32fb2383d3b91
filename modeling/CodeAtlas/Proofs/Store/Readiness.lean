import CodeAtlas.Proofs.Store.Queries

/-!
# Indices that are ready

An index is ready if nothing keeps its next write from the tables and nothing lies ahead that makes
a use fail (`Session.IsReady`). It stays ready: looking at a file settles what is beside it, and
neither looking nor writing puts anything there (`Disk.IsFree`, `Disk.Tidies`). So a call of a ready
index has the result that its statement has on the tables, at once and with no other failure
(`IsReady.write`, `IsReady.inquire`).
-/

namespace CodeAtlas.Store

open Files (FileTree Location)
open Logging (Event)

/-- A database that may be read and written. -/
structure Database.IsUsable (database : Database) : Prop where
  damaged : database.damaged = false
  torn : database.torn = false
  fault : database.fault = none
  isReadOnly : database.isReadOnly = false

namespace Disk

variable {disk next last : Disk} {location other : Location} {place : Place} {manner : Manner}
  {database : Database} {contents : Contents}

/-! ## What uses leave beside a file -/

/-- A disk with the same database in a file, apart from what is written to it, and with nothing new
anywhere else. -/
structure Tidies (location : Location) (disk next : Disk) : Prop where
  hold : next.hold = disk.hold
  others : ∀ other, other ≠ location →
    next.tree.entry? other = disk.tree.entry? other ∨ next.tree.entry? other = none
  database : ∀ database, disk.content? location = some (.database database) →
    ∃ contents logged, next.content? location = some (.database { database with contents, logged })

namespace Tidies

theorem refl (location : Location) (disk : Disk) : disk.Tidies location disk :=
  ⟨rfl, fun _ _ => .inl rfl, fun database h => ⟨database.contents, database.logged, h⟩⟩

theorem trans (h : disk.Tidies location next) (hlast : next.Tidies location last) :
    disk.Tidies location last := by
  refine ⟨hlast.hold.trans h.hold, fun other hother => ?_, fun database hdatabase => ?_⟩
  · rcases hlast.others other hother with heq | hnone
    · rw [heq]
      exact h.others other hother
    · exact .inr hnone
  · obtain ⟨contents, logged, hnext⟩ := h.database database hdatabase
    obtain ⟨contents, logged, hlast⟩ := hlast.database _ hnext
    exact ⟨contents, logged, hlast⟩

theorem entry {entry : Files.Entry Content} (h : disk.Tidies location next)
    (hother : other ≠ location) (hentry : next.tree.entry? other = some entry) :
    disk.tree.entry? other = some entry := by
  rcases h.others other hother with heq | hnone
  · exact heq ▸ hentry
  · rw [hnone] at hentry
    cases hentry

end Tidies

theorem tidies_erase (h : other ≠ location) : disk.Tidies location (disk.erase other) := by
  refine ⟨rfl, fun found _ => ?_, fun database hdatabase => ?_⟩
  · by_cases hfound : found = other
    · by_cases hroot : other = []
      · subst hfound hroot
        exact .inl rfl
      · subst hfound
        exact .inr (FileTree.entry_erase_self hroot)
    · exact .inl (FileTree.entry_erase_ne hfound)
  · rw [content_erase_ne h.symm]
    exact ⟨database.contents, database.logged, hdatabase⟩

theorem tidies_drop_journal (disk : Disk) (location : Location) :
    disk.Tidies location (disk.dropJournal location) := by
  rw [dropJournal]
  split
  · exact tidies_erase (beside_ne location (by decide))
  · exact .refl location disk

theorem tidies_set {logged : Logged} (h : disk.content? location = some (.database database)) :
    disk.Tidies location
      (disk.set location (.database { database with contents, logged })) := by
  refine ⟨rfl, fun other hother => .inl (FileTree.entry_set_ne hother), fun found hfound => ?_⟩
  rw [h] at hfound
  cases hfound
  exact ⟨contents, logged, content_set_self (ne_root h)⟩

/-- Writing to a database leaves nothing beside its file. -/
theorem tidies_put (h : disk.content? location = some (.database database)) (subject : Subject)
    (contents : Contents) : disk.Tidies location (disk.put (.file location) subject contents) := by
  have hdropped := (content_drop_journal disk location).trans h
  simp only [put, h]
  repeat' split
  · exact .refl location disk
  · exact (tidies_drop_journal disk location).trans (tidies_set hdropped)
  · exact tidies_set h

theorem tidies_meet (location : Location) (disk : Disk) : disk.Tidies location disk.meet.2 := by
  rcases disk.meet_cases with heq | ⟨_, _, _, heq⟩
  · rw [heq]
    exact .refl location disk
  · rw [heq]
    exact ⟨rfl, fun _ _ => .inl rfl, fun database h => ⟨database.contents, database.logged, h⟩⟩

/-! ## Files that are free -/

/-- Whether pending changes beside a file are none. -/
def IsIdle : Files.Entry Content → Prop
  | .directory => False
  | .file content => content.first?.getD 0 = 0
  | .link _ => True

/-- Nothing keeps a connection from the database of a file. -/
structure IsFree (location : Location) (manner : Manner) (disk : Disk) : Prop where
  hold : disk.hold = none
  database : ∃ database, disk.content? location = some (.database database) ∧ database.IsUsable
  lock : ∀ entry, disk.tree.entry? (beside location lockSuffix) = some entry →
    manner.guard ≠ .lockFile
  journal : ∀ entry, disk.tree.entry? (beside location journalSuffix) = some entry →
    manner.logs = false → IsIdle entry
  log : ∀ entry, disk.tree.entry? (beside location logSuffix) = some entry →
    manner.logs = false → ∃ target, entry = .link target

theorem IsFree.tidies (h : disk.IsFree location manner) (htidies : disk.Tidies location next) :
    next.IsFree location manner where
  hold := htidies.hold.trans h.hold
  database := by
    obtain ⟨database, hcontent, husable⟩ := h.database
    obtain ⟨contents, logged, hnext⟩ := htidies.database database hcontent
    exact ⟨_, hnext, husable.damaged, husable.torn, husable.fault, husable.isReadOnly⟩
  lock entry hentry := h.lock entry (htidies.entry (beside_ne location (by decide)) hentry)
  journal entry hentry := h.journal entry (htidies.entry (beside_ne location (by decide)) hentry)
  log entry hentry := h.log entry (htidies.entry (beside_ne location (by decide)) hentry)

/-- Where nobody else has a lock, only a directory beside a file stands for one. -/
theorem refusal_file (h : disk.hold = none) (location : Location) (manner : Manner)
    (writes : Bool) : disk.refusal (.file location) manner writes = none ↔
      ∀ entry, disk.tree.entry? (beside location lockSuffix) = some entry →
        manner.guard ≠ .lockFile := by
  rw [refusal.eq_def, h]
  dsimp only
  cases hentry : disk.tree.entry? (beside location lockSuffix) with
  | none => simp
  | some entry => cases hguard : manner.guard <;> simp

theorem isBlank_of_database (h : disk.content? location = some (.database database)) :
    disk.isBlank location = false := by
  rw [isBlank, h]
  rfl

theorem beside_ne_root (location : Location) (suffix : String) : beside location suffix ≠ [] :=
  List.concat_ne_nil _ _

/-- Pending changes that matter are gone after they were looked at. -/
theorem settle_journal_idle (h : disk.content? location = some (.database database))
    (hdone : disk.settleJournal location = .ok next) :
    disk.Tidies location next ∧
      ∀ entry, next.tree.entry? (beside location journalSuffix) = some entry → IsIdle entry := by
  have hblank := isBlank_of_database h
  revert hdone
  fun_cases settleJournal with
  | case1 _ hyes | case4 _ _ _ _ hyes => cases hblank.symm.trans hyes
  | case2 | case6 => rintro ⟨⟩
  | case3 content hentry hfirst | case5 content hentry _ hfirst =>
    rintro ⟨⟩
    refine ⟨.refl location disk, fun entry hsame => ?_⟩
    cases hentry.symm.trans hsame
    rw [IsIdle, hfirst]
    rfl
  | case7 content hentry =>
    rintro ⟨⟩
    refine ⟨tidies_drop_journal disk location, fun entry hgone => ?_⟩
    rw [dropJournal, hentry] at hgone
    dsimp only at hgone
    rw [erase, FileTree.entry_erase_self (beside_ne_root _ _)] at hgone
    cases hgone
  | case8 hdirectory hfile =>
    rintro ⟨⟩
    refine ⟨.refl location disk, fun entry hentry => ?_⟩
    cases entry with
    | directory => exact absurd hentry hdirectory
    | file content => exact absurd hentry (hfile content)
    | link => trivial

/-- A log that matters is gone after it was looked at. -/
theorem settle_log_idle (hdone : disk.settleLog location manner = .ok next) :
    disk.Tidies location next ∧
      ∀ entry, next.tree.entry? (beside location logSuffix) = some entry →
        ∃ target, entry = .link target := by
  revert hdone
  fun_cases settleLog with
  | case1 | case3 => rintro ⟨⟩
  | case2 =>
    rintro ⟨⟩
    refine ⟨tidies_erase (beside_ne location (by decide)), fun entry hentry => ?_⟩
    rw [erase, FileTree.entry_erase_self (beside_ne_root _ _)] at hentry
    cases hentry
  | case4 _ hdirectory hfile =>
    rintro ⟨⟩
    refine ⟨.refl location disk, fun entry hentry => ?_⟩
    cases entry with
    | directory => exact absurd hentry hdirectory
    | file content => exact absurd hentry (hfile content)
    | link target => exact ⟨target, rfl⟩

theorem start_free (hhold : disk.hold = none)
    (hcontent : disk.content? location = some (.database database)) (husable : database.IsUsable)
    (h : disk.start location manner = (.ok (), next)) : next.IsFree location manner := by
  revert h
  fun_cases start with
  | case1 | case2 | case3 => rintro ⟨⟩
  | case4 hrefusal middle hjournal _ hlog =>
    rintro ⟨⟩
    obtain ⟨hfirst, hidle⟩ := settle_journal_idle hcontent hjournal
    obtain ⟨hsecond, hlog⟩ := settle_log_idle hlog
    have htidies := hfirst.trans hsecond
    obtain ⟨contents, logged, hnext⟩ := htidies.database database hcontent
    have hlock := (refusal_file hhold location manner false).mp hrefusal
    refine ⟨htidies.hold.trans hhold, ⟨_, hnext, husable.damaged, husable.torn, husable.fault,
      husable.isReadOnly⟩, fun entry hentry => ?_, fun entry hentry _ => ?_,
      fun entry hentry _ => hlog entry hentry⟩
    · exact hlock entry (htidies.entry (beside_ne location (by decide)) hentry)
    · exact hidle entry (hsecond.entry (beside_ne location (by decide)) hentry)

theorem IsFree.start (h : disk.IsFree location manner) (hlogs : manner.logs = false) :
    (disk.start location manner).1 = .ok () := by
  obtain ⟨database, hcontent, _⟩ := h.database
  -- neither an idle journal nor a link in the place of a log is touched
  have hjournal : disk.settleJournal location = .ok disk := by
    fun_cases settleJournal with
    | case1 | case3 | case5 | case8 => rfl
    | case2 hentry => cases h.journal _ hentry hlogs
    | case4 _ _ _ _ hyes => cases (isBlank_of_database hcontent).symm.trans hyes
    | case6 _ hentry _ hfirst _ hother | case7 _ hentry _ hfirst _ hother =>
      have hidle := h.journal _ hentry hlogs
      rw [IsIdle, hfirst] at hidle
      exact absurd hidle hother
  have hlog : disk.settleLog location manner = .ok disk := by
    fun_cases settleLog with
    | case1 _ hentry | case2 _ _ hentry | case3 _ _ hentry =>
      obtain ⟨target, ⟨⟩⟩ := h.log _ hentry hlogs
    | case4 => rfl
  rw [Disk.start, (refusal_file h.hold location manner false).mpr h.lock]
  dsimp only
  rw [hjournal]
  dsimp only
  rw [hlog]

theorem content_of_database_of {writes : Bool}
    (h : disk.databaseOf location manner writes = (.ok (some database), next)) :
    disk.content? location = some (.database database) := by
  revert h
  fun_cases databaseOf with
  | case2 _ _ hcontent | case5 _ _ _ _ hcontent =>
    rintro ⟨⟩
    exact hcontent
  | case6 => split <;> rintro ⟨⟩
  | _ => rintro ⟨⟩

/-- Who finds a database that may be used in a file leaves the file free, and finds the same whether
it wants to write or not. -/
theorem database_of_free {writes : Bool} (hhold : disk.hold = none) (husable : database.IsUsable)
    (h : disk.databaseOf location manner writes = (.ok (some database), next)) :
    next.IsFree location manner ∧
      ∀ writes, disk.databaseOf location manner writes = (.ok (some database), next) := by
  revert h
  fun_cases databaseOf disk location manner writes with
  | case2 found hlogs hcontent hrefusal =>
    -- with a log, only the lock is asked, and who wants to write is refused for the same locks
    rintro ⟨⟩
    have hlock := (refusal_file hhold location manner writes).mp hrefusal
    refine ⟨⟨hhold, ⟨database, hcontent, husable⟩, hlock, ?_, ?_⟩, fun wants => ?_⟩
    · exact fun _ _ hnone => absurd (hnone.symm.trans hlogs) Bool.false_ne_true
    · exact fun _ _ hnone => absurd (hnone.symm.trans hlogs) Bool.false_ne_true
    · simp only [databaseOf, hcontent, hlogs, (refusal_file hhold location manner wants).mpr hlock]
  | case5 hlogs started hstart found hcontent =>
    -- without one, it plays no part whether something is to be written
    rintro ⟨⟩
    exact ⟨start_free hhold hcontent husable hstart, fun wants => by
      simp only [databaseOf, hcontent, hlogs, hstart]⟩
  | case6 => split <;> rintro ⟨⟩
  | _ => rintro ⟨⟩

theorem contents_of_usable {writes : Bool}
    (h : disk.databaseOf location manner writes = (.ok (some database), next))
    (husable : database.IsUsable) (subject : Subject) :
    disk.contentsOf (.file location) manner subject writes = (.ok database.contents, next) := by
  simp [contentsOf, h, husable.damaged, husable.torn, husable.fault, husable.isReadOnly]

/-- Who gets at the contents of a file leaves it free, and finds the same whatever it looks for. -/
theorem contents_of_free (hhold : disk.hold = none) (hintact : disk.IsIntact (.file location))
    (h : (disk.contentsOf (.file location) manner .symbols true).1 = .ok contents)
    (subject : Subject) (writes : Bool) :
    ∃ looked, disk.contentsOf (.file location) manner subject writes = (.ok contents, looked) ∧
      looked.IsFree location manner := by
  rw [contentsOf.eq_def] at h
  dsimp only at h
  repeat' split at h
  all_goals cases h
  next database looked hlook _ _ hfault hwritable =>
  have hintact := (intact_iff (content_of_database_of hlook)).mp hintact
  have husable : database.IsUsable :=
    ⟨hintact.damaged, hintact.torn, hfault, by simpa using hwritable⟩
  obtain ⟨hfree, hall⟩ := database_of_free hhold husable hlook
  exact ⟨looked, contents_of_usable (hall writes) husable subject, hfree⟩

theorem IsFree.contents_of (h : disk.IsFree location manner) :
    ∃ contents, (disk.contentsOf (.file location) manner .symbols true).1 = .ok contents := by
  obtain ⟨database, hcontent, husable⟩ := h.database
  have hlook : ∃ looked, disk.databaseOf location manner true = (.ok (some database), looked) := by
    rw [databaseOf.eq_def, hcontent]
    cases hlogs : manner.logs with
    | true =>
      dsimp only
      rw [(refusal_file h.hold location manner true).mpr h.lock]
      exact ⟨disk, rfl⟩
    | false =>
      have hstart : disk.start location manner = (.ok (), _) := Prod.ext (h.start hlogs) rfl
      rw [hstart]
      exact ⟨_, rfl⟩
  obtain ⟨looked, hlook⟩ := hlook
  exact ⟨database.contents, congrArg Prod.fst (contents_of_usable hlook husable .symbols)⟩

/-! ## Connections that get to their databases -/

variable {α : Type} {connection : Connection} {prepared later : List Form}

/-- Nothing keeps a connection from writing. -/
def Admits (disk : Disk) (connection : Connection) : Prop :=
  (disk.write .nothing connection).1 = .ok ()

/-- Nothing keeps a connection from writing, now or after the next use. -/
def IsOpen (disk : Disk) : Connection → Prop
  | .to (.file location) manner _ => disk.IsFree location manner
  | _ => True

/-- A use that gets to its database, and leaves the way to it open. -/
structure Arrives (effect : Effect α) (disk : Disk)
    (connection : Connection) (outcome : Result α × Connection × Disk) : Prop where
  reaches : disk.Reaches effect connection outcome
  isOpen : outcome.2.2.IsOpen outcome.2.1

/-- What a use finds where nothing keeps a connection from writing. -/
theorem contents_of_admits (h : disk.Admits (.to place manner prepared)) (hhold : disk.hold = none)
    (hintact : disk.IsIntact place) (hheld : disk.held? place = some contents) (subject : Subject)
    (writes : Bool) :
    ∃ looked, disk.contentsOf place manner subject writes = (.ok contents, looked) ∧
      disk.Settles place looked ∧ looked.IsOpen (.to place manner prepared) := by
  have hopen : ∃ looked, disk.contentsOf place manner subject writes = (.ok contents, looked) ∧
      looked.IsOpen (.to place manner prepared) := by
    cases place with
    | memory layer name =>
      rw [contentsOf.eq_def]
      dsimp only
      rw [refusal_memory hhold,
        show disk.memory.lookup (.memory layer name) = some contents from hheld]
      exact ⟨disk, rfl, trivial⟩
    | file location =>
      have hfound := (contents_of_cases hheld manner .symbols true).2
      rw [Admits, write, execute.eq_def] at h
      dsimp only at h
      cases hlook : disk.contentsOf (.file location) manner .symbols true with
      | mk result looked =>
        rw [show Statement.nothing.subject = .symbols from rfl, hlook] at h
        cases result with
        | error e => cases h
        | ok found =>
          cases hfound found (congrArg Prod.fst hlook)
          exact contents_of_free hhold hintact (congrArg Prod.fst hlook) subject writes
  obtain ⟨looked, hlook, hopen⟩ := hopen
  have houtcome := (contents_of_cases hheld manner subject writes).1
  rw [hlook] at houtcome
  exact ⟨looked, hlook, houtcome.settles, hopen⟩

theorem IsOpen.tidies (h : disk.IsOpen (.to place manner prepared))
    (htidies : ∀ location, place = .file location → disk.Tidies location next) :
    next.IsOpen (.to place manner later) := by
  cases place with
  | memory => trivial
  | file location => exact IsFree.tidies h (htidies location rfl)

theorem IsOpen.admits (h : disk.IsOpen connection) (hhold : disk.hold = none) :
    disk.Admits connection := by
  have hnothing (now : Int) (contents : Contents) :
      (Statement.nothing.run now contents).1 = .ok () := by cases contents <;> rfl
  rw [Admits, write, execute.eq_def]
  rcases connection with ⟨place, manner, prepared⟩ | ⟨contents⟩
  case own => exact hnothing disk.now contents
  case _ =>
    have hfound : ∃ contents, (disk.contentsOf place manner .symbols true).1 = .ok contents := by
      cases place with
      | memory layer name =>
        rw [contentsOf.eq_def]
        dsimp only
        rw [refusal_memory hhold]
        exact ⟨_, rfl⟩
      | file location => exact IsFree.contents_of h
    obtain ⟨contents, hfound⟩ := hfound
    dsimp only
    cases hlook : disk.contentsOf place manner .symbols true with
    | mk result looked =>
      rw [hlook] at hfound
      cases hfound
      rw [show Statement.nothing.subject = .symbols from rfl, hlook]
      exact hnothing looked.now contents

/-- Where nothing keeps it from writing, a statement gets to its database. -/
theorem arrives_execute (writes : Bool) (statement : Statement α) (hlive : disk.IsLive connection)
    (hhold : disk.hold = none) (hadmits : disk.Admits connection)
    (hintact : ∀ place manner prepared, connection = .to place manner prepared → disk.IsIntact place) :
    disk.Arrives statement.run connection (disk.execute writes statement connection) := by
  rcases connection with ⟨place, manner, prepared⟩ | ⟨contents⟩
  case own => exact ⟨.own contents, trivial⟩
  case _ =>
    obtain ⟨contents, hheld⟩ := Option.isSome_iff_exists.mp hlive
    obtain ⟨looked, hlook, hsettles, hopen⟩ := contents_of_admits hadmits hhold
      (hintact place manner prepared rfl) hheld statement.subject writes
    have hkept := (hsettles.writes_held hheld).held
    rw [execute.eq_def]
    dsimp only
    rw [hlook]
    dsimp only
    rw [hsettles.now]
    refine ⟨.done hheld (hsettles.writes (writes_put hkept _ _)), hopen.tidies ?_⟩
    rintro location rfl
    obtain ⟨database, hcontent, _⟩ := content_of_held hkept
    exact tidies_put hcontent _ _

/-- Nothing lies ahead that makes a use fail. -/
def IsUntroubled (disk : Disk) : Prop := ∀ incident ∈ disk.incidents, incident.cause = none

namespace IsUntroubled

variable (h : disk.IsUntroubled)

include h

theorem meet : disk.meet.1 = none ∧ disk.meet.2.IsUntroubled := by
  rcases disk.meet_cases with heq | ⟨incident, rest, hincidents, heq⟩
  · rw [heq]
    exact ⟨rfl, h⟩
  · rw [IsUntroubled, hincidents] at h
    rw [heq]
    exact ⟨h incident (.head _), fun other hother => h other (.tail _ hother)⟩

theorem meet_eq : disk.meet = (none, disk.meet.2) :=
  Prod.ext h.meet.1 rfl

theorem try_use (use : Use α)
    (connection : Connection) : disk.tryUse use connection = use connection disk.meet.2 := by
  rw [tryUse, h.meet_eq]

theorem try_connect (path : String) : disk.tryConnect path = disk.meet.2.connect path := by
  rw [tryConnect, h.meet_eq]

end IsUntroubled

/-- Connecting meets with nothing that lies ahead of other uses. -/
theorem connect_incidents (h : disk.IsPlain) (path : String) :
    (disk.connect path).2.incidents = disk.incidents := by
  cases hparse : Address.parse path with
  | error e => rw [connect, hparse]
  | ok address =>
    have hcases := connect_cases h hparse
    generalize (disk.connect path).1 = result at hcases
    generalize (disk.connect path).2 = next at hcases
    cases hcases with
    | refused | toOwn => rfl
    | failed _ _ houtcome => exact houtcome.settles.incidents
    | toFile _ _ hsettles | toMemory _ hsettles => exact hsettles.incidents

theorem Reaches.incidents {effect : Effect α} {outcome : Result α × Connection × Disk}
    (h : disk.Reaches effect connection outcome) : outcome.2.2.incidents = disk.incidents := by
  cases h with
  | own => rfl
  | done _ hwrites => exact hwrites.incidents

end Disk

namespace Session

variable {α : Type} {path : String} {world : Disk} {log : List Event} {connection : Connection}
  {s : DiskSession} {effect : Effect α}
  {use : Use α}

/-! ## Sessions that are ready -/

/-- A calm session whose next write gets to its tables, and ahead of which lies no failure. -/
structure IsReady (path : String) (s : DiskSession) : Prop where
  calm : s.IsCalm path
  untroubled : s.world.IsUntroubled
  admitted : (s.attempt (diskAccess path) (Disk.tryUse (Disk.write .nothing))).1 = .ok ()

/-- A use of connections that gets to its database wherever nothing is in the way. -/
structure Succeeds (use : Use α) (effect : Effect α) : Prop extends Transacts use effect where
  arrives : ∀ (disk : Disk) (connection : Connection), disk.IsLive connection → disk.hold = none →
    disk.Admits connection →
    (∀ place manner prepared, connection = .to place manner prepared → disk.IsIntact place) →
    disk.Arrives effect connection (use connection disk)

/-- A connected session to whose database the way is open is ready. -/
theorem ready_of_open (hcalm : IsCalm path { connection := some connection, world, log })
    (huntroubled : world.IsUntroubled) (hopen : world.IsOpen connection) :
    IsReady path { connection := some connection, world, log } := by
  refine ⟨hcalm, huntroubled, ?_⟩
  have hmet : world.meet.2.IsOpen connection := by
    rcases connection with ⟨place, manner, prepared⟩ | ⟨contents⟩
    case own => trivial
    case _ => exact hopen.tidies fun location _ => Disk.tidies_meet location world
  rw [attempt]
  dsimp only
  rw [huntroubled.try_use]
  exact hmet.admits hcalm.meet.1.calm.keeps.world.hold

/-- A ready session does what a use says, and is ready for the next one. -/
theorem IsReady.attempt (h : s.IsReady path) (huse : Succeeds use effect) :
    Does path effect s (s.attempt (diskAccess path) (Disk.tryUse use)).1
        (s.attempt (diskAccess path) (Disk.tryUse use)).2 ∧
      (s.attempt (diskAccess path) (Disk.tryUse use)).2.IsReady path := by
  -- with a connection, the use begins when what lies ahead has been met
  have hconnected {world : Disk} {log : List Event} {connection : Connection}
      (hcalm : IsCalm path { connection := some connection, world, log })
      (huntroubled : world.IsUntroubled)
      (hadmitted : (world.tryUse (Disk.write .nothing) connection).1 = .ok ()) :
      Does path effect { connection := some connection, world, log }
          (world.tryUse use connection).1
          { connection := some (world.tryUse use connection).2.1
            world := (world.tryUse use connection).2.2, log } ∧
        IsReady path
          { connection := some (world.tryUse use connection).2.1
            world := (world.tryUse use connection).2.2, log } := by
    obtain ⟨hstays, _⟩ := hcalm.meet
    have hserves := hstays.calm.keeps.serves connection rfl
    rw [huntroubled.try_use] at hadmitted ⊢
    have harrives := huse.arrives world.meet.2 connection hserves.isLive
      hstays.calm.keeps.world.hold hadmitted fun place manner prepared heq => by
        subst heq
        exact hstays.calm.intact place hserves.place_eq
    have hdoes := hstays.calm.reaches huse.preserves harrives.reaches
    refine ⟨hstays.does hdoes, ready_of_open hdoes.calm ?_ harrives.isOpen⟩
    rw [Disk.IsUntroubled, harrives.reaches.incidents]
    exact huntroubled.meet.2
  obtain ⟨hcalm, huntroubled, hadmitted⟩ := h
  obtain ⟨connection, world, log⟩ := s
  cases connection with
  | some connection => exact hconnected hcalm huntroubled hadmitted
  | none =>
    -- that the session is admitted says that the connection can be made
    have hmade := hcalm.try_connect
    have hincidents := Disk.connect_incidents hcalm.meet.1.calm.keeps.world.isPlain path
    rw [Session.attempt] at hadmitted ⊢
    dsimp only [diskAccess] at hadmitted ⊢
    rw [huntroubled.try_connect] at hadmitted hmade ⊢
    cases hconnect : world.meet.2.connect path with
    | mk result connected =>
      rw [hconnect] at hadmitted hmade hincidents
      cases result with
      | error e => cases hadmitted
      | ok connection =>
        have hstays := hmade connection rfl
        have huntroubled : connected.IsUntroubled := by
          rw [Disk.IsUntroubled, hincidents]
          exact huntroubled.meet.2
        obtain ⟨hdoes, hready⟩ := hconnected hstays.calm huntroubled hadmitted
        exact ⟨hstays.does hdoes, hready⟩

/-- Operations on a ready session end with the first try, as reads do. -/
theorem IsReady.ends (h : s.IsReady path) (huse : Succeeds use effect) :
    ∃ result next, Does path effect s result next ∧ next.IsReady path ∧
      (∀ op : Operation, op.run (diskAccess path) (Disk.tryUse use) s =
        (result.mapError .database, next)) ∧
      s.read (diskAccess path) (Disk.tryUse use) = (result.mapError .database, next) := by
  obtain ⟨hdoes, hready⟩ := h.attempt huse
  cases hattempt : s.attempt (diskAccess path) (Disk.tryUse use) with
  | mk result next =>
    rw [hattempt] at hdoes hready
    refine ⟨result, next, hdoes, hready, fun op => ?_, ?_⟩
    · rw [Operation.run, Operation.tries.eq_def]
      dsimp only
      rw [hattempt]
      cases result with
      | ok a => rfl
      | error e =>
        dsimp only at hdoes ⊢
        rw [(hdoes.failure huse.toTransacts).1]
        rfl
    · rw [Session.read, hattempt]
      cases result with
      | ok a => rfl
      | error e =>
        dsimp only at hdoes ⊢
        rw [if_pos (hdoes.failure huse.toTransacts).1]
        rfl

end Session

/-! ## Calls of ready indices -/

open CodeAtlas.Symbol (Declaration)

section Calls

variable {α : Type} {store : Store} {statement : Statement α}

/-- Whether a new write would get to the tables of an index, whose database has no damage, with no
failure ahead. -/
structure IsUsable (store : Store) : Prop where
  intact : store.IsIntact
  untroubled : store.session.world.IsUntroubled
  admitted : (store.session.attempt (diskAccess store.path)
    (Disk.tryUse (Disk.write .nothing))).1 = .ok ()

instance (disk : Disk) : Decidable disk.IsUntroubled :=
  inferInstanceAs (Decidable (∀ incident ∈ disk.incidents, incident.cause = none))

instance (store : Store) : Decidable store.IsUsable :=
  decidable_of_iff (store.IsIntact ∧ store.session.world.IsUntroubled ∧
      (store.session.attempt (diskAccess store.path)
        (Disk.tryUse (Disk.write .nothing))).1 = .ok ())
    ⟨fun ⟨intact, untroubled, admitted⟩ => ⟨intact, untroubled, admitted⟩,
      fun h => ⟨h.intact, h.untroubled, h.admitted⟩⟩

/-- A usable index with sound tables. -/
def IsReady (store : Store) : Prop := store.session.IsReady store.path

theorem Reachable.isReady (h : store.Reachable) (husable : store.IsUsable) : store.IsReady := by
  refine ⟨h.isCalm husable.intact fun incident hincident e hcause => ?_, husable.untroubled,
    husable.admitted⟩
  rw [husable.untroubled incident hincident] at hcause
  cases hcause

/-- How a statement on a ready index ends: as it does on the tables at some time. -/
inductive Carries (statement : Statement α) (store : Store) : Except Error α → Store → Prop where
  | done {a : α} {next : Store} (now : Int) (hready : next.IsReady)
    (hdone : statement.onTables now store.tables = .ok (a, next.tables)) :
    Carries statement store (.ok a) next
  | failed {e : DatabaseError} {next : Store} (now : Int) (hready : next.IsReady)
    (hfailed : statement.onTables now store.tables = .error e)
    (htables : next.tables = store.tables) :
    Carries statement store (.error (.database e)) next

theorem succeeds_execute (writes : Bool) (h : statement.IsSound) :
    Session.Succeeds (Disk.execute writes statement) statement.run :=
  ⟨transacts_execute writes h, fun _ _ hlive hhold hadmits hintact =>
    Disk.arrives_execute writes statement hlive hhold hadmits hintact⟩

theorem succeeds_write (h : statement.IsSound) :
    Session.Succeeds (Disk.write statement) statement.run := succeeds_execute true h

theorem succeeds_read {query : Query α} (h : ∀ tables, FailsForGood (query.onTables tables)) :
    Session.Succeeds (Disk.read query) fun _ contents => (query.run contents, contents) :=
  statement_run query ▸ succeeds_execute false (statement_sound h)

namespace IsReady

variable (h : store.IsReady)

include h

theorem write (hstatement : statement.IsSound) (name : String) :
    store.Carries statement (store.write name statement).1 (store.write name statement).2 := by
  obtain ⟨result, next, hdoes, hready, hrun, -⟩ :=
    Session.IsReady.ends h (succeeds_write hstatement)
  simp only [Store.write, hrun]
  cases hdoes with
  | intro now hcalm htables =>
    cases hresult : statement.onTables now (store.session.tables store.path) with
    | ok done =>
      simp only [Statement.run, hresult] at htables ⊢
      have hchanged : done = (done.1, next.tables store.path) :=
        Prod.ext rfl (Contents.tables.inj htables)
      exact .done now hready (hresult.trans (congrArg Except.ok hchanged))
    | error e =>
      simp only [Statement.run, hresult] at htables ⊢
      exact .failed now hready hresult (Contents.tables.inj htables).symm

theorem write_is_ok (hstatement : statement.IsSound) (name : String) :
    (store.write name statement).2.IsReady ∧
      ∃ now, (store.write name statement).1.isOk = (statement.onTables now store.tables).isOk := by
  have hcarries := h.write hstatement name
  generalize (store.write name statement).1 = result at hcarries ⊢
  cases hcarries with
  | done now hready hdone => exact ⟨hready, now, (congrArg Except.isOk hdone).symm⟩
  | failed now hready hfailed => exact ⟨hready, now, (congrArg Except.isOk hfailed).symm⟩

/-- A statement that does the same at all times has done it. -/
theorem write_eq {a : α} {after : Tables} (hstatement : statement.IsSound) (name : String)
    (hdone : ∀ now, statement.onTables now store.tables = .ok (a, after)) :
    (store.write name statement).1 = .ok a ∧ (store.write name statement).2.tables = after ∧
      (store.write name statement).2.IsReady := by
  have hcarries := h.write hstatement name
  generalize (store.write name statement).1 = result at hcarries ⊢
  cases hcarries with
  | done now hready hdone' =>
    obtain ⟨rfl, rfl⟩ := Prod.mk.inj (Except.ok.inj (hdone'.symm.trans (hdone now)))
    exact ⟨rfl, rfl, hready⟩
  | failed now hready hfailed => cases hfailed.symm.trans (hdone now)

theorem read {query : Query α} (hquery : ∀ tables, FailsForGood (query.onTables tables)) :
    (store.read query).1 = (query.onTables store.tables).mapError .database ∧
      (store.read query).2.IsReady := by
  obtain ⟨result, next, hdoes, hready, -, hread⟩ :=
    Session.IsReady.ends h (succeeds_read hquery)
  rw [Store.read, hread]
  cases hdoes with
  | intro => exact ⟨rfl, hready⟩

/-- Questions to a ready index are answered from the tables. -/
theorem inquire (repository : String) (inquiry : Inquiry) :
    (store.inquire repository inquiry).1 =
        (if Text.blank repository then .error .missingRepository
          else (inquiry.answer repository store.tables).mapError .database) ∧
      (store.inquire repository inquiry).2.IsReady := by
  obtain ⟨α, query, f, hquery, hanswer, hinquire⟩ := inquire_query repository inquiry
  rw [hinquire, hanswer, Store.within]
  split
  · exact ⟨rfl, h⟩
  · obtain ⟨hread, hready⟩ := h.read hquery
    refine ⟨?_, hready⟩
    rw [hread]
    cases query.onTables store.tables <;> rfl

end IsReady

end Calls

end CodeAtlas.Store
