import CodeAtlas.Store.Address
import CodeAtlas.Store.Retry
import CodeAtlas.Store.Statement

/-!
# Databases on disk and in memory

A `Disk` has files, databases in memory that have a name, and the connections that are open to
either. Connecting writes the schema, so it fails where nothing may be written. A database that is
damaged or locked is noticed by the statements that it keeps from being done. Whatever else may
happen to a use of a database, at a time that nobody here decides, is an `Incident`.
-/

namespace CodeAtlas.Store

open Files (FileTree Location Entry)

/-- What befalls a use of a database: time passes before it, and it may fail for reasons that lie
outside, such as a lock that another program holds for a while or a lack of memory or space. -/
structure Incident where
  elapsed : Int := 0
  cause : Option DatabaseError := none
deriving DecidableEq

/-- The files, the time in milliseconds, and who is connected to what. -/
structure Disk where
  tree : FileTree Content
  now : Int
  memory : List (Place × Contents) := []
  /-- The places that connections are open to, once for each connection. -/
  links : List Place := []
  hold : Option Hold := none
  /-- What befalls the next uses of databases, first to last. -/
  incidents : List Incident := []

/-- A connection to a database. -/
inductive Connection where
  /-- A database that others may reach, and the statements that this connection has prepared. -/
  | to (place : Place) (manner : Manner) (prepared : List Form := [])
  /-- A database that no one else can reach. -/
  | own (contents : Contents)
deriving DecidableEq

/-- What is done with a database over a connection. -/
abbrev Use (α : Type) := Body Connection Disk α

/-- A session whose world is a disk. -/
abbrev DiskSession := Session Connection Disk

def lockedFailure : DatabaseError := .failure 5 (some "database is locked")

/-- The database is locked by another connection that shares its pages, and no statement can be
prepared. -/
def sharedFailure : DatabaseError := .failure 6 (some "database schema is locked: main")

/-- The same for a statement that has been prepared. -/
def tableFailure : DatabaseError := .failure 6 (some "database table is locked")

/-- What is reported of a statement that is kept from its database. -/
def reported (isPrepared : Bool) (e : DatabaseError) : DatabaseError :=
  if isPrepared && e == sharedFailure then tableFailure else e

/-- The statements that a connection has prepared after one was done. One that cannot be prepared
fails with the first result code. -/
def prepare {α : Type} (prepared : List Form) : Option Form → Result α → List Form
  | none, _ => prepared
  | _, .error (.failure 1 _) => prepared
  | some form, _ => prepared.insert form

def readOnlyFailure : DatabaseError := .failure 8 (some "attempt to write a readonly database")

def systemFailure : DatabaseError := .failure 10 (some "disk I/O error")

def openFailure (path : String) : DatabaseError :=
  .failure 14 (some ("unable to open database file: " ++ path))

def journalFailure : DatabaseError := .failure 14 (some "unable to open database file")

def journalSuffix : String := "-journal"

def logSuffix : String := "-wal"

def mapSuffix : String := "-shm"

def lockSuffix : String := ".lock"

def addressLimit : Nat := 512

/-- The location beside another whose name has a suffix. -/
def beside (location : Location) (suffix : String) : Location :=
  location.dropLast ++ [(location.getLast?.getD "").append suffix]

namespace Disk

variable (disk : Disk) (location : Location) (name : String) (address : Address)

def content? : Option Content :=
  match disk.tree.entry? location with
  | some (.file content) => some content
  | _ => none

def set (content : Content) : Disk :=
  { disk with tree := disk.tree.set location (.file content) }

def erase : Disk :=
  { disk with tree := disk.tree.erase location }

def isBlank : Bool :=
  (disk.content? location).any Content.isBlank

/-- Whether the changes of the database at a place go to a log first. -/
def isAhead : Place → Bool
  | .file location =>
    match disk.content? location with
    | some (.database database) => database.journal == .ahead
    | _ => false
  | .memory _ _ => false

/-- Why a connection has to wait for another one. Who only reads need not wait where a log is
written. -/
def refusal (place : Place) (manner : Manner) (writes : Bool) : Option DatabaseError :=
  let held := disk.hold.bind fun hold =>
    if hold.place ≠ place then none
    else if hold.manner.cached && manner.cached then some sharedFailure
    else if hold.manner.guard == .locks && manner.guard == .locks &&
        (writes || hold.isExclusive) then some lockedFailure
    else none
  match place with
  | .file location =>
    if manner.guard == .lockFile && (disk.tree.entry? (beside location lockSuffix)).isSome then
      held.or (some lockedFailure)
    else held
  | .memory _ _ => held

def dropJournal : Disk :=
  match disk.tree.entry? (beside location journalSuffix) with
  | some (.file _) => disk.erase (beside location journalSuffix)
  | _ => disk

/-- Looks at the pending changes beside a file: what cannot be changes of it is removed. -/
def settleJournal : Result Disk :=
  match disk.tree.entry? (beside location journalSuffix) with
  | some .directory => if disk.isBlank location then .ok disk else .error systemFailure
  | some (.file content) =>
    match content.first? with
    | none => .ok disk
    | some first =>
      if disk.isBlank location then .ok (disk.dropJournal location)
      else if first = 0 then .ok disk
      else if disk.isAhead (.file location) && disk.links.contains (.file location) then
        .error lockedFailure
      else .ok (disk.dropJournal location)
  | _ => .ok disk

/-- Looks at the log beside a file: that of an empty file is removed, and one that does not belong
to the file counts as empty. -/
def settleLog (manner : Manner) : Result Disk :=
  let log := beside location logSuffix
  match disk.tree.entry? log with
  | some .directory => .error (if disk.isBlank location then systemFailure else journalFailure)
  | some (.file content) =>
    if content.first?.isNone || disk.isBlank location || manner.logs then .ok (disk.erase log)
    else .error journalFailure
  | _ => .ok disk

def start (manner : Manner) : Result Unit × Disk :=
  match disk.refusal (.file location) manner false with
  | some e => (.error e, disk)
  | none =>
    match disk.settleJournal location with
    | .error e => (.error e, disk)
    | .ok disk =>
      match disk.settleLog location manner with
      | .error e => (.error e, disk)
      | .ok disk => (.ok (), disk)

/-- The file at an address and the disk with it. It is in a directory, and is none itself; if it is
not there it may be made. -/
def reach (disk : Disk) : Result (Location × Disk) := do
  let some location := disk.tree.named? address.path | throw (openFailure name)
  if addressLimit < octetCount (Files.pathOf location) + octetCount journalSuffix then
    throw (openFailure name)
  if address.likeness.any fun path =>
      path.isEmpty || ((disk.tree.named? path).bind disk.tree.entry?).isNone then
    throw systemFailure
  match disk.tree.entry? location.dropLast, disk.tree.entry? location with
  | some .directory, some (.file _) => return (location, disk)
  | some .directory, none =>
    if address.mode = .create then return (location, disk.set location (.plain []))
    else throw (openFailure name)
  | _, _ => throw (openFailure name)

def openMap (manner : Manner) : Result Unit :=
  match disk.tree.entry? (beside location mapSuffix) with
  | some .directory => if manner.hasMap then .error readOnlyFailure else .ok ()
  | _ => .ok ()

def found (location : Location) : Result Unit × Disk :=
  let name := location.getLast?.getD ""
  if address.isReadOnly then (.error readOnlyFailure, disk)
  else if Files.nameLimit < name.octets.length + octetCount journalSuffix then
    (.error journalFailure, disk)
  else if address.manner.guard = .locks ∧ disk.links.contains (.file location) then
    (.error lockedFailure, disk)
  else
    let disk := disk.dropJournal location
    if (disk.tree.entry? (beside location journalSuffix)).isSome then (.error journalFailure, disk)
    else
      let database : Database :=
        if address.manner.logs then { logged := .whole } else { journal := .rollback }
      (disk.openMap location address.manner, disk.set location (.database database))

/-- Writes the schema of a database that may be written. -/
def furnish (database : Database) : Result Unit × Disk :=
  let (result, contents) : Result Unit × Contents := match database.contents with
    | .tables tables => (.ok (), .tables tables)
    | .catalog catalog =>
      let (result, catalog) := catalog.furnish
      (result, .catalog catalog)
  (result, disk.set location (.database { database with contents }))

/-- Why the schema cannot be written to a database that must not be written. -/
def readOnlyRefusal (database : Database) (manner : Manner) : DatabaseError :=
  match database.contents with
  | .catalog catalog =>
    if database.journal = .rollback ∧ manner.logs then readOnlyFailure
    else catalog.lack.getD readOnlyFailure
  | .tables _ => readOnlyFailure

def enter (location : Location) (database : Database) : Result Unit × Disk :=
  let manner := address.manner
  if database.journal = .ahead ∧ !manner.logs ∧ !address.frozen then (.error journalFailure, disk)
  else if database.torn then (.error foreignFailure, disk)
  else
    match if database.journal = .ahead then disk.openMap location manner else .ok () with
    | .error e => (.error e, disk)
    | .ok () =>
      if database.damaged then (.error damagedFailure, disk)
      else if let some e := database.fault then (.error e, disk)
      else if address.isReadOnly ∨ database.isReadOnly then
        (.error (readOnlyRefusal database manner), disk)
      else
        match disk.refusal (.file location) manner true with
        | some e => (.error e, disk)
        | none =>
          if database.journal = .rollback ∧ manner.logs then
            let disk := disk.dropJournal location
            let moved := { database with journal := .ahead }
            match disk.openMap location manner with
            | .ok () => disk.furnish location moved
            | .error e => (.error e, disk.set location (.database moved))
          else disk.furnish location database

/-- Makes a file ready for use: a database that is there gets the schema, and an empty file becomes
a database. -/
def enterFile (location : Location) : Result Unit × Disk :=
  match disk.content? location with
  | some (.database database) => disk.enter address location database
  | _ =>
    if disk.isBlank location then disk.found address location
    else (.error foreignFailure, disk)

/-- Connects to the database of the file at an address. A file that is missing or empty becomes an
empty database. -/
def connectFile (disk : Disk) : Result Connection × Disk :=
  match disk.reach name address with
  | .error e => (.error e, disk)
  | .ok (location, disk) =>
    match if address.frozen then (.ok (), disk) else disk.start location address.manner with
    | (.error e, disk) => (.error e, disk)
    | (.ok (), disk) =>
      match disk.enterFile address location with
      | (.error e, disk) => (.error e, disk)
      | (.ok (), disk) =>
        (.ok (.to (.file location) address.manner),
          { disk with links := .file location :: disk.links })

/-- Connects to a database in memory that has a name, which is empty at first. -/
def connectMemory (disk : Disk) : Result Connection × Disk :=
  let place : Place := .memory address.layer address.path
  let refusal := if address.frozen then none else disk.refusal place address.manner true
  match refusal with
  | some e => (.error e, disk)
  | none =>
    if address.isReadOnly then (.error readOnlyFailure, disk)
    else
      (.ok (.to place address.manner),
        { disk with
          links := place :: disk.links
          memory := if (disk.memory.lookup place).isSome then disk.memory
            else (place, .tables {}) :: disk.memory })

def connectAt (disk : Disk) : Result Connection × Disk :=
  match address.site with
  | .file => disk.connectFile name address
  | .shared => disk.connectMemory address
  | .own => (if address.isReadOnly then .error readOnlyFailure else .ok (.own (.tables {})), disk)

def connect (disk : Disk) : Result Connection × Disk :=
  match Address.parse name with
  | .ok address => disk.connectAt name address
  | .error e => (.error e, disk)

/-- What is left in a file when the last connection to its database is closed: the log goes into the
file, which is of use only if it starts as it should. -/
def checkpoint : Disk :=
  match disk.content? location with
  | some (.database database) =>
    if database.torn then disk.set location (.plain [0, 0])
    else disk.set location (.database { database with logged := .nothing })
  | _ => disk

/-- Closes a connection to a place. A database in memory goes away with the last one. -/
def unlink (place : Place) : Disk :=
  let disk := { disk with links := disk.links.erase place }
  if disk.links.contains place then disk
  else
    match place with
    | .file location => disk.checkpoint location
    | .memory _ _ => { disk with memory := disk.memory.filter fun (other, _) => other ≠ place }

def disconnect (connection : Connection) (disk : Disk) : Disk :=
  match connection with
  | .to place _ _ => disk.unlink place
  | .own _ => disk

/-- The database that a connection finds in a file, if the file is not empty, and the disk after it
has looked. Where there is no log, the file is looked at anew each time. -/
def databaseOf (manner : Manner) (writes : Bool) : Result (Option Database) × Disk :=
  match disk.content? location, manner.logs with
  | some (.database database), true =>
    match disk.refusal (.file location) manner writes with
    | some e => (.error e, disk)
    | none => (.ok (some database), disk)
  | _, true => (.error damagedFailure, disk)
  | content?, false =>
    match disk.start location manner with
    | (.error e, disk) => (.error e, disk)
    | (.ok (), disk) =>
      match content? with
      | some (.database database) => (.ok (some database), disk)
      | some content => (if content.isBlank then .ok none else .error foreignFailure, disk)
      | none => (.error damagedFailure, disk)

def contentsOf (place : Place) (manner : Manner) (subject : Subject)
    (writes : Bool) : Result Contents × Disk :=
  match place with
  | .memory _ _ =>
    match disk.refusal place manner writes with
    | some e => (.error e, disk)
    | none => (.ok ((disk.memory.lookup place).getD (.tables {})), disk)
  | .file location =>
    match disk.databaseOf location manner writes with
    | (.error e, disk) => (.error e, disk)
    | (.ok none, disk) => (.error (noTableFailure subject), disk)
    | (.ok (some database), disk) =>
      if database.damaged ∨ (database.torn ∧ !database.logged.covers subject) then
        (.error damagedFailure, disk)
      else
        match database.fault with
        | some e => (.error e, disk)
        | none =>
          if writes && database.isReadOnly then (.error readOnlyFailure, disk)
          else (.ok database.contents, disk)

def put (place : Place) (subject : Subject) (contents : Contents) : Disk :=
  match place with
  | .memory _ _ =>
    { disk with memory := disk.memory.map fun (other, old) =>
        (other, if other = place then contents else old) }
  | .file location =>
    match disk.content? location with
    | some (.database database) =>
      if database.contents = contents then disk
      else
        match database.journal with
        | .rollback =>
          (disk.dropJournal location).set location (.database { database with contents })
        | .ahead =>
          disk.set location
            (.database { database with contents, logged := database.logged.add subject })
    | _ => disk

/-- Executes a statement on the database of a connection, and puts back what it leaves. A statement
that `writes` needs a database that can be written. -/
def execute {α : Type} (writes : Bool) (statement : Statement α) (connection : Connection)
    (disk : Disk) : Result α × Connection × Disk :=
  match connection with
  | .own contents =>
    let (result, contents) := statement.run disk.now contents
    (result, .own contents, disk)
  | .to place manner prepared =>
    match disk.contentsOf place manner statement.subject writes with
    | (.error e, disk) =>
      let isPrepared := !statement.isTransaction && statement.form.any prepared.contains
      (.error (reported isPrepared e), connection, disk)
    | (.ok contents, disk) =>
      let (result, contents) := statement.run disk.now contents
      (result, .to place manner (prepare prepared statement.form result),
        disk.put place statement.subject contents)

def write {α : Type} (statement : Statement α) : Use α := execute true statement

def read {α : Type} (query : Query α) : Use α := execute false query.statement

def isSound (connection : Connection) (disk : Disk) : Result Bool × Connection × Disk :=
  match connection with
  | .own _ => (.ok true, connection, disk)
  | .to place manner _ =>
    match place with
    | .memory _ _ =>
      match disk.refusal place manner false with
      | some e => (.error e, connection, disk)
      | none => (.ok true, connection, disk)
    | .file location =>
      match disk.databaseOf location manner false with
      | (.ok (some database), disk) =>
        let isSound := !(database.damaged || database.torn) && database.contents.isSound
        match database.fault with
        | some e => (.error e, connection, disk)
        | none => (.ok isSound, connection, disk)
      | (.ok none, disk) => (.ok true, connection, disk)
      | (.error e, disk) => (.error e, connection, disk)

/-- The disk when a use of a database begins, and why the use fails if something prevents it. -/
def meet : Option DatabaseError × Disk :=
  match disk.incidents with
  | [] => (none, disk)
  | incident :: rest =>
    (incident.cause, { disk with now := disk.now + incident.elapsed, incidents := rest })

def tryConnect (disk : Disk) : Result Connection × Disk :=
  match disk.meet with
  | (some e, disk) => (.error e, disk)
  | (none, disk) => disk.connect name

def tryUse {α : Type} (use : Use α)
    (connection : Connection) (disk : Disk) : Result α × Connection × Disk :=
  match disk.meet with
  | (some e, disk) => (.error e, connection, disk)
  | (none, disk) => use connection disk

end Disk

end CodeAtlas.Store
