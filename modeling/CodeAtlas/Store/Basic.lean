import CodeAtlas.Store.Disk

/-!
# The index

A `Store` is an open index of symbols and replies. Every operation names a repository that is not
blank and concerns that repository alone; writes are retried, reads are not. A database that is
damaged is moved aside and replaced by a new one.
-/

namespace CodeAtlas.Store

open Files (Location)
open Logging (Event)

namespace Disk

/-- Connections to a file that is no longer at its location have no effect on the next one there. -/
def abandon (disk : Disk) (location : Location) : Disk :=
  let place : Place := .file location
  { disk with
    links := disk.links.filter (· ≠ place)
    hold := disk.hold.filter fun hold => hold.place ≠ place || hold.manner.guard != .locks }

/-- The file at a path is no longer there. -/
def abandonAt (disk : Disk) (path : String) : Disk :=
  match disk.tree.locate path with
  | .ok (.found location _) => disk.abandon location
  | _ => disk

end Disk

variable (path : String)

/-- Removes a file if it is there; otherwise the fault is reported. -/
def removeIfThere (disk : Disk) : Except Error Unit × Disk × List Event :=
  match disk.tree.remove path with
  | .ok tree => (.ok (), { disk.abandonAt path with tree }, [])
  | .error .notFound => (.ok (), disk, [])
  | .error fault =>
    (.error (.io (.other s!"failed to delete {path}: {fault.message}")), disk,
      [{ level := .warn
         text := "Failed to delete database file"
         fields := [("path", path), ("error", fault.message)] }])

def removeAll : List String → Disk → Except Error Unit × Disk × List Event
  | [], disk => (.ok (), disk, [])
  | path :: rest, disk =>
    match removeIfThere path disk with
    | (.ok (), disk, events) =>
      let (result, disk, more) := removeAll rest disk
      (result, disk, events ++ more)
    | failed => failed

/-- The files that a database keeps beside its own. -/
def sidecars : List String := [path ++ logSuffix, path ++ mapSuffix]

def backupPath : String := path ++ ".corrupt"

def quarantine (disk : Disk) : Except Error Unit × Disk × List Event :=
  match disk.tree.rename path (backupPath path) with
  | .ok tree => removeAll (sidecars path) { disk.abandonAt path with tree }
  | .error .notFound => removeAll (sidecars path) disk
  | .error fault => (.error (.io fault), disk, [])

def recoveryFailed (e : Error) : Event :=
  { level := .error
    text := "Failed to recover corrupted database"
    fields := [("path", path), ("error", e.message)] }

def recreated : Event :=
  { level := .info
    text := "Recreated corrupted database"
    fields := [("path", path), ("backup", backupPath path)] }

def replaceDamaged (disk : Disk) : Except Error Connection × Disk × List Event :=
  match quarantine path disk with
  | (.error e, disk, events) =>
    (.error (.recoveryFailed path e), disk, events ++ [recoveryFailed path e])
  | (.ok (), disk, events) =>
    match disk.tryConnect path with
    | (.ok connection, disk) => (.ok connection, disk, events ++ [recreated path])
    | (.error e, disk) =>
      (.error (.recoveryFailed path (.database e)), disk,
        events ++ [recoveryFailed path (.database e)])

def diskAccess : Access Connection Disk where
  connect := Disk.tryConnect path
  disconnect := Disk.disconnect
  replace := replaceDamaged path

end CodeAtlas.Store

namespace CodeAtlas

open Files (FileTree)
open Logging (Event)
open Store (Connection DatabaseError Disk DiskSession Error Operation Options Query Session Statement
  Subject Tables Written)
open CodeAtlas.Symbol (Change Declaration Reply Stored)
open Time (Timestamp)

/-- An open index: its file, its tuning, and its session with the disk. -/
structure Store where
  path : String
  options : Options
  session : DiskSession

namespace Store

variable (store : Store) (repository : String)

def operation (name : String) : Operation :=
  { name, path := store.path, limit := max store.options.maxRetries 1 }

def write {α : Type} (store : Store) (name : String) (statement : Statement α) :
    Except Error α × Store :=
  let (result, session) :=
    (store.operation name).run (diskAccess store.path) (Disk.tryUse (Disk.write statement))
      store.session
  (result, { store with session })

def read {α : Type} (store : Store) (query : Query α) : Except Error α × Store :=
  let (result, session) :=
    store.session.read (diskAccess store.path) (Disk.tryUse (Disk.read query))
  (result, { store with session })

def within {α : Type} (operation : Store → Except Error α × Store) : Except Error α × Store :=
  if Text.blank repository then (.error .missingRepository, store) else operation store

/-- Opens the index of a file, making it and its directory if they are not there. -/
def open_ (path : String) (options : Options) (disk : Disk) :
    Except Error Store × Disk × List Event :=
  match options.validate with
  | .error e => (.error e, disk, [])
  | .ok () =>
    match disk.tree.makeDirectories ((Files.parent? path).getD "") with
    | .error fault => (.error (.io fault), disk, [])
    | .ok tree =>
      let store : Store :=
        { path, options, session := { connection := none, world := { disk with tree } } }
      match store.write "open" .nothing with
      | (.ok (), store) => (.ok store, store.session.world, store.session.log)
      | (.error e, store) => (.error e, store.session.world, store.session.log)

def insert (d : Declaration) : Except Error Int × Store :=
  store.within d.repository fun store =>
    store.write "insert_symbol" (.upsert d)

/-- Writes batches in their order until one fails, and adds up what they write. -/
def insertBatches (store : Store) : List (List Declaration) → Except Error Nat × Store
  | [] => (.ok 0, store)
  | batch :: rest =>
    match store.write "insert_symbols" (.upsertAll batch) with
    | (.error e, store) => (.error e, store)
    | (.ok written, store) =>
      match insertBatches store rest with
      | (.ok more, store) => (.ok (written + more), store)
      | (.error e, store) => (.error e, store)

def piecesWithin {α : Type} (size : Nat) : (most : Nat) → List α → List (List α)
  | 0, _ => []
  | _ + 1, [] => []
  | most + 1, items => items.take size :: piecesWithin size most (items.drop size)

def pieces {α : Type} (size : Nat) (items : List α) : List (List α) :=
  piecesWithin (min size items.length) items.length items

/-- Writes declarations, one transaction for each batch, and gives their number. Nothing is written
if a repository is blank. -/
def insertMany (ds : List Declaration) : Except Error Nat × Store :=
  if ds.any fun d => Text.blank d.repository then (.error .missingRepository, store)
  else store.insertBatches (pieces store.options.batchSize ds)

def get (id : Int) : Except Error (Option Stored) × Store :=
  store.within repository fun store => store.read (.find repository id)

/-- Changes a symbol and says whether it is there. An empty change only looks. -/
def change (id : Int) (c : Change) : Except Error Bool × Store :=
  store.within repository fun store =>
    if c.isEmpty then
      let (result, store) := store.get repository id
      (result.map Option.isSome, store)
    else store.write "update_symbol" (.update repository id c)

/-- The symbols whose name has a text in it, the best matches first. -/
def search (query : String) (kind : Option Symbol.Kind)
    (limit : Nat) : Except Error (List Stored) × Store :=
  store.within repository fun store =>
    store.read (.search repository query kind limit)

def inFile (file repository : String) : Except Error (List Stored) × Store :=
  store.within repository fun store => store.read (.inFile file repository)

def children (id : Int) : Except Error (List Stored) × Store :=
  store.within repository fun store => store.read (.childrenOf repository id)

def count : Except Error Nat × Store :=
  store.within repository fun store => store.read (.count repository)

def deleteFile (file repository : String) : Except Error Nat × Store :=
  store.within repository fun store =>
    store.write "delete_symbols_by_file" (.deleteFile file repository)

def deleteRepository : Except Error Nat × Store :=
  store.within repository fun store =>
    store.write "delete_symbols_by_repository"
      (.deleteRepository repository)

def recordReplyAt (comment pullRequest : Int) (repository : String)
    (time : Timestamp) : Except Error Bool × Store :=
  store.within repository fun store =>
    store.write "record_reply" (.recordReply comment pullRequest repository time.millis)

def recordReply (comment pullRequest : Int) (repository : String) : Except Error Bool × Store :=
  store.within repository fun store =>
    let now := store.session.world.now
    store.write "record_reply" (.recordReply comment pullRequest repository now)

def getReply (comment pullRequest : Int) (repository : String) :
    Except Error (Option Reply) × Store :=
  store.within repository fun store =>
    store.read (.findReply comment pullRequest repository)

def hasReplied (comment pullRequest : Int) (repository : String) : Except Error Bool × Store :=
  let (result, store) := store.getReply comment pullRequest repository
  (result.map Option.isSome, store)

/-- The millisecond of the time that lies an age before now, both in nanoseconds. Beyond the range
of times nothing is old enough, or everything if the age is negative. -/
def cutoffAt (now age : Int) : Int :=
  match Timestamp.ofMillis? ((now - age) / 1000000) with
  | some time => time.millis
  | none => if age < 0 then 2 ^ 63 - 1 else -2 ^ 63

def cutoff (now age : Int) : Int := cutoffAt (now * 1000000) (age * 1000000)

/-- Deletes the replies that are older than an age at a time and gives their number. -/
def expireReplies (now age : Int) : Except Error Nat × Store :=
  store.write "cleanup_old_replies" (.deleteRepliesBefore (cutoffAt now age))

def cleanupReplies (age : Int) : Except Error Nat × Store :=
  store.expireReplies (store.session.world.now * 1000000) (age * 1000000)

def note (event : Event) : Store :=
  { store with session := store.session.note event }

/-- Whether the database can be reached and is sound; if not, why is reported. -/
def isHealthy : Bool × Store :=
  let (result, session) := store.session.read (diskAccess store.path) (Disk.tryUse Disk.isSound)
  let store := { store with session }
  match result with
  | .ok true => (true, store)
  | .ok false =>
    (false, store.note { level := .warn
                         text := "Database integrity check failed"
                         fields := [("path", store.path), ("report", "<report>")] })
  | .error e =>
    (false, store.note { level := .warn
                         text := "Database health check failed"
                         fields := [("path", store.path), ("error", e.message)] })

/-- Closes the connection, which is opened again when it is needed. -/
def disconnect : Store :=
  { store with session := store.session.forget (diskAccess store.path) }

def close : Disk := store.disconnect.session.world

def reset : Except Error Unit × Store :=
  let store := store.note
    { level := .info, text := "Resetting database", fields := [("path", store.path)] }
  let store := store.disconnect
  match removeAll (store.path :: sidecars store.path) store.session.world with
  | (.error e, world, events) =>
    (.error e, { store with
      session := { connection := none, world, log := store.session.log ++ events } })
  | (.ok (), world, events) =>
    let log := store.session.log ++ events
    match world.tryConnect store.path with
    | (.ok connection, world) =>
      (.ok (), { store with session := { connection := some connection, world, log } })
    | (.error e, world) =>
      let store := { store with session := { connection := none, world, log } }
      (.error (.database e), store.note
        { level := .error
          text := "Failed to reopen database after reset"
          fields := [("path", store.path), ("error", e.message)] })

end Store

end CodeAtlas
