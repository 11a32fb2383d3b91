import CodeAtlas.Store.Disk

/-!
# Writes of other programs

Another program may store any value in a cell, overwrite files, and take or release the lock of a
database.
-/

namespace CodeAtlas.Store

open Files (Location)

/-- A row with another value in a column, if the column admits it. -/
def Row.alter? (row : Row) (column : String) (value : Option Cell) : Option Row :=
  let number := value.map Cell.inNumbers
  let text := value.map Cell.inTexts
  match column with
  | "id" =>
    match number with
    | some (.integer id) => some { row with id }
    | _ => none
  | "name" => text.map fun name => { row with name }
  | "kind" => text.map fun kind => { row with kind }
  | "file_path" => text.map fun file => { row with file }
  | "repository_id" => text.map fun repository => { row with repository }
  | "docstring" => some { row with docstring := text }
  | "line_number" => number.map fun line => { row with line }
  | "column_number" => number.map fun column => { row with column }
  | "parent_id" => some { row with parent := number }
  | "end_line_number" => some { row with endLine := number }
  | "end_column_number" => some { row with endColumn := number }
  | "created_at" => number.map fun createdAt => { row with createdAt }
  | "updated_at" => number.map fun updatedAt => { row with updatedAt }
  | _ => none

def Entry.alter? (entry : Entry) (column : String) (value : Option Cell) : Option Entry :=
  match column, value.map Cell.inNumbers, value.map Cell.inTexts with
  | "replied_at", some repliedAt, _ => some { entry with repliedAt }
  | "repository_id", _, some repository => some { entry with repository }
  | "comment_id", some comment, _ => some { entry with comment }
  | "pr_number", some pullRequest, _ => some { entry with pullRequest }
  | _, _, _ => none

/-- Stores a value in the symbol of an id and gives the number of rows. -/
def Tables.alterSymbol (tables : Tables) (id : Int) (column : String) (value : Option Cell) :
    Nat × Tables :=
  ((tables.symbols.filter fun row => row.id = id).length,
    { tables with symbols := tables.symbols.map fun row =>
        if row.id = id then (row.alter? column value).getD row else row })

/-- Stores a value in the replies to a comment and gives the number of rows. -/
def Tables.alterReply (tables : Tables) (comment : Int) (column : String) (value : Option Cell) :
    Nat × Tables :=
  ((tables.replies.filter fun entry => entry.comment = .integer comment).length,
    { tables with replies := tables.replies.map fun entry =>
        if entry.comment = .integer comment then (entry.alter? column value).getD entry
        else entry })

/-- The column that tells which rows of a table are altered. -/
def Subject.key : Subject → String
  | .symbols => "id"
  | .replies => "comment_id"

/-- Stores a value in the rows with a key and gives their number; none if they do not take it. -/
def Catalog.alter (catalog : Catalog) (subject : Subject) (key : Int) (column : String)
    (value : Datum) : Nat × Catalog :=
  let result : Result (Nat × Catalog) := do
    let relation ← catalog.subject subject
    let keyColumn ← Catalog.column relation "" 0 subject.key
    let position ← Catalog.column relation "" 0 column
    let old := relation.tuples.filter (relation.isAt keyColumn (.integer key))
    let changes ← old.mapM fun tuple =>
      return (tuple, ← relation.amend tuple [(position, value)])
    return (old.length, ← catalog.assign relation [position] changes)
  result.toOption.getD (0, catalog)

namespace Disk

variable (disk : Disk) (name : String)

/-- Takes the lock of the file at an address. An empty file is begun to be written. -/
def lockFile (address : Address) : Option Disk := do
  let (location, disk) ← (disk.reach name address).toOption
  let manner := address.manner
  let disk ← match disk.start location manner with
    | (.ok (), disk) => some disk
    | (.error _, _) => none
  let place : Place := .file location
  let free := match disk.content? location with
    | some (.database database) => !database.torn && (database.journal == .rollback || manner.logs)
    | some content => content.isBlank
    | none => false
  if !free ∨ address.isReadOnly ∨ (disk.refusal place manner true).isSome then none
  let journaled := disk.isBlank location
  let disk := if journaled then disk.set (beside location journalSuffix) (.plain []) else disk
  let disk := if manner.guard = .lockFile then
      { disk with tree := disk.tree.set (beside location lockSuffix) .directory }
    else disk
  return { disk with
    links := place :: disk.links
    hold := some { place, manner, isExclusive := !disk.isAhead place, journaled } }

/-- Takes the lock of the database of a name from outside, if there is one to take. -/
def lock : Disk :=
  match Address.parse name with
  | .error _ => disk
  | .ok address =>
    match address.site with
    | .own => disk
    | .file => (disk.lockFile name address).getD disk
    | .shared =>
      match disk.connectMemory address with
      | (.ok (.to place manner _), disk) => { disk with hold := some { place, manner } }
      | _ => disk

def unlock : Disk :=
  match disk.hold with
  | none => disk
  | some hold =>
    let disk := { disk with hold := none }
    match hold.place with
    | .memory _ _ => disk.unlink hold.place
    | .file location =>
      let disk := if hold.manner.guard = .lockFile then disk.erase (beside location lockSuffix)
        else disk
      let disk := if hold.journaled then disk.dropJournal location else disk
      disk.unlink hold.place

def contents? : Option (Place × Contents) := do
  let address ← (Address.parse name).toOption
  match address.site with
  | .own => none
  | .shared =>
    let place : Place := .memory address.layer address.path
    (disk.memory.lookup place).map (place, ·)
  | .file =>
    let (location, disk) ← (disk.reach name address).toOption
    match disk.content? location with
    | some (.database database) => some (.file location, database.contents)
    | _ => none

/-- Damages the database of a name from outside, after its log went into its file. -/
def damage : Disk :=
  match disk.contents? name with
  | some (.file location, _) =>
    match disk.content? location with
    | some (.database database) =>
      disk.set location (.database { database with damaged := true, logged := .nothing })
    | _ => disk
  | _ => disk

/-- Stores a value in the database of a name from outside, among the symbols or the replies, and
gives the number of rows. -/
def alter (subject : Subject) (id : Int) (column : String) (value : Option Cell) : Nat × Disk :=
  match disk.contents? name with
  | none => (0, disk)
  | some (place, .tables tables) =>
    let (count, tables) := match subject with
      | .symbols => tables.alterSymbol id column value
      | .replies => tables.alterReply id column value
    (count, disk.put place subject (.tables tables))
  | some (place, .catalog catalog) =>
    let (count, catalog) := catalog.alter subject id column (.ofCell? value)
    (count, disk.put place subject (.catalog catalog))

/-- Overwrites a file from outside. What is in the log of a database that is open stays, but who
needs pages that are not there notices. -/
def overwrite (path : String) (bytes : Bytes) : Except Files.Fault Disk := do
  let written := { disk with tree := ← disk.tree.write path (.ofBytes bytes) }
  match disk.tree.find path with
  | .ok (.found location (.file (.database database))) =>
    if database.journal = .ahead ∧ disk.links.contains (.file location) then
      match database.logged with
      | .whole => return disk
      | .parts false false => return written
      | .parts _ _ => return disk.set location (.database { database with torn := true })
    else return written
  | _ => return written

end Disk

end CodeAtlas.Store
