import CodeAtlas.Store.Like
import CodeAtlas.Store.Row

/-!
# Tables and statements

The contents of a database and the statements on it. A statement that fails changes nothing. Each
symbol has its own id and its own occurrence, and a parent has to be the id of a symbol once the
statement has run; when a symbol is deleted its children lose their parent.
-/

namespace CodeAtlas.Store

open CodeAtlas.Symbol (Change Declaration Reply Stored)

/-- The rows of a database, in the order of their ids. -/
structure Tables where
  symbols : List Row := []
  replies : List Entry := []
deriving DecidableEq

/-- The result of a statement and the tables after it. -/
abbrev Written (α : Type) := Result (α × Tables)

def uniqueFailure : DatabaseError :=
  .failure 19 (some ("UNIQUE constraint failed: symbols.name, symbols.file_path, " ++
    "symbols.repository_id, symbols.line_number, symbols.column_number"))

def patternFailure : DatabaseError := .failure 1 (some "LIKE or GLOB pattern too complex")

def parentExists (rows : List Row) : Option Cell → Bool
  | none => true
  | some (.integer id) => rows.any fun row => row.id == id
  | some _ => false

/-- An id above all that are in use. -/
def nextId (rows : List Row) : Int :=
  match rows with
  | [] => 1
  | row :: rest => rest.foldl (fun most row => max most row.id) row.id + 1

def replaceRow (changed : Row) (rows : List Row) : List Row :=
  rows.map fun row => if row.id = changed.id then changed else row

/-- The id of a declaration and the rows after it was written: an occurrence that is already there
is written again. -/
def placeRow (d : Declaration) (now : Int) (rows : List Row) : Int × List Row :=
  let key := declarationKey d
  match rows.find? fun row => row.key == key with
  | some old => (old.id, replaceRow (old.redeclare d now) rows)
  | none =>
    let id := nextId rows
    (id, rows ++ [Row.ofDeclaration id d now])

def Row.change (row : Row) (c : Change) (now : Int) : Row :=
  { row with
    kind := (c.kind.map Symbol.Kind.name).getD row.kind
    docstring := c.docstring.or row.docstring
    line := (c.line.map natCell).getD row.line
    column := (c.column.map natCell).getD row.column
    endLine := (c.endLine.map natCell).or row.endLine
    endColumn := (c.endColumn.map natCell).or row.endColumn
    parent := (c.parent.map .integer).or row.parent
    updatedAt := .integer now }

/-- A row without a parent that is gone. -/
def Row.orphan (gone : List Row) (row : Row) : Row :=
  if gone.any fun other => row.parent = some (.integer other.id) then { row with parent := none }
  else row

/-- Whether a row comes before another in the answer to a search: names that equal the query come
first, then names, files and lines in their order. -/
def searchLe (query : String) (a b : Row) : Bool :=
  if (a.name == query) != (b.name == query) then a.name == query
  else if a.name ≠ b.name then decide (a.name < b.name)
  else if a.file ≠ b.file then decide (a.file < b.file)
  else a.line.le b.line

def isHit (repository query : String) (kind : Option Symbol.Kind) (row : Row) : Bool :=
  row.repository == repository && isLike row.name.toList (pattern query.toList) &&
    (kind.all fun kind => row.kind == kind.name)

/-- The rows that a search finds, the first `limit` of them. -/
def hits (repository query : String) (kind : Option Symbol.Kind) (limit : Nat)
    (rows : List Row) : List Row :=
  ((rows.filter (isHit repository query kind)).mergeSort (searchLe query)).take limit

def placeLe (a b : Row) : Bool :=
  if a.line ≠ b.line then a.line.le b.line else a.column.le b.column

namespace Tables

variable (tables : Tables) (repository : String)

def upsert (d : Declaration) (now : Int) : Written Int :=
  let (id, rows) := placeRow d now tables.symbols
  if parentExists rows (d.parent.map .integer) then .ok (id, { tables with symbols := rows })
  else .error foreignKeyFailure

def upsertEach (now : Int) : List Declaration → Tables → Result Tables
  | [], tables => .ok tables
  | d :: ds, tables =>
    match tables.upsert d now with
    | .ok (_, tables) => upsertEach now ds tables
    | .error e => .error e

/-- Writes declarations in their order, all or none, and gives their number. -/
def upsertAll (ds : List Declaration) (now : Int) : Written Nat :=
  (upsertEach now ds tables).map fun tables => (ds.length, tables)

/-- Changes the symbol of an id in a repository and says whether it is there. -/
def update (id : Int) (c : Change) (now : Int) : Written Bool :=
  match tables.symbols.find? fun row => row.id == id && row.repository == repository with
  | none => .ok (false, tables)
  | some row =>
    let changed := row.change c now
    if tables.symbols.any fun other => other.id != id && other.key == changed.key then
      .error uniqueFailure
    else if parentExists tables.symbols changed.parent then
      .ok (true, { tables with symbols := replaceRow changed tables.symbols })
    else .error foreignKeyFailure

def deleteWhere (test : Row → Bool) : Written Nat :=
  let gone := tables.symbols.filter test
  let kept := tables.symbols.filter fun row => !test row
  .ok (gone.length, { tables with symbols := kept.map (Row.orphan gone) })

def deleteFile (file repository : String) : Written Nat :=
  tables.deleteWhere fun row => row.file == file && row.repository == repository

def deleteRepository : Written Nat :=
  tables.deleteWhere fun row => row.repository == repository

/-- Records a reply, unless it is already there, and says whether it was recorded. -/
def recordReply (entry : Entry) : Written Bool :=
  if tables.replies.any fun other => other.key == entry.key then .ok (false, tables)
  else .ok (true, { tables with replies := tables.replies ++ [entry] })

def deleteRepliesBefore (cutoff : Int) : Written Nat :=
  let isOld := fun entry : Entry => entry.repliedAt.lt (.integer cutoff)
  .ok ((tables.replies.filter isOld).length,
    { tables with replies := tables.replies.filter fun entry => !isOld entry })

/-- Searches names for a text. A pattern that is too long is noticed when there is a name to compare
it with. -/
def search (repository query : String) (kind : Option Symbol.Kind)
    (limit : Nat) : Result (List Stored) :=
  if limit ≠ 0 ∧ patternLimit < octetCount (String.ofList (pattern query.toList)) ∧
      (tables.symbols.any fun row => row.repository == repository) then .error patternFailure
  else (hits repository query kind limit tables.symbols).mapM Row.read

/-- The symbols of the rows that satisfy a test, in the order of their places. -/
def listed (test : Row → Bool) : Result (List Stored) :=
  ((tables.symbols.filter test).mergeSort placeLe).mapM Row.read

def inFile (file repository : String) : Result (List Stored) :=
  tables.listed fun row => row.file == file && row.repository == repository

def childrenOf (id : Int) : Result (List Stored) :=
  tables.listed fun row => row.parent == some (.integer id) && row.repository == repository

def find (id : Int) : Result (Option Stored) :=
  match tables.symbols.find? fun row => row.id == id && row.repository == repository with
  | none => .ok none
  | some row => some <$> row.read

def count : Nat :=
  (tables.symbols.filter fun row => row.repository == repository).length

def findReply (comment pullRequest : Int) (repository : String) : Result (Option Reply) :=
  let key := (.integer comment, .integer pullRequest, repository)
  match tables.replies.find? fun entry => entry.key == key with
  | none => .ok none
  | some entry => some <$> entry.read

end Tables

end CodeAtlas.Store
