import CodeAtlas.Store.Catalog.Change
import CodeAtlas.Store.Catalog.Text
import CodeAtlas.Store.Row

/-!
# Statements on catalogs

What the statements of the index do on a database that another program made: its tables may lack
columns, have others besides, keep other things, and refuse what is written to them. A statement that
fails changes nothing, except that a new row stays even if its id cannot be read.
-/

namespace CodeAtlas.Store

open CodeAtlas.Symbol (Reply Stored)
open Time (Timestamp)

structure Slot where
  index : Nat
  name : String
  datum : Datum
deriving DecidableEq

namespace Slot

variable (slot : Slot)

def failure : DatabaseError := .wrongType slot.index slot.name slot.datum.type

/-- Why octets are no text. -/
def flaw (bytes : Bytes) : String :=
  let (_, rest) := Utf8.decodePrefix bytes
  let place := bytes.length - rest.length
  match Utf8.flawLength? rest with
  | some n => s!"invalid utf-8 sequence of {n} bytes from index {place}"
  | none => s!"incomplete utf-8 byte sequence from index {place}"

def text : Result String :=
  match slot.datum with
  | .text bytes =>
    match text? bytes with
    | some text => .ok text
    | none => .error (.conversion slot.index .text (flaw bytes))
  | _ => .error slot.failure

def integer : Result Int :=
  match slot.datum with
  | .integer n => .ok n
  | _ => .error slot.failure

def nat32 : Result Nat := do
  readNat32 slot.index slot.name (.integer (← slot.integer))

def time : Result Timestamp := do
  readTime slot.index slot.name (.integer (← slot.integer))

def nullable {α : Type} (read : Slot → Result α) (slot : Slot) : Result (Option α) :=
  match slot.datum with
  | .null => .ok none
  | _ => some <$> read slot

end Slot

def Relation.slot (relation : Relation) (columns : List String) (tuple : Tuple) (index : Nat) :
    Slot :=
  match columns[index]?.bind relation.table.position? with
  | some position =>
    let name := (relation.table.columns[position]?.map Schema.Column.name).getD ""
    { index, name, datum := tuple.get position }
  | none => { index, name := "", datum := .null }

def readSymbol (slot : Nat → Slot) : Result Stored := do
  let kindName ← (slot 2).text
  let id ← (slot 0).integer
  let name ← (slot 1).text
  let kind ← readKind 2 kindName
  let file ← (slot 3).text
  let line ← (slot 4).nat32
  let column ← (slot 5).nat32
  let repository ← (slot 6).text
  let docstring ← (slot 7).nullable Slot.text
  let parent ← (slot 8).nullable Slot.integer
  let endLine ← (slot 9).nullable Slot.nat32
  let endColumn ← (slot 10).nullable Slot.nat32
  let createdAt ← (slot 11).time
  let updatedAt ← (slot 12).time
  return {
    id
    declaration := {
      name, kind, file, line, column, repository, docstring, parent, endLine, endColumn }
    createdAt
    updatedAt }

def readReply (slot : Nat → Slot) : Result Reply := do
  let comment ← (slot 0).integer
  let pullRequest ← (slot 1).integer
  let repository ← (slot 2).text
  let repliedAt ← (slot 3).time
  return { comment, pullRequest, repository, repliedAt }

end CodeAtlas.Store

namespace CodeAtlas.Store.Catalog

open CodeAtlas.Symbol (Change Declaration Reply Stored)

def subject (catalog : Catalog) (subject : Subject) : Result Relation :=
  match catalog.relation? subject.table with
  | none => .error (noTableFailure subject)
  | some relation => if relation.isDamaged then .error damagedFailure else .ok relation

variable (catalog : Catalog) (relation : Relation) (repository : String) (d : Declaration)

/-- A column that a statement names, where it does so after some other places. -/
def column (text : String) (skipped : Nat) (name : String) : Result Nat :=
  match relation.table.position? name with
  | some position => .ok position
  | none => .error (absentColumn name text (offsetOf text name skipped))

def columns (text : String) (names : List String) : Result (List Nat) :=
  names.mapM (column relation text 0)

/-- A column is not computed from others, so that it can be written. -/
def writable (manner : String) (position : Nat) : Result Nat :=
  match relation.table.columns[position]?.filter fun column => column.source.isSome with
  | some column =>
    .error (logicFailure s!"cannot {manner} generated column \"{column.name}\"")
  | none => .ok position

/-- Data for columns by their names, for a table that has these. -/
def given (table : String) (data : List (String × Datum)) : Result Given :=
  data.mapM fun (name, datum) => do
    match relation.table.position? name with
    | some position => return (← writable relation "INSERT into" position, datum)
    | none => throw (logicFailure s!"table {table} has no column named {name}")

/-- What a declaration gives to the columns of a new row. -/
def declared (now : Int) : List (String × Datum) :=
  [("name", .ofText d.name), ("kind", .ofText d.kind.name), ("file_path", .ofText d.file),
    ("line_number", .integer d.line), ("column_number", .integer d.column),
    ("repository_id", .ofText d.repository), ("docstring", .ofText? d.docstring),
    ("parent_id", .ofInt? d.parent), ("end_line_number", .ofNat? d.endLine),
    ("end_column_number", .ofNat? d.endColumn), ("created_at", .integer now),
    ("updated_at", .integer now)]

/-- The columns that tell one occurrence of a symbol from another. -/
def occurrenceColumns : List String :=
  ["name", "file_path", "repository_id", "line_number", "column_number"]

/-- The columns that are written when an occurrence is declared again. -/
def renewedColumns : List String :=
  ["kind", "docstring", "parent_id", "end_line_number", "end_column_number", "updated_at"]

def occurrence : Result Identity :=
  let positions := occurrenceColumns.filterMap relation.table.position?
  match relation.identities.find? fun identity => identity.isOf positions with
  | some identity => .ok identity
  | none => .error (logicFailure
      "ON CONFLICT clause does not match any PRIMARY KEY or UNIQUE constraint")

/-- Writes a declaration and gives the slot with its id. -/
def upsertSlot (now : Int) : Result (Slot × Catalog) := do
  let relation ← catalog.subject .symbols
  let data ← given relation "symbols" (declared d now)
  let identity ← occurrence relation
  if let some e := catalog.insertFault relation then throw e
  let _ ← column relation upsertText 0 "id"
  let (tuple, catalog) ← catalog.draft relation data
  if let some e := relation.ownRefusal tuple then throw e
  match relation.twin? identity tuple with
  | some old =>
    let renewed := renewedColumns.filterMap relation.table.position?
    let tuple ← relation.amend old (data.filter fun (position, _) => renewed.contains position)
    return (relation.slot ["id"] tuple 0,
      ← catalog.assign relation renewed [(old, tuple)])
  | none =>
    if let some e := relation.sharedRefusal tuple then throw e
    return (relation.slot ["id"] tuple 0, ← catalog.put relation tuple)

def upsert (now : Int) : Result Int × Catalog :=
  match catalog.upsertSlot d now with
  | .ok (slot, catalog) => (slot.integer, catalog)
  | .error e => (.error e, catalog)

def upsertEach (now : Int) : List Declaration → Catalog → Result Catalog
  | [], catalog => .ok catalog
  | d :: ds, catalog =>
    match catalog.upsert d now with
    | (.ok _, catalog) => upsertEach now ds catalog
    | (.error e, _) => .error e

/-- A change of a catalog that is done as a whole or not at all. -/
def whole {α : Type} (result : Result (α × Catalog)) : Result α × Catalog :=
  match result with
  | .ok (a, changed) => (.ok a, changed)
  | .error e => (.error e, catalog)

def upsertAll (ds : List Declaration) (now : Int) : Result Nat × Catalog :=
  catalog.whole ((upsertEach now ds catalog).map (ds.length, ·))

def changed (c : Change) : List (String × Datum) :=
  [("kind", .ofText? (c.kind.map Symbol.Kind.name)), ("docstring", .ofText? c.docstring),
    ("line_number", .ofNat? c.line), ("column_number", .ofNat? c.column),
    ("end_line_number", .ofNat? c.endLine), ("end_column_number", .ofNat? c.endColumn),
    ("parent_id", .ofInt? c.parent)]

def update (id : Int) (c : Change) (now : Int) : Result Bool × Catalog :=
  catalog.whole do
    let relation ← catalog.subject .symbols
    let parts ← (changed c).mapM fun (name, datum) => do
      let position ← column relation updateText 1 name
      return (← writable relation "UPDATE" position, datum)
    let some updatedAt := relation.table.position? "updated_at"
      | throw (logicFailure "no such column: updated_at")
    let _ ← writable relation "UPDATE" updatedAt
    let [idColumn, repositoryColumn] ← columns relation updateText ["id", "repository_id"]
      | return (false, catalog)
    let positions := updatedAt :: parts.map Prod.fst
    if let some e := catalog.updateFault relation positions then throw e
    let given := (updatedAt, .integer now) :: parts.filter fun (_, datum) => datum != .null
    let old := relation.tuples.filter fun tuple =>
      relation.isAt idColumn (.integer id) tuple &&
        relation.isAt repositoryColumn (.ofText repository) tuple
    let changes ← old.mapM fun tuple => return (tuple, ← relation.amend tuple given)
    return (!old.isEmpty, ← catalog.assign relation positions changes)

def deleteWhere (test : Tuple → Bool) : Result (Nat × Catalog) := do
  if let some e := catalog.deleteFault relation then throw e
  catalog.removeAll relation (relation.tuples.filter test)

def deleteFile (file repository : String) : Result Nat × Catalog :=
  catalog.whole do
    let relation ← catalog.subject .symbols
    let fileColumn ← column relation deleteFileText 0 "file_path"
    let repositoryColumn ← column relation deleteFileText 0 "repository_id"
    catalog.deleteWhere relation fun tuple =>
      relation.isAt fileColumn (.ofText file) tuple &&
        relation.isAt repositoryColumn (.ofText repository) tuple

def deleteRepository : Result Nat × Catalog :=
  catalog.whole do
    let relation ← catalog.subject .symbols
    let repositoryColumn ← column relation deleteRepositoryText 0 "repository_id"
    catalog.deleteWhere relation (relation.isAt repositoryColumn (.ofText repository))

/-- Puts a new row into a table, unless it refuses it, and says whether it did. -/
def insertOrSkip (data : Given) : Result (Bool × Catalog) := do
  if let some e := catalog.ownFault relation fun _ => true then throw e
  let (tuple, catalog) ← catalog.draft relation data
  if (relation.nullRefusal tuple).isSome then return (false, catalog)
  if let some e := relation.typeRefusal tuple then throw e
  if (relation.refusal tuple).isSome then return (false, catalog)
  return (true, ← catalog.put relation tuple)

def recordReply (comment pullRequest : Int) (repository : String)
    (time : Int) : Result Bool × Catalog :=
  catalog.whole do
    let relation ← catalog.subject .replies
    let data ← given relation "comment_replies"
      [("comment_id", .integer comment), ("pr_number", .integer pullRequest),
        ("repository_id", .ofText repository), ("replied_at", .integer time)]
    catalog.insertOrSkip relation data

def deleteRepliesBefore (cutoff : Int) : Result Nat × Catalog :=
  catalog.whole do
    let relation ← catalog.subject .replies
    let position ← column relation deleteRepliesText 0 "replied_at"
    catalog.deleteWhere relation fun tuple =>
      relation.compareWith tuple position (.integer cutoff) == some .lt

/-- Whether a name is like a pattern, as far as it has a text. -/
def isNameLike (datum : Datum) (pattern : List Char) : Bool :=
  match datum.shown with
  | some bytes => isLike (Utf8.decodeLossy bytes) pattern
  | none => false

def search (repository query : String) (kind : Option Symbol.Kind)
    (limit : Nat) : Result (List Stored) := do
  let relation ← catalog.subject .symbols
  let _ ← columns relation searchText symbolColumns
  let at_ := fun name => (relation.table.position? name).getD 0
  let inRepository := relation.tuples.filter
    (relation.isAt (at_ "repository_id") (.ofText repository))
  let like := pattern query.toList
  if limit ≠ 0 ∧ patternLimit < octetCount (String.ofList like) ∧ !inRepository.isEmpty then
    throw (logicFailure "LIKE or GLOB pattern too complex")
  let found := inRepository.filter fun tuple =>
    isNameLike (tuple.get (at_ "name")) like &&
      kind.all fun kind => relation.isAt (at_ "kind") (.ofText kind.name) tuple
  let isExact := relation.isAt (at_ "name") (.ofText query)
  let le := fun a b =>
    if isExact a != isExact b then isExact a
    else relation.leBy [at_ "name", at_ "file_path", at_ "line_number"] a b
  ((found.mergeSort le).take limit).mapM fun tuple =>
    readSymbol (relation.slot symbolColumns tuple)

def listed (test : Tuple → Bool) : Result (List Stored) :=
  let at_ := fun name => (relation.table.position? name).getD 0
  let le := relation.leBy [at_ "line_number", at_ "column_number"]
  ((relation.tuples.filter test).mergeSort le).mapM fun tuple =>
    readSymbol (relation.slot symbolColumns tuple)

def holds (data : List (String × Datum)) (tuple : Tuple) : Bool :=
  data.all fun (name, datum) =>
    (relation.table.position? name).any fun position => relation.isAt position datum tuple

def inFile (file repository : String) : Result (List Stored) := do
  let relation ← catalog.subject .symbols
  let _ ← columns relation fileText symbolColumns
  listed relation
    (holds relation [("file_path", .ofText file), ("repository_id", .ofText repository)])

def childrenOf (id : Int) : Result (List Stored) := do
  let relation ← catalog.subject .symbols
  let _ ← columns relation childrenText symbolColumns
  listed relation
    (holds relation [("parent_id", .integer id), ("repository_id", .ofText repository)])

def find (id : Int) : Result (Option Stored) := do
  let relation ← catalog.subject .symbols
  let _ ← columns relation findText symbolColumns
  match relation.tuples.find?
      (holds relation [("id", .integer id), ("repository_id", .ofText repository)]) with
  | none => return none
  | some tuple => some <$> readSymbol (relation.slot symbolColumns tuple)

def count : Result Nat := do
  let relation ← catalog.subject .symbols
  let position ← column relation countText 0 "repository_id"
  return (relation.tuples.filter (relation.isAt position (.ofText repository))).length

def findReply (comment pullRequest : Int) (repository : String) : Result (Option Reply) := do
  let relation ← catalog.subject .replies
  let _ ← columns relation findReplyText replyColumns
  match relation.tuples.find? (holds relation
      [("comment_id", .integer comment), ("pr_number", .integer pullRequest),
        ("repository_id", .ofText repository)]) with
  | none => return none
  | some tuple => some <$> readReply (relation.slot replyColumns tuple)

/-- Runs the statements of a script until one fails; those before it stay done. -/
def runScript : List (String × String) → Catalog → Result Unit × Catalog
  | [], catalog => (.ok (), catalog)
  | (statement, text) :: rest, catalog =>
    match Schema.Definition.read? statement with
    | none => runScript rest catalog
    | some definition =>
      match catalog.define text definition with
      | .ok catalog => runScript rest catalog
      | .error e => (.error e, catalog)

def recordVersion : Result Unit × Catalog :=
  catalog.whole do
    if catalog.hasView "schema_meta" then
      throw (logicFailure "cannot modify schema_meta because it is a view")
    let some relation := catalog.relation? "schema_meta" | return ((), catalog)
    if relation.isDamaged then throw damagedFailure
    let data ← given relation "schema_meta"
      [("key", .ofText "schema_version"), ("value", .integer 1)]
    let (_, catalog) ← catalog.insertOrSkip relation data
    return ((), catalog)

/-- Adds what the index of symbols needs and is not there. -/
def furnish : Result Unit × Catalog :=
  match runScript (statements schemaText) catalog with
  | (.ok (), catalog) => catalog.recordVersion
  | failed => failed

/-- Why what is missing cannot be added, if it is not only that nothing may be written. -/
def lackIn : List (String × String) → Catalog → Option DatabaseError
  | [], catalog =>
    if catalog.hasView "schema_meta" then
      some (logicFailure "cannot modify schema_meta because it is a view")
    else (catalog.relation? "schema_meta").bind fun relation =>
      match given relation "schema_meta" [("key", .null), ("value", .null)] with
      | .error e => some e
      | .ok _ => none
  | (statement, text) :: rest, catalog =>
    match Schema.Definition.read? statement with
    | none => lackIn rest catalog
    | some definition =>
      match catalog.define text definition with
      | .error (.failure 1 detail) => some (.failure 1 detail)
      | .error _ => none
      | .ok defined => if defined = catalog then lackIn rest catalog else none

def lack : Option DatabaseError := lackIn (statements schemaText) catalog

end CodeAtlas.Store.Catalog
