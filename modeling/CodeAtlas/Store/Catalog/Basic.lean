import CodeAtlas.Store.Relation.Evaluation

/-!
# Catalogs

A `Catalog` is a database that another program made: its relations and the names of its views. A
definition adds to it what is not there yet. Rows may refer to rows of a relation by some of their
columns: a `Bond` pairs these columns with those that they have to be equal to. A row that has a
null among them refers to nothing.
-/

namespace CodeAtlas.Store

open Schema (Definition Index Table sameName)

/-- The relations and views of a database, in the order in which they were made. -/
structure Catalog where
  relations : List Relation := []
  views : List String := []
  /-- Whether the file has no place for another table or index. -/
  isStuck : Bool := false
deriving DecidableEq

def logicFailure (text : String) : DatabaseError := .failure 1 (some text)

/-- A column that is not there, at an octet of the text of a statement. -/
def absentColumn (name text : String) (offset : Nat) : DatabaseError :=
  logicFailure s!"no such column: {name} in {text} at offset {offset}"

namespace Catalog

variable (catalog : Catalog) (name : String)

def relation? : Option Relation :=
  catalog.relations.find? fun relation => sameName relation.table.name name

def hasView : Bool := catalog.views.any (sameName name)

def hasTable : Bool :=
  (catalog.relation? name).isSome || catalog.hasView name

def hasIndex : Bool :=
  catalog.relations.any fun relation => relation.indexes.any fun index => sameName index.name name

def replace (relation : Relation) : Catalog :=
  { catalog with relations := catalog.relations.map fun other =>
      if sameName other.table.name relation.table.name then relation else other }

/-- Two rows of a relation that are the same by an identity. -/
def hasTwins (identity : Identity) : List Tuple → Bool
  | [] => false
  | tuple :: rest => rest.any (identity.agree tuple) || hasTwins identity rest

def defineTable (table : Table) : Result Catalog :=
  if catalog.hasTable table.name then .ok catalog
  else if catalog.hasIndex table.name then
    .error (logicFailure s!"there is already an index named {table.name}")
  else if catalog.isStuck then .error damagedFailure
  else .ok { catalog with relations := catalog.relations ++ [{ table }] }

/-- Adds an index, unless there is one of its name. The text is that of its definition. -/
def defineIndex (text : String) (index : Index) : Result Catalog := do
  if catalog.hasView index.table then throw (logicFailure "views may not be indexed")
  let some relation := catalog.relation? index.table
    | throw (logicFailure s!"no such table: main.{index.table}")
  if relation.table.isVirtual then throw (logicFailure "virtual tables may not be indexed")
  if catalog.hasTable index.name then
    throw (logicFailure s!"there is already a table named {index.name}")
  if catalog.hasIndex index.name then return catalog
  match index.parts.find? fun part => (relation.table.position? part.column).isNone with
  | some part => throw (absentColumn part.column text part.offset)
  | none =>
    if relation.isDamaged || catalog.isStuck then throw damagedFailure
    let identity := (relation.table.identity? index.parts).getD []
    if index.isUnique && hasTwins identity relation.tuples then
      throw (relation.sameFailure identity)
    return catalog.replace { relation with indexes := index :: relation.indexes }

def define (text : String) : Definition → Result Catalog
  | .table table => catalog.defineTable table
  | .index index => catalog.defineIndex text index
  | .view name => .ok { catalog with views := catalog.views ++ [name] }

end Catalog

open Schema (Action Reference Table sameName)

/-- How the rows of one relation refer to those of another: pairs of columns of either. -/
structure Bond where
  child : String
  parent : String
  pairs : List (Nat × Nat)
  onDelete : Action
  onUpdate : Action
deriving DecidableEq

def Bond.joins (bond : Bond) (parent : Relation) (a b : Tuple) : Bool :=
  bond.pairs.all fun (own, other) => parent.isAt other (a.get own) b

/-- The columns that are referred to are no identity. -/
def bondFailure (child parent : String) : DatabaseError :=
  logicFailure ("foreign key mismatch - \"" ++ child ++ "\" referencing \"" ++ parent ++ "\"")

namespace Relation

/-- The columns of a relation that a reference is about, in its order: those that it names if they
are an identity, or the primary key. -/
def referred? (relation : Relation) (reference : Reference) : Option (List Nat) :=
  let table := relation.table
  match reference.keys with
  | [] =>
    match table.number?, table.primary? with
    | some position, _ => if reference.columns.length = 1 then some [position] else none
    | none, some key =>
      if key.parts.length = reference.columns.length then
        key.parts.mapM fun part => table.position? part.column
      else none
    | none, none => none
  | keys => do
    let positions ← keys.mapM table.position?
    if table.number?.any fun position => positions == [position] then return positions
    let isPlain := fun identity : Identity => identity.all fun (position, collation) =>
      (table.columns[position]?.map Schema.Column.order) == some collation
    if relation.identities.any fun identity => isPlain identity && identity.isOf positions then
      return positions
    else none

end Relation

namespace Catalog

variable (catalog : Catalog) (relation : Relation)

def bond (table : Table) (reference : Reference) : Result Bond := do
  let failure := bondFailure table.name reference.table
  if catalog.hasView reference.table then throw failure
  let some parent := catalog.relation? reference.table
    | throw (logicFailure s!"no such table: main.{reference.table}")
  match reference.columns.mapM table.position?, parent.referred? reference with
  | some columns, some positions =>
    return {
      child := table.name
      parent := parent.table.name
      pairs := columns.zip positions
      onDelete := reference.onDelete
      onUpdate := reference.onUpdate }
  | _, _ => throw failure

def bondFault (table : Table) (reference : Reference) : Option DatabaseError :=
  match catalog.bond table reference with
  | .ok _ => none
  | .error e => some e

/-- The references to a relation with the tables that have them, the newest first. -/
def referencesTo : List (Table × Reference) :=
  catalog.relations.reverse.flatMap fun child =>
    (child.table.references.reverse.filter fun reference =>
      sameName reference.table relation.table.name).map (child.table, ·)

def bondsOf : List Bond :=
  relation.table.references.reverse.filterMap fun reference =>
    (catalog.bond relation.table reference).toOption

def bondsTo : List Bond :=
  (catalog.referencesTo relation).filterMap fun (table, reference) =>
    (catalog.bond table reference).toOption

/-- The first reference of a relation, of those that satisfy a test, that makes no bond. -/
def ownFault (test : Reference → Bool) : Option DatabaseError :=
  (relation.table.references.reverse.filter test).findSome? (catalog.bondFault relation.table)

/-- The first reference to a relation, of those that satisfy a test, that makes no bond. -/
def backFault (test : Reference → Bool) : Option DatabaseError :=
  (catalog.referencesTo relation).findSome? fun (table, reference) =>
    if test reference then catalog.bondFault table reference else none

/-- Why no row can be put into a relation, as far as references go. -/
def insertFault : Option DatabaseError :=
  (catalog.ownFault relation fun _ => true).or (catalog.backFault relation fun _ => true)

/-- Why no row can be taken out of a relation, as far as references go. -/
def deleteFault : Option DatabaseError :=
  (catalog.backFault relation fun reference => reference.onDelete != .nothing).or
    (catalog.insertFault relation)

def isOwnAmong (table : Table) (positions : List Nat) (reference : Reference) : Bool :=
  reference.columns.any fun name => (table.position? name).any positions.contains

def isBackAmong (table : Table) (positions : List Nat) (reference : Reference) : Bool :=
  let keys := match reference.keys with
    | [] => (table.primary?.map fun (key : Schema.Key) => key.parts.map Schema.Part.column).getD []
    | keys => keys
  keys.any fun name => (table.position? name).any positions.contains

/-- Why some columns of the rows of a relation cannot be changed, as far as references go. -/
def updateFault (positions : List Nat) : Option DatabaseError :=
  let table := relation.table
  let isOwn := isOwnAmong table positions
  let isBack := isBackAmong table positions
  if table.references.any isOwn ∨
      ((catalog.referencesTo relation).any fun (_, reference) => isBack reference) then
    ((catalog.ownFault relation fun reference =>
      isOwn reference || sameName reference.table table.name).or
        (catalog.backFault relation isBack)).or (catalog.backFault relation fun _ => true)
  else none

/-- Whether what a row refers to by a bond is there. -/
def isMet (tuple : Tuple) (bond : Bond) : Bool :=
  (bond.pairs.any fun (own, _) => tuple.get own == .null) ||
    (catalog.relation? bond.parent).any fun parent => parent.tuples.any (bond.joins parent tuple)

end Catalog

end CodeAtlas.Store
