import CodeAtlas.Store.Like
import CodeAtlas.Store.Schema.Definition

/-!
# Tables of other programs

A `Relation` is a table as its definition says, with its rows in their order. An `Identity` is a list
of columns by which a row is told from every other row; a row with a null among them is like no other.
-/

namespace CodeAtlas.Store

namespace Schema

/-- Whether two names are the same: the case of Latin letters makes no difference. -/
def sameName (a b : String) : Bool := Text.sameUpToCase a.toList b.toList

def affinityOf (type : String) : Affinity :=
  let has := fun part : String => occursIn part.toList type.toList
  if has "INT" then .numeric
  else if ["CHAR", "CLOB", "TEXT"].any has then .text
  else if type = "" ∨ has "BLOB" then .blob
  else if ["REAL", "FLOA", "DOUB"].any has then .real
  else .numeric

def Column.order (column : Column) : Collation :=
  (Collation.ofName? column.collation).getD .octets

namespace Table

variable (table : Table)

def position? (name : String) : Option Nat :=
  table.columns.findIdx? fun column => sameName column.name name

def affinity (column : Column) : Affinity :=
  if table.isStrict ∧ sameName column.type "ANY" then .blob else affinityOf column.type

def fullName (position : Nat) : String :=
  match table.columns[position]? with
  | some column => table.name ++ "." ++ column.name
  | none => table.name

def primary? : Option Key := table.keys.find? Key.isPrimary

/-- Where the column stands that is the number of a row, unless rows have none. -/
def whole? : Option Nat := do
  let key ← table.primary?
  let [part] := key.parts | none
  let position ← table.position? part.column
  let column ← table.columns[position]?
  if sameName column.type "INTEGER" ∧ !key.isFalling then return position else none

def number? : Option Nat := if table.isKeyed then none else table.whole?

def counts (table : Table) : Bool :=
  table.number?.isSome && table.primary?.any Key.counts

end Table

end Schema

/-- Columns that tell a row from all others, and the order of their texts. -/
abbrev Identity := List (Nat × Collation)

/-- The columns of a key or an index. -/
def Schema.Table.identity? (table : Schema.Table) (parts : List Schema.Part) : Option Identity :=
  parts.mapM fun part => do
    let position ← table.position? part.column
    let column ← table.columns[position]?
    return (position, (part.collation.bind Collation.ofName?).getD column.order)

/-- The columns of the primary key, if rows have no number beside it. -/
def Schema.Table.order? (table : Schema.Table) : Option Identity := do
  if !table.isKeyed then none
  table.identity? (← table.primary?).parts

/-- What tells rows apart, or those of them that satisfy a condition. -/
structure Unique where
  identity : Identity
  condition : Option Schema.Expression := none
deriving DecidableEq

structure Tuple where
  number : Int
  data : List Datum
deriving DecidableEq

def Tuple.get (tuple : Tuple) (position : Nat) : Datum := tuple.data[position]?.getD .null

/-- A table with its rows, and its indexes from the newest to the oldest. -/
structure Relation where
  table : Schema.Table
  indexes : List Schema.Index := []
  tuples : List Tuple := []
  isDamaged : Bool := false
deriving DecidableEq

namespace Identity

def agree (identity : Identity) (a b : Tuple) : Bool :=
  identity.all fun (position, collation) =>
    a.get position != .null && (a.get position).compare collation (b.get position) == .eq

def le (identity : Identity) (a b : Tuple) : Bool :=
  match identity with
  | [] => true
  | (position, collation) :: rest =>
    match (a.get position).compare collation (b.get position) with
    | .lt => true
    | .gt => false
    | .eq => le rest a b

/-- Whether an identity has just some columns, in any order. -/
def isOf (identity : Identity) (positions : List Nat) : Bool :=
  identity.length == positions.length && positions.all fun p => identity.any fun (q, _) => p == q

end Identity

namespace Relation

variable (relation : Relation)

/-- What tells rows apart, the newest first. The number of a row is none of it. -/
def uniques : List Unique :=
  let table := relation.table
  let indexes := relation.indexes.filter fun index => index.isUnique && !index.isSpecial
  let others := table.keys.filter fun key => !key.isPrimary
  let keys :=
    if table.whole?.isNone then table.keys
    else if table.isKeyed then others ++ table.keys.filter Schema.Key.isPrimary
    else others
  let ofIndexes := indexes.filterMap fun index =>
    (table.identity? index.parts).map fun identity => { identity, condition := index.condition }
  let ofKeys := keys.reverse.filterMap fun key =>
    (table.identity? key.parts).map fun identity => { identity, condition := none }
  ofIndexes ++ ofKeys

def identities : List Identity :=
  (relation.uniques.filter fun unique => unique.condition.isNone).map Unique.identity

def sameFailure (identity : Identity) : DatabaseError :=
  let names := identity.map fun (position, _) => relation.table.fullName position
  .failure 19 (some ("UNIQUE constraint failed: " ++ ", ".intercalate names))

/-- A number of a row is something else than a number. -/
def mismatchFailure : DatabaseError := .failure 20 (some "datatype mismatch")

def le (relation : Relation) (a b : Tuple) : Bool :=
  match relation.table.order? with
  | some identity => identity.le a b
  | none => a.number ≤ b.number

def place (tuple : Tuple) : Relation :=
  let isBefore := fun other => relation.le other tuple
  { relation with
    tuples := relation.tuples.takeWhile isBefore ++ tuple :: relation.tuples.dropWhile isBefore }

def erase (number : Int) : Relation :=
  { relation with tuples := relation.tuples.filter fun tuple => tuple.number ≠ number }

def lastNumber? : Option Int := (relation.tuples.map Tuple.number).max?

def keep (relation : Relation) (data : List Datum) : List Datum :=
  (relation.table.columns.zip data).map fun (column, datum) =>
    (relation.table.affinity column).keep datum

/-- What is in a column of a row, compared with something from outside. -/
def compareWith (tuple : Tuple) (position : Nat) (operand : Datum) : Option Ordering := do
  let column ← relation.table.columns[position]?
  let operand := (relation.table.affinity column).keepOperand operand
  if tuple.get position = .null ∨ operand = .null then none
  return (tuple.get position).compare column.order operand

def isAt (position : Nat) (operand : Datum) (tuple : Tuple) : Bool :=
  relation.compareWith tuple position operand == some .eq

def compareBy (position : Nat) (a b : Tuple) : Ordering :=
  let order := (relation.table.columns[position]?.map Schema.Column.order).getD .octets
  (a.get position).compare order (b.get position)

def leBy (relation : Relation) (positions : List Nat) (a b : Tuple) : Bool :=
  match positions with
  | [] => true
  | position :: rest =>
    match relation.compareBy position a b with
    | .lt => true
    | .gt => false
    | .eq => leBy relation rest a b

end Relation

end CodeAtlas.Store
