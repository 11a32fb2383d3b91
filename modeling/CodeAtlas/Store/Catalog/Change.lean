import CodeAtlas.Store.Catalog.Basic

/-!
# Changes of relations

New rows, other data in rows, and rows that go. What happens to the rows that refer to a row which
changes or goes, their references say. A change that a relation refuses fails, and so does one that
leaves references loose: these are counted while it is made.
-/

namespace CodeAtlas.Store

open Schema (Action sameName)

/-- No number is left for a row. -/
def fullFailure : DatabaseError := .failure 13 (some "database or disk is full")

def numberLimit : Int := 2 ^ 63 - 1

abbrev Given := List (Nat × Datum)

namespace Relation

variable (relation : Relation)

/-- What columns keep of what is given for them, and of what `rest` has for the others. -/
def fill (given : Given) (rest : Nat → Schema.Column → Datum) : List Datum :=
  relation.keep (relation.table.columns.zipIdx.map fun (column, i) =>
    (given.lookup i).getD (rest i column))

def numberIn (data : List Datum) : Result (Option Int) :=
  match relation.table.number? with
  | none => .ok none
  | some position =>
    match data[position]? with
    | some (.integer n) => .ok (some n)
    | some .null => .ok none
    | none => .ok none
    | some _ => .error mismatchFailure

/-- A row with a number, which is also in the column that stands for it. -/
def numbered (number : Int) (data : List Datum) : Tuple :=
  match relation.table.number? with
  | some position => { number, data := data.set position (.integer number) }
  | none => { number, data }

def amend (tuple : Tuple) (given : Given) : Result Tuple := do
  let data := relation.fill given fun i _ => tuple.get i
  match ← relation.numberIn data with
  | some number => return relation.table.complete (relation.numbered number data)
  | none =>
    if relation.table.number?.isSome then throw mismatchFailure
    return relation.table.complete { number := tuple.number, data }

end Relation

namespace Catalog

/-- The relation with the greatest numbers that were given to rows. -/
def sequenceName : String := "sqlite_sequence"

/-- The name of a relation among the greatest numbers. -/
def isSequenceOf (relation : Relation) (tuple : Tuple) : Bool :=
  tuple.get 0 == .ofText relation.table.name

variable (catalog : Catalog)

/-- The greatest number that was ever given to a row of a relation. -/
def sequence (relation : Relation) : Int :=
  match (catalog.relation? sequenceName).bind fun other =>
      other.tuples.find? (isSequenceOf relation) with
  | some tuple =>
    match Affinity.numeric.keep (tuple.get 1) with
    | .integer n => n
    | _ => 0
  | none => 0

def setSequence (relation : Relation) (number : Int) : Catalog :=
  match catalog.relation? sequenceName with
  | none => catalog
  | some other =>
    let data := [.ofText relation.table.name, .integer number]
    let tuples :=
      if other.tuples.any (isSequenceOf relation) then
        other.tuples.map fun tuple =>
          if isSequenceOf relation tuple then { tuple with data } else tuple
      else other.tuples ++ [{ number := (other.lastNumber?.getD 0) + 1, data }]
    catalog.replace { other with tuples }

def nextNumber (relation : Relation) : Result Int := do
  let last := relation.lastNumber?
  let least := if relation.table.counts then catalog.sequence relation else 0
  if last = some numberLimit ∨ least = numberLimit then throw fullFailure
  match last with
  | none => return if relation.table.counts then max 1 (least + 1) else 1
  | some n => return if relation.table.counts then max (n + 1) (least + 1) else n + 1

/-- A new row with what is given for its columns, not yet put into its relation, and the catalog in
which its number counts as given. -/
def draft (relation : Relation) (given : Given) : Result (Tuple × Catalog) := do
  let data := relation.fill given fun i column =>
    if relation.table.number? = some i then .null else column.initial
  let number ← match ← relation.numberIn data with
    | some number => pure number
    | none => catalog.nextNumber relation
  let catalog := if relation.table.counts then
      catalog.setSequence relation (max number (catalog.sequence relation))
    else catalog
  return (relation.table.complete (relation.numbered number data), catalog)

end Catalog

/-- A change that is being made: the catalog so far, and how many references lead nowhere for it. -/
structure Progress where
  catalog : Catalog
  loose : Nat := 0
deriving DecidableEq

namespace Progress

variable (progress : Progress) (relation : Relation)

def release (count : Nat) : Progress :=
  { progress with loose := progress.loose - count }

def loosen (count : Nat) : Progress :=
  { progress with loose := progress.loose + count }

/-- How many of some bonds of a row lead nowhere. -/
def unmet (bonds : List Bond) (tuple : Tuple) : Nat :=
  (bonds.filter fun bond => !progress.catalog.isMet tuple bond).length

/-- The rows that refer to a row by a bond. -/
def followers (tuple : Tuple) (bond : Bond) : List Tuple :=
  ((progress.catalog.relation? bond.child).map fun child =>
    child.tuples.filter fun other => bond.joins relation other tuple).getD []

/-- How many rows other than itself refer to a row by some bonds. -/
def following (tuple : Tuple) (bonds : List Bond) : Nat :=
  (bonds.flatMap fun bond => (progress.followers relation tuple bond).filter fun other =>
    !(sameName bond.child relation.table.name && other.number == tuple.number)).length

def put (tuple : Tuple) : Progress :=
  let catalog := progress.catalog
  let placed := { progress with catalog := catalog.replace (relation.place tuple) }
  (placed.loosen (placed.unmet (catalog.bondsOf relation) tuple)).release
    (placed.following relation tuple (catalog.bondsTo relation))

/-- The bonds of a relation by some columns, and those to itself. -/
def bondsBy (catalog : Catalog) (relation : Relation) (positions : List Nat) : List Bond :=
  (catalog.bondsOf relation).filter fun bond =>
    sameName bond.parent relation.table.name ||
      bond.pairs.any fun (own, _) => positions.contains own

/-- Puts a row in the place of another that differs in some columns, if the relation admits it. -/
def exchange (positions : List Nat) (old new : Tuple) : Result Progress :=
  let catalog := progress.catalog
  let own := bondsBy catalog relation positions
  let moved := (catalog.bondsTo relation).filter fun bond =>
    bond.pairs.any fun (_, other) => positions.contains other
  let without := relation.erase old.number
  let changed := relation.table.affected relation.table.computed.length positions
  match (without.ownRefusal new (some changed)).or (without.sharedRefusal new) with
  | some e => .error e
  | none =>
    let progress := progress.release (progress.unmet own old)
    let progress := progress.loosen (progress.following relation old moved)
    let progress := { progress with catalog := catalog.replace (without.place new) }
    let progress := progress.loosen (progress.unmet own new)
    .ok (progress.release (progress.following relation new moved))

/-- What a reference gives to the columns of a row, when it does not leave it as it is. -/
def redirected (action : Action) (bond : Bond) (child : Relation) (new : Option Tuple) : Given :=
  bond.pairs.map fun (own, other) =>
    match action, new with
    | .cascade, some new => (own, new.get other)
    | .setDefault, _ =>
      (own, (child.table.columns[own]?.map Schema.Column.initial).getD .null)
    | _, _ => (own, .null)

/-- Puts a row in the place of another that differs in some columns, and changes the rows that refer
to it, at most `depth` times in a row. -/
def amend : (depth : Nat) → Progress → Relation → (positions : List Nat) → (old new : Tuple) →
    Result Progress
  | 0, _, _, _, _, _ => .error foreignKeyFailure
  | depth + 1, progress, relation, positions, old, new => do
    let back := (progress.catalog.bondsTo relation).filter fun bond =>
      bond.pairs.any fun (_, other) => old.get other != new.get other
    let progress ← progress.exchange relation positions old new
    back.foldlM (fun (progress : Progress) bond => do
      let followers := progress.followers relation old bond
      if followers.isEmpty ∨ bond.onUpdate = .nothing then return progress
      if bond.onUpdate = .restrict then throw foreignKeyFailure
      followers.foldlM (fun (progress : Progress) tuple => do
        let some child := progress.catalog.relation? bond.child | return progress
        let given := redirected bond.onUpdate bond child (some new)
        amend depth progress child (given.map Prod.fst) tuple (← child.amend tuple given))
        progress) progress

/-- How many times in a row a change may lead to another. -/
def depthLimit : Nat := 1000

def has (name : String) (tuple : Tuple) : Option Relation :=
  (progress.catalog.relation? name).filter fun relation =>
    relation.tuples.any fun other => other.number == tuple.number

/-- Takes a row out of a relation, and does with the rows that refer to it what their references
say, at most `depth` times in a row. -/
def remove : (depth : Nat) → Progress → Relation → Tuple → Result Progress
  | 0, _, _, _ => .error foreignKeyFailure
  | depth + 1, progress, relation, gone => do
    let catalog := progress.catalog
    let back := catalog.bondsTo relation
    let progress := progress.release (progress.unmet (catalog.bondsOf relation) gone)
    let progress := progress.loosen (progress.following relation gone back)
    let progress := { progress with catalog := catalog.replace (relation.erase gone.number) }
    back.foldlM (fun (progress : Progress) bond => do
      let followers := progress.followers relation gone bond
      if followers.isEmpty ∨ bond.onDelete = .nothing then return progress
      if bond.onDelete = .restrict then throw foreignKeyFailure
      followers.foldlM (fun (progress : Progress) tuple => do
        let some child := progress.has bond.child tuple | return progress
        if bond.onDelete = .cascade then remove depth progress child tuple
        else
          let given := redirected bond.onDelete bond child none
          amend depthLimit progress child (given.map Prod.fst) tuple (← child.amend tuple given))
        progress) progress

/-- Takes rows out of a relation one after the other, unless they have gone with one before them,
and gives the number of those that were taken out. -/
def removeEach (name : String) : List Tuple → Progress → Result (Nat × Progress)
  | [], progress => .ok (0, progress)
  | tuple :: rest, progress => do
    match progress.has name tuple with
    | some relation =>
      let (count, progress) ← removeEach name rest (← remove depthLimit progress relation tuple)
      return (count + 1, progress)
    | none => removeEach name rest progress

/-- Puts rows in the place of others that differ in some columns, one after the other. -/
def amendEach (name : String) (positions : List Nat) :
    List (Tuple × Tuple) → Progress → Result Progress
  | [], progress => .ok progress
  | (old, new) :: rest, progress => do
    match progress.has name old with
    | some relation =>
      amendEach name positions rest (← amend depthLimit progress relation positions old new)
    | none => amendEach name positions rest progress

/-- The catalog after a change, unless references are loose. -/
def finish : Result Catalog :=
  if progress.loose = 0 then .ok progress.catalog else .error foreignKeyFailure

end Progress

namespace Catalog

def put (catalog : Catalog) (relation : Relation) (tuple : Tuple) : Result Catalog :=
  (Progress.put { catalog } relation tuple).finish

def assign (catalog : Catalog) (relation : Relation) (positions : List Nat)
    (changes : List (Tuple × Tuple)) : Result Catalog := do
  (← Progress.amendEach relation.table.name positions changes { catalog }).finish

def removeAll (catalog : Catalog) (relation : Relation) (gone : List Tuple) :
    Result (Nat × Catalog) := do
  let (count, progress) ← Progress.removeEach relation.table.name gone { catalog }
  return (count, ← progress.finish)

end Catalog

end CodeAtlas.Store
