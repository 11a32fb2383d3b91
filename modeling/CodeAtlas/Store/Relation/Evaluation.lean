import CodeAtlas.Store.Relation.Basic

/-!
# Evaluation of expressions

An expression is evaluated where a row is in view. Truth has three values: what is null is neither
true nor false. Two operands are compared as the columns among them would have it. A row has to be
what the definition of its table asks for: no nulls where there must be none, data of the types of
strict columns, true checks, and nothing by which it is the same as another row. The refusals come
in this order.
-/

namespace CodeAtlas.Store

open Schema (Arguments Binary Expression Table Unary sameName)

structure View where
  table : Table
  tuple : Tuple
deriving DecidableEq

namespace View

def empty : View := { table := { name := "" }, tuple := { number := 0, data := [] } }

def numberNames : List String := ["rowid", "oid", "_rowid_"]

/-- Where the column stands that a name is of, perhaps with the name of its table. -/
def position? (view : View) (scope name : String) : Option Nat :=
  if scope = "" ∨ sameName scope view.table.name then view.table.position? name else none

def definition? (view : View) (scope name : String) : Option Schema.Column :=
  (view.position? scope name).bind fun position => view.table.columns[position]?

def get? (view : View) (scope name : String) : Option Datum :=
  match view.position? scope name with
  | some position => some (view.tuple.get position)
  | none =>
    if numberNames.any (sameName name) ∧ !view.table.isKeyed then
      some (.integer view.tuple.number)
    else none

end View

def ofTruth : Option Bool → Datum
  | none => .null
  | some true => .integer 1
  | some false => .integer 0

def realOfFraction (numerator : Int) (denominator : Nat) : Datum :=
  .real (.ofRatio (numerator < 0) numerator.natAbs denominator)

/-- The number that a text starts with, of its first `size` characters at most. -/
def leadingNumeral : (size : Nat) → List Char → Datum
  | 0, _ => .integer 0
  | size + 1, text =>
    match numberOfOctets (Utf8.encode (text.take (size + 1))) with
    | .text _ => leadingNumeral size text
    | number => number

def Datum.toNumber (datum : Datum) : Datum :=
  let ofOctets := fun bytes : Bytes =>
    let text := (Utf8.decodeLossy bytes).dropWhile isSpace
    let body := text.takeWhile fun c => c.isDigit || ['+', '-', '.', 'e', 'E'].contains c
    leadingNumeral body.length body
  match datum with
  | .text bytes => ofOctets bytes
  | .blob bytes => ofOctets bytes
  | _ => datum

def Datum.toInteger (datum : Datum) : Option Int :=
  match datum.toNumber with
  | .integer n => some n
  | .real x => (Cell.real x).fraction?.map fun (n, d) => n.tdiv d
  | _ => none

def Datum.truth (datum : Datum) : Option Bool :=
  match datum.toNumber with
  | .integer n => some (n != 0)
  | .real x => some !x.isZero
  | _ => none

/-- A whole number if it lies within 64 bits, and otherwise a real one. -/
def ofInteger (n : Int) : Datum := if Json.fitsSigned n then .integer n else .real (realOfInt n)

def wrapped (n : Int) : Datum := .integer (n.bmod (2 ^ 64))

def calculate (sign : Binary) (a b : Datum) : Datum :=
  match sign, a.toNumber, b.toNumber with
  | .add, .integer m, .integer n => ofInteger (m + n)
  | .subtract, .integer m, .integer n => ofInteger (m - n)
  | .multiply, .integer m, .integer n => ofInteger (m * n)
  | .divide, .integer m, .integer n => if n = 0 then .null else ofInteger (m.tdiv n)
  | sign, x, y =>
    match (x.number?.bind Cell.fraction?), (y.number?.bind Cell.fraction?) with
    | some (m, p), some (n, q) =>
      match sign with
      | .add => realOfFraction (m * q + n * p) (p * q)
      | .subtract => realOfFraction (m * q - n * p) (p * q)
      | .multiply => realOfFraction (m * n) (p * q)
      | .divide =>
        if n = 0 then .null
        else realOfFraction (if n < 0 then -(m * q) else m * q) (p * n.natAbs)
      | .remainder =>
        let divisor := n.tdiv q
        if divisor = 0 then .null else ofInteger ((m.tdiv p).tmod divisor)
      | .bitAnd => wrapped ((m.tdiv p % 2 ^ 64).toNat &&& (n.tdiv q % 2 ^ 64).toNat : Nat)
      | .bitOr => wrapped ((m.tdiv p % 2 ^ 64).toNat ||| (n.tdiv q % 2 ^ 64).toNat : Nat)
      | .shiftLeft => wrapped (m.tdiv p * 2 ^ (n.tdiv q).toNat)
      | .shiftRight => wrapped (m.tdiv p / 2 ^ (n.tdiv q).toNat)
      | _ => .null
    | _, _ => .null

def affinityIn (view : View) : Expression → Option Affinity
  | .column scope name _ => (view.definition? scope name).map view.table.affinity
  | .cast _ type => some (Schema.affinityOf type)
  | .collate e _ => affinityIn view e
  | _ => none

def sharedAffinity (a b : Option Affinity) : Affinity :=
  match a, b with
  | some x, some y =>
    if [x, y].any fun affinity => affinity == .numeric || affinity == .real then .numeric else .blob
  | some x, none => x
  | none, some y => y
  | none, none => .blob

def askedCollation? : Expression → Option Collation
  | .collate _ name => Collation.ofName? name
  | .unary _ e => askedCollation? e
  | .binary _ a b => (askedCollation? a).or (askedCollation? b)
  | _ => none

def columnCollation? (view : View) : Expression → Option Collation
  | .column scope name _ => (view.definition? scope name).map Schema.Column.order
  | .unary .keep e => columnCollation? view e
  | .cast e _ => columnCollation? view e
  | _ => none

def sharedCollation (view : View) (a b : Expression) : Collation :=
  ((((askedCollation? a).or (askedCollation? b)).or (columnCollation? view a)).or
    (columnCollation? view b)).getD .octets

def compareUnder (affinity : Affinity) (collation : Collation) (x y : Datum) : Ordering :=
  (affinity.keepOperand x).compare collation (affinity.keepOperand y)

def isOrdered (sign : Binary) (order : Ordering) : Bool :=
  match sign with
  | .equal => order == .eq
  | .unequal => order != .eq
  | .less => order == .lt
  | .atMost => order != .gt
  | .more => order == .gt
  | .atLeast => order != .lt
  | _ => false

/-- The atoms of a pattern that has a mark for escapes or none. -/
def atomsWith (mark : Option Char) : List Char → List Atom
  | [] => []
  | [c] => if c = '%' then [.run] else if c = '_' then [.one] else [.letter c]
  | c :: d :: rest =>
    if mark = some c then .letter d :: atomsWith mark rest
    else if c = '%' then .run :: atomsWith mark (d :: rest)
    else if c = '_' then .one :: atomsWith mark (d :: rest)
    else .letter c :: atomsWith mark (d :: rest)

/-- Whether the characters of a set, in which a hyphen stands for a range, have one among them. -/
def setHas (c : Char) : List Char → Bool
  | [] => false
  | a :: '-' :: b :: rest => (decide (a ≤ c) && decide (c ≤ b)) || setHas c rest
  | a :: rest => a == c || setHas c rest

/-- Whether a text is like a pattern with stars, question marks and sets, within `most` steps. -/
def isGlob : (most : Nat) → (pattern text : List Char) → Bool
  | 0, _, _ => false
  | _ + 1, [], text => text.isEmpty
  | most + 1, '*' :: rest, text =>
    isGlob most rest text || (match text with
      | [] => false
      | _ :: more => isGlob most ('*' :: rest) more)
  | most + 1, '?' :: rest, _ :: more => isGlob most rest more
  | most + 1, '[' :: rest, c :: more =>
    let isNegated := rest.head? == some '^'
    let inside := if isNegated then rest.tail else rest
    let first := inside.take 1
    let set := first ++ (inside.drop 1).takeWhile (· ≠ ']')
    (setHas c set != isNegated) &&
      isGlob most ((inside.drop 1).dropWhile (· ≠ ']')).tail more
  | most + 1, p :: rest, c :: more => p == c && isGlob most rest more
  | _ + 1, _ :: _, [] => false

def Datum.chars? (datum : Datum) : Option (List Char) := datum.shown.map Utf8.decodeLossy

def ofChars (text : List Char) : Datum := .text (Utf8.encode text)

def Datum.kindName : Datum → String
  | .null => "null"
  | .integer _ => "integer"
  | .real _ => "real"
  | .text _ => "text"
  | .blob _ => "blob"

/-- A part of a text from a place on, which counts from its end if it is negative. -/
def part (text : List Char) (start : Int) (count : Option Int) : List Char :=
  let size : Int := text.length
  let first : Int := if 0 < start then start - 1 else if start < 0 then size + start else -1
  let stop : Int := match count with
    | none => size
    | some n => if 0 ≤ n then first + n else first
  let first := match count with
    | some n => if n < 0 then first + n else first
    | none => first
  (text.drop first.toNat).take (stop.toNat - first.toNat)

/-- Where a text starts in another, counting from one, or zero. -/
def placeOf (part : List Char) : (text : List Char) → (place : Nat) → Nat
  | [], place => if part.isEmpty then place else 0
  | c :: rest, place =>
    if part.isPrefixOf (c :: rest) then place else placeOf part rest (place + 1)

/-- A text with a part that is not empty replaced by another, everywhere in its first `size`
characters. -/
def replaced (part by_ : List Char) : (size : Nat) → List Char → List Char
  | 0, text => text
  | _ + 1, [] => []
  | size + 1, c :: rest =>
    if part.isPrefixOf (c :: rest) then
      by_ ++ replaced part by_ size ((c :: rest).drop part.length)
    else c :: replaced part by_ size rest

def hexOf (octet : UInt8) : List Char :=
  [octet.toNat / 16, octet.toNat % 16].map fun digit => (Nat.digitChar digit).toUpper

def extreme (order : Ordering) : Datum → List Datum → Datum
  | best, [] => best
  | best, datum :: rest =>
    extreme order (if datum.compare .octets best == order then datum else best) rest

/-- The names of what depends on the moment or on chance: there is always something. -/
def momentNames : List String :=
  ["date", "time", "datetime", "strftime", "julianday", "unixepoch", "random", "randomblob"]

/-- The result of a call. What is not known gives null. -/
def callOn (name : String) (arguments : List Datum) : Datum :=
  let onText := fun (f : List Char → Datum) (datum : Datum) => (datum.chars?.map f).getD .null
  match name, arguments with
  | "coalesce", data => (data.find? (· ≠ .null)).getD .null
  | "ifnull", [a, b] => if a = .null then b else a
  | "nullif", [a, b] => if a.compare .octets b == .eq then .null else a
  | "iif", [a, b, c] => if a.truth = some true then b else c
  | "typeof", [a] => .ofText a.kindName
  | "length", [.blob bytes] => .integer bytes.length
  | "length", [a] => onText (fun text => .integer (untilNul text).length) a
  | "lower", [a] => onText (fun text => ofChars (text.map Char.toLower)) a
  | "upper", [a] => onText (fun text => ofChars (text.map Char.toUpper)) a
  | "trim", [a] => onText (fun text =>
    ofChars ((text.dropWhile (· = ' ')).reverse.dropWhile (· = ' ')).reverse) a
  | "ltrim", [a] => onText (fun text => ofChars (text.dropWhile (· = ' '))) a
  | "rtrim", [a] => onText (fun text => ofChars (text.reverse.dropWhile (· = ' ')).reverse) a
  | "abs", [a] => match a.toNumber with
    | .integer n => .integer n.natAbs
    | .real x => .real (if x.isNegative then x.negate else x)
    | other => other
  | "instr", [a, b] => match a.chars?, b.chars? with
    | some text, some part => .integer (placeOf part text 1)
    | _, _ => .null
  | "substr", [a, b] => match a.chars?, b.toInteger with
    | some text, some start => ofChars (part text start none)
    | _, _ => .null
  | "substr", [a, b, c] => match a.chars?, b.toInteger, c.toInteger with
    | some text, some start, some count => ofChars (part text start (some count))
    | _, _, _ => .null
  | "min", a :: b :: rest => if (a :: b :: rest).contains .null then .null
    else extreme .lt a (b :: rest)
  | "max", a :: b :: rest => if (a :: b :: rest).contains .null then .null
    else extreme .gt a (b :: rest)
  | "hex", [a] => ofChars ((a.shown.getD []).flatMap hexOf)
  | "replace", [a, b, c] => match a.chars?, b.chars?, c.chars? with
    | some text, some part, some by_ =>
      if part.isEmpty then a else ofChars (replaced part by_ text.length text)
    | _, _, _ => .null
  | "likely", [a] => a
  | "unlikely", [a] => a
  | _, _ => if momentNames.contains name then .text [] else .null

def castTo (type : String) (datum : Datum) : Datum :=
  if datum = .null then .null
  else
    match Schema.affinityOf type with
    | .text => .text (datum.shown.getD [])
    | .blob => match datum with
      | .blob bytes => .blob bytes
      | _ => .blob (datum.shown.getD [])
    | .real => match datum.toNumber with
      | .integer n => .real (realOfInt n)
      | number => number
    | .numeric =>
      if occursIn "INT".toList type.toList then (datum.toInteger.map ofInteger).getD .null
      else datum.toNumber

/-- Whether a text is like a pattern, perhaps with a mark for escapes. -/
def likeTruth (text pattern : Datum) (mark : Option Char) : Option Bool := do
  let name ← text.chars?
  let like ← pattern.chars?
  return matchesAtoms (atomsWith mark (untilNul like)) (untilNul name)

def evaluateUnary (sign : Unary) (datum : Datum) : Datum :=
  match sign with
  | .keep => datum
  | .negate => calculate .subtract (.integer 0) datum
  | .invert => match datum.toInteger with
    | some n => .integer (-n - 1)
    | none => .null
  | .not => ofTruth (datum.truth.map not)
  | .isNull => ofTruth (some (datum == .null))
  | .notNull => ofTruth (some (datum != .null))

def bothTrue : Option Bool → Option Bool → Option Bool
  | some false, _ => some false
  | _, some false => some false
  | some true, some true => some true
  | _, _ => none

def oneTrue (a b : Option Bool) : Option Bool :=
  (bothTrue (a.map not) (b.map not)).map not

def evaluateBinary (view : View) (sign : Binary) (a b : Expression) (x y : Datum) : Datum :=
  let affinity := sharedAffinity (affinityIn view a) (affinityIn view b)
  let order := compareUnder affinity (sharedCollation view a b) x y
  match sign with
  | .and => ofTruth (bothTrue x.truth y.truth)
  | .or => ofTruth (oneTrue x.truth y.truth)
  | .same => ofTruth (some (order == .eq))
  | .other => ofTruth (some (order != .eq))
  | .like => ofTruth (likeTruth x y none)
  | .glob => ofTruth do
    let text ← x.chars?
    let pattern ← y.chars?
    return isGlob (2 * (text.length + 1) * (pattern.length + 1)) pattern text
  | .concat => match x.shown, y.shown with
    | some s, some t => .text (s ++ t)
    | _, _ => .null
  | sign =>
    if [.equal, .unequal, .less, .atMost, .more, .atLeast].contains sign then
      if x = .null ∨ y = .null then .null else ofTruth (some (isOrdered sign order))
    else calculate sign x y

mutual

def evaluate (view : View) : Expression → Datum
  | .literal value => value
  | .column scope name isQuoted =>
    (view.get? scope name).getD (if isQuoted then .ofText name else .null)
  | .unary sign e => evaluateUnary sign (evaluate view e)
  | .binary .like a (.call "escape" (.more b (.more c .none))) =>
    let mark := (evaluate view c).chars?.bind List.head?
    ofTruth (likeTruth (evaluate view a) (evaluate view b) mark)
  | .binary sign a b => evaluateBinary view sign a b (evaluate view a) (evaluate view b)
  | .choose condition yes no =>
    if (evaluate view condition).truth = some true then evaluate view yes else evaluate view no
  | .call name arguments => callOn name (evaluateAll view arguments)
  | .cast e type => castTo type (evaluate view e)
  | .collate e _ => evaluate view e

def evaluateAll (view : View) : Arguments → List Datum
  | .none => []
  | .more first rest => evaluate view first :: evaluateAll view rest

end

def Schema.Column.initial (column : Schema.Column) : Datum := evaluate .empty column.default

namespace Schema.Table

/-- A row with the columns that are computed from others, in `rounds` of them. -/
def compute (table : Table) : (rounds : Nat) → Tuple → Tuple
  | 0, tuple => tuple
  | rounds + 1, tuple =>
    let data := table.columns.zipIdx.map fun (column, position) =>
      match column.source with
      | some e => (table.affinity column).keep (evaluate { table, tuple } e)
      | none => tuple.get position
    compute table rounds { tuple with data }

def computed (table : Table) : List Column :=
  table.columns.filter fun column => column.source.isSome

def complete (table : Table) (tuple : Tuple) : Tuple := table.compute table.computed.length tuple

def names (table : Table) (positions : List Nat) (e : Expression) : Bool :=
  e.columns.any fun name => (table.position? name).any positions.contains

/-- Positions of columns, with those of the columns that are computed from them, in `rounds`. -/
def affected (table : Table) : (rounds : Nat) → (positions : List Nat) → List Nat
  | 0, positions => positions
  | rounds + 1, positions =>
    let more := table.columns.zipIdx.filterMap fun (column, position) =>
      if !positions.contains position && column.source.any (table.names positions) then
        some position
      else none
    affected table rounds (positions ++ more)

end Schema.Table

def Schema.Table.meets (table : Table) (condition : Option Expression) (tuple : Tuple) : Bool :=
  condition.all fun e => (evaluate { table, tuple } e).truth == some true

end CodeAtlas.Store

namespace CodeAtlas.Store.Relation

variable (relation : Relation) (tuple : Tuple) (changed : Option (List Nat) := none)

def nullFailure (position : Nat) : DatabaseError :=
  .failure 19 (some ("NOT NULL constraint failed: " ++ relation.table.fullName position))

def checkFailure (check : Schema.Check) : DatabaseError :=
  .failure 19 (some ("CHECK constraint failed: " ++ check.label))

/-- A column of a type does not take what is to be written to it. -/
def typeFailure (position : Nat) (type : String) (datum : Datum) : DatabaseError :=
  let column := relation.table.fullName position
  let kind := match datum with
    | .integer _ => "INT"
    | other => other.type.name.map Char.toUpper
  .failure 19 (some ("cannot store " ++ kind ++ " value in " ++ type ++ " column " ++ column))

/-- Whether a column refuses null. Columns of the primary key do if rows have no number, or if the
table is strict. -/
def refusesNull (position : Nat) (column : Schema.Column) : Bool :=
  let table := relation.table
  column.notNull || ((table.isKeyed || table.isStrict) &&
    table.primary?.any fun (key : Schema.Key) =>
      key.parts.any fun part => table.position? part.column == some position)

/-- The first column that must not be null but is, of all or of those that change. Columns that are
computed come after the others. -/
def nullRefusal : Option DatabaseError :=
  let nulls := relation.table.columns.zipIdx.filter fun (column, i) =>
    (changed.all fun positions => positions.contains i) && relation.refusesNull i column &&
      tuple.get i == .null && relation.table.number? != some i
  ((nulls.find? fun (column, _) => column.source.isNone).or nulls.head?).map fun (_, i) =>
    relation.nullFailure i

def typeTakes (type : String) (datum : Datum) : Bool :=
  match datum with
  | .null => true
  | .integer _ => ["INT", "INTEGER", "ANY"].any (Schema.sameName type)
  | .real _ => ["REAL", "ANY"].any (Schema.sameName type)
  | .text _ => ["TEXT", "ANY"].any (Schema.sameName type)
  | .blob _ => ["BLOB", "ANY"].any (Schema.sameName type)

/-- The first column that is strict about its type and does not take what it should. -/
def typeRefusal : Option DatabaseError :=
  if relation.table.isStrict then
    (relation.table.columns.zipIdx.find? fun (column, i) =>
      !typeTakes column.type (tuple.get i)).map fun (column, i) =>
        relation.typeFailure i (column.type.map Char.toUpper) (tuple.get i)
  else none

/-- The first check that is false, of all or of those about columns that change. -/
def checkRefusal : Option DatabaseError :=
  let table := relation.table
  (table.checks.find? fun check =>
    (changed.all fun positions => table.names positions check.expression) &&
      (evaluate { table, tuple } check.expression).truth == some false).map checkFailure

def twin? (identity : Identity) (tuple : Tuple) : Option Tuple :=
  relation.tuples.find? fun other => identity.agree tuple other

def hasTwin (unique : Unique) : Bool :=
  let meets := relation.table.meets unique.condition
  meets tuple && relation.tuples.any fun other =>
    unique.identity.agree tuple other && meets other

def twinRefusal : Option DatabaseError :=
  (relation.uniques.find? (relation.hasTwin tuple)).map fun unique =>
    relation.sameFailure unique.identity

def numberRefusal : Option DatabaseError := do
  let position ← relation.table.number?
  if relation.tuples.any fun other => other.number == tuple.number then
    return relation.sameFailure [(position, .octets)]
  else none

/-- Why a row cannot stand by itself, in view of all columns or of those that change. -/
def ownRefusal : Option DatabaseError :=
  ((relation.nullRefusal tuple changed).or (relation.typeRefusal tuple)).or
    (relation.checkRefusal tuple changed)

def sharedRefusal : Option DatabaseError :=
  (relation.numberRefusal tuple).or (relation.twinRefusal tuple)

def refusal : Option DatabaseError :=
  (relation.ownRefusal tuple).or (relation.sharedRefusal tuple)

/-- Whether the rows can be read and are what the definition of the table asks for.
-/
def isSound : Bool :=
  !relation.isDamaged && relation.tuples.all fun tuple =>
    (relation.nullRefusal tuple).isNone && (relation.checkRefusal tuple).isNone

end CodeAtlas.Store.Relation
