import CodeAtlas.Yaml.Document
import CodeAtlas.Yaml.Scalar

/-!
# Documents that mean something

A document can be well formed and still mean nothing: when a mapping has a key twice, when a tag
does not suit its scalar, when an integer is too large, when nesting is too deep, or when aliases
have to be followed too often. The meaning of a node is a `Datum`; the order of the pairs of a
mapping does not count.
-/

namespace CodeAtlas.Yaml

def coreTag (name : String) : Bytes := octets ("tag:yaml.org,2002:" ++ name)

/-- The name of a type that is not a core type, which stands behind an exclamation mark. A mark
alone is a name too, and octets that are no text are none. -/
def ownTag? (tag : Option Bytes) : Option String :=
  match tag with
  | some (0x21 :: rest) => text? (if rest.isEmpty then [0x21] else rest)
  | _ => none

/-- What a scalar means; a tag of a core type has to suit it. -/
def scalarMeaning? (tag : Option Bytes) (style : Style) (text : String) : Option Meaning :=
  match tag with
  | none => if style = .plain then Scalar.meaning? text else some (.text text)
  | some tag =>
    if tag = coreTag "bool" then (Scalar.bool? text).map .bool
    else if tag = coreTag "int" then do
      let n ← Scalar.int? text.toList
      if Scalar.fits n then some (.int n) else none
    else if tag = coreTag "float" then (Scalar.real? text).map .real
    else if tag = coreTag "null" then if Scalar.isNull text then some .null else none
    else if tag.head? = some 0x21 ∧ style = .plain then Scalar.meaning? text
    else some (.text text)

/-- Whether two scalars mean the same: the two zeros do, and so do two that are no numbers. -/
def Meaning.same : Meaning → Meaning → Bool
  | .real x, .real y =>
    x == y || (x.isZero && y.isZero) || (!x.isNumber && !y.isNumber)
  | a, b => a == b

inductive Datum where
  | scalar (meaning : Meaning)
  | sequence (elements : List Datum)
  | mapping (pairs : List (Datum × Datum))
  | tagged (tag : String) (datum : Datum)

namespace Datum

mutual

/-- Whether two data are the same, whatever the order of pairs. -/
def same : Datum → Datum → Bool
  | .scalar a, .scalar b => a.same b
  | .sequence as, .sequence bs => sameElements as bs
  | .mapping as, .mapping bs => as.length == bs.length && allIn as bs
  | .tagged s a, .tagged t b => s == t && same a b
  | _, _ => false
termination_by a b => sizeOf a + sizeOf b

def sameElements : List Datum → List Datum → Bool
  | [], [] => true
  | a :: as, b :: bs => same a b && sameElements as bs
  | _, _ => false
termination_by as bs => sizeOf as + sizeOf bs

def allIn : List (Datum × Datum) → List (Datum × Datum) → Bool
  | [], _ => true
  | (key, value) :: as, bs => isIn key value bs && allIn as bs
termination_by as bs => sizeOf as + sizeOf bs

def isIn (key value : Datum) : List (Datum × Datum) → Bool
  | [] => false
  | (key', value') :: bs => (same key key' && same value value') || isIn key value bs
termination_by bs => sizeOf key + sizeOf value + sizeOf bs

end

def addPair? (pairs : List (Datum × Datum)) (key value : Datum) : Option (List (Datum × Datum)) :=
  if pairs.any fun (other, _) => same key other then none else some ((key, value) :: pairs)

end Datum

namespace Document

def depthLimit : Nat := 128

def followLimit : Nat := 100

/-- The node that stands in a place, and how often aliases may still be followed. -/
def follow? (document : Document) (left : Nat) : Node Nat → Option (Node Nat × Nat)
  | .alias _ name =>
    match left with
    | 0 => none
    | left + 1 => (document.target? name).map (·, left)
  | .anchored _ node => some (node, left)
  | node => some (node, left)

/-- The name of a type without an exclamation mark in front, unless it is nothing else. -/
def bareName (name : String) : String :=
  match name.toList with
  | '!' :: c :: rest => String.ofList (c :: rest)
  | _ => name

/-- A datum under the own tag of its node, if it has one. -/
def withTag (tag : Option Bytes) (datum : Datum) : Datum :=
  match ownTag? tag with
  | some name => .tagged (bareName name) datum
  | none => datum

/-- What a node means, where collections may be nested `depth` deep and aliases be followed `left`
times; and how often they may be followed then. -/
def datum? (document : Document) : (depth : Nat) → (left : Nat) → Node Nat → Option (Datum × Nat)
  | depth, left, node => do
    let (node, left) ← document.follow? left node
    match depth, node with
    | _, .scalar _ tag style text =>
      let meaning ← scalarMeaning? tag style text
      some (withTag tag (.scalar meaning), left)
    | depth + 1, .sequence _ tag elements =>
      let (elements, left) ← elements.foldlM (fun (done, left) element => do
        let (datum, left) ← document.datum? depth left element
        some (datum :: done, left)) (([] : List Datum), left)
      some (withTag tag (.sequence elements.reverse), left)
    | depth + 1, .mapping _ tag pairs =>
      let (pairs, left) ← pairs.foldlM (fun (done, left) (key, value) => do
        let (key, left) ← document.datum? depth left key
        let (value, left) ← document.datum? depth left value
        some (← Datum.addPair? done key value, left)) (([] : List (Datum × Datum)), left)
      some (withTag tag (.mapping pairs.reverse), left)
    | _, _ => none

def isMeaningful (document : Document) : Bool :=
  (document.datum? depthLimit (followLimit * events document.root) document.root).isSome

end Document

end CodeAtlas.Yaml
