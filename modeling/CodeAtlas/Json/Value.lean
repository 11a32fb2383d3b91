import CodeAtlas.Number.Binary64

/-!
# JSON values

A value is a tree of six kinds of node. Whole numbers in the range of 64-bit words are kept as
integers and every other number as a `Binary64`. The members of an object are listed with their
names in ascending order, each name once; `Members.insert` keeps that order and
`Value.object` builds an object from members in any order, the last of a name winning.
`Value.render` writes a value without blanks, and `Value.bytes` is the same text as octets.
-/

namespace CodeAtlas.Json

/-- A number as the format distinguishes them: whole, or with a fraction or exponent. -/
inductive Number where
  | int (value : Int)
  | real (value : Binary64)
deriving DecidableEq, Inhabited

inductive Value where
  | null
  | bool (value : Bool)
  | num (value : Number)
  | str (value : String)
  | arr (elements : List Value)
  | obj (members : List (String × Value))
deriving Inhabited

abbrev Members := List (String × Value)

abbrev Value.int (n : Int) : Value := .num (.int n)

abbrev Value.nat (n : Nat) : Value := .num (.int n)

mutual

def Value.same : Value → Value → Bool
  | .null, .null => true
  | .bool a, .bool b => a == b
  | .num a, .num b => decide (a = b)
  | .str a, .str b => a == b
  | .arr a, .arr b => Value.sameElements a b
  | .obj a, .obj b => Value.sameMembers a b
  | _, _ => false

def Value.sameElements : List Value → List Value → Bool
  | [], [] => true
  | a :: as, b :: bs => Value.same a b && Value.sameElements as bs
  | _, _ => false

def Value.sameMembers : List (String × Value) → List (String × Value) → Bool
  | [], [] => true
  | (m, a) :: as, (n, b) :: bs => m == n && Value.same a b && Value.sameMembers as bs
  | _, _ => false

end

mutual

theorem Value.same_iff : (a b : Value) → (Value.same a b = true ↔ a = b)
  | .null, b => by cases b <;> simp [Value.same]
  | .bool x, b => by cases b <;> simp [Value.same]
  | .num x, b => by cases b <;> simp [Value.same]
  | .str x, b => by cases b <;> simp [Value.same]
  | .arr x, b => by cases b <;> simp [Value.same, Value.sameElements_iff x]
  | .obj x, b => by cases b <;> simp [Value.same, Value.sameMembers_iff x]

theorem Value.sameElements_iff : (a b : List Value) → (Value.sameElements a b = true ↔ a = b)
  | [], b => by cases b <;> simp [Value.sameElements]
  | x :: xs, b => by
      cases b <;> simp [Value.sameElements, Value.same_iff x, Value.sameElements_iff xs]

theorem Value.sameMembers_iff :
    (a b : List (String × Value)) → (Value.sameMembers a b = true ↔ a = b)
  | [], b => by cases b <;> simp [Value.sameMembers]
  | (m, x) :: xs, b => by
      cases b <;>
        simp [Value.sameMembers, Value.same_iff x, Value.sameMembers_iff xs, Prod.ext_iff,
      and_assoc]

end

instance : DecidableEq Value := fun a b => decidable_of_iff _ (Value.same_iff a b)

namespace Members

/-- Adds a member in its place, replacing one of the same name. -/
def insert (name : String) (value : Value) : Members → Members
  | [] => [(name, value)]
  | (other, kept) :: rest =>
    if name = other then (name, value) :: rest
    else if name < other then (name, value) :: (other, kept) :: rest
    else (other, kept) :: insert name value rest

def get? (name : String) : Members → Option Value
  | [] => none
  | (other, value) :: rest => if name = other then some value else get? name rest

/-- Members in any order, the last of a name winning. -/
def ofList (members : List (String × Value)) : Members :=
  members.foldl (fun sorted (name, value) => insert name value sorted) []

def Ascending : Members → Prop
  | [] => True
  | [_] => True
  | (m, _) :: (n, v) :: rest => m < n ∧ Ascending ((n, v) :: rest)

end Members

namespace Value

def object (members : List (String × Value)) : Value := .obj (Members.ofList members)

def member? (value : Value) (name : String) : Option Value :=
  match value with
  | .obj members => Members.get? name members
  | _ => none

def elements? : Value → Option (List Value)
  | .arr elements => some elements
  | _ => none

def text? : Value → Option String
  | .str text => some text
  | _ => none

def isObject : Value → Bool
  | .obj _ => true
  | _ => false

end Value

def fitsSigned (n : Int) : Bool := decide (-2 ^ 63 ≤ n) && decide (n < 2 ^ 63)

def hexDigit (n : Nat) : Char := Nat.digitChar (n % 16)

def escapeChar (c : Char) : List Char :=
  match c with
  | '"' => ['\\', '"']
  | '\\' => ['\\', '\\']
  | '\n' => ['\\', 'n']
  | '\r' => ['\\', 'r']
  | '\t' => ['\\', 't']
  | c =>
    if c.toNat = 8 then ['\\', 'b']
    else if c.toNat = 12 then ['\\', 'f']
    else if c.toNat < 32 then ['\\', 'u', '0', '0', hexDigit (c.toNat / 16), hexDigit c.toNat]
    else [c]

def quoteChars (text : String) : List Char :=
  '"' :: (text.toList.flatMap escapeChar ++ ['"'])

def intChars : Int → List Char
  | .ofNat n => Nat.toDigits 10 n
  | .negSucc n => '-' :: Nat.toDigits 10 (n + 1)

def Number.chars : Number → List Char
  | .int n => intChars n
  | .real x => x.exponentText.toList

mutual

def Value.charsOnto (tail : List Char) : Value → List Char
  | .null => "null".toList ++ tail
  | .bool true => "true".toList ++ tail
  | .bool false => "false".toList ++ tail
  | .num n => n.chars ++ tail
  | .str s => quoteChars s ++ tail
  | .arr [] => '[' :: ']' :: tail
  | .arr (v :: vs) => '[' :: v.charsOnto (Value.elementsOnto (']' :: tail) vs)
  | .obj [] => '{' :: '}' :: tail
  | .obj ((name, v) :: ms) =>
    '{' :: (quoteChars name ++ ':' :: v.charsOnto (Value.membersOnto ('}' :: tail) ms))

def Value.elementsOnto (tail : List Char) : List Value → List Char
  | [] => tail
  | v :: vs => ',' :: v.charsOnto (Value.elementsOnto tail vs)

/-- The characters of further members, each after a comma. -/
def Value.membersOnto (tail : List Char) : List (String × Value) → List Char
  | [] => tail
  | (name, v) :: ms => ',' :: (quoteChars name ++ ':' :: v.charsOnto (Value.membersOnto tail ms))

end

def Value.chars (value : Value) : List Char := value.charsOnto []

def Value.render (value : Value) : String := String.ofList value.chars

def Value.bytes (value : Value) : Bytes := Utf8.encode value.chars

end CodeAtlas.Json
