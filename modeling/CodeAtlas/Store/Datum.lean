import CodeAtlas.Json.Value
import CodeAtlas.Number.Extended
import CodeAtlas.Store.Error

/-!
# What cells keep

A column of numbers keeps numbers and texts that read as one, whole numbers as integers; a column of
texts keeps the text of a number. Numbers come before texts. A `Datum` is what any cell of any table
can hold. Texts are octets there, since another program need not write UTF-8. An `Affinity` is what
a column makes of what is written to it, and a `Collation` an order of texts.
-/

namespace CodeAtlas.Store

inductive Cell where
  | integer (value : Int)
  | real (value : Binary64)
  | text (value : String)
deriving DecidableEq

namespace Cell

def type : Cell → CellType
  | .integer _ => .integer
  | .real _ => .real
  | .text _ => .text

def fraction? : Cell → Option (Int × Nat)
  | .integer n => some (n, 1)
  | .real x =>
    let sign : Int := if x.isNegative then -1 else 1
    let power := x.exponent.toNat
    let root := (-x.exponent).toNat
    some (sign * (x.significand * 2 ^ power : Nat), 2 ^ root)
  | .text _ => none

def le (a b : Cell) : Bool :=
  match a, b with
  | .integer m, .integer n => decide (m ≤ n)
  | .text s, .text t => !decide (t < s)
  | .text _, _ => false
  | _, .text _ => true
  | _, _ =>
    match a.fraction?, b.fraction? with
    | some (m, p), some (n, q) => decide (m * q ≤ n * p)
    | _, _ => true

def lt (a b : Cell) : Bool := !b.le a

end Cell

/-- A real number as an integer if it is whole and lies within 64 bits, their ends left out. -/
def wholeReal (x : Binary64) : Cell :=
  match (Cell.real x).fraction? with
  | some (n, d) =>
    if n % d = 0 ∧ -2 ^ 63 < n / d ∧ n / d < 2 ^ 63 - 1 then .integer (n / d) else .real x
  | none => .real x

/-- From here on a significand takes no more digits. -/
def significandLimit : Nat := (2 ^ 64 - 10) / 10

/-- The significand with the digits that it still takes, and how many it does not take. -/
def takeDigits : (significand : Nat) → List Char → Nat × Nat
  | significand, [] => (significand, 0)
  | significand, c :: rest =>
    if significand < significandLimit then takeDigits (10 * significand + (c.toNat - 48)) rest
    else (significand, rest.length + 1)

/-- Moves up to `tries` powers of ten into a significand of 64 bits. -/
def growSignificand : (tries : Nat) → (significand : Nat) → (power : Int) → Nat × Int
  | 0, significand, power => (significand, power)
  | tries + 1, significand, power =>
    if 0 < power ∧ significand < 2 ^ 64 / 10 then
      growSignificand tries (10 * significand) (power - 1)
    else (significand, power)

/-- Moves up to `tries` powers of ten out of a significand. -/
def shrinkSignificand : (tries : Nat) → (significand : Nat) → (power : Int) → Nat × Int
  | 0, significand, power => (significand, power)
  | tries + 1, significand, power =>
    if power < 0 ∧ significand % 10 = 0 then
      shrinkSignificand tries (significand / 10) (power + 1)
    else (significand, power)

def exponentLimit : Int := 20000

/-- The real number that is kept of a numeral. Its leading digits make up a significand of 64 bits,
which is scaled in extended numbers. -/
def realOfNumeral (n : Numeral) : Binary64 :=
  let (whole, skipped) := takeDigits 0 n.whole
  let (significand, dropped) := takeDigits whole n.places
  let exponent := max (-exponentLimit) (min exponentLimit n.exponent)
  let power : Int := exponent + skipped - (n.places.length - dropped : Nat)
  if significand = 0 then .ofMagnitude n.negative 0
  else
    let (significand, power) := growSignificand 20 significand power
    let (significand, power) := shrinkSignificand 20 significand power
    (Extended.scale power ⟨significand, 0⟩).toBinary64 n.negative

def isSpace (c : Char) : Bool := c == ' ' || (decide ('\t' ≤ c) && decide (c ≤ '\r'))

def numberOfText (text : String) : Cell :=
  let body := ((text.toList.dropWhile isSpace).reverse.dropWhile isSpace).reverse
  match Numeral.parse? body with
  | none => .text text
  | some n =>
    let value : Int := if n.negative then -(n.coefficient : Int) else n.coefficient
    if n.isInteger ∧ Json.fitsSigned value then .integer value else wholeReal (realOfNumeral n)

def Cell.inNumbers : Cell → Cell
  | .integer n => .integer n
  | .real x => wholeReal x
  | .text value => numberOfText value

def realDigits : Nat := 15

/-- The digits of a real number and the power of ten of the first of them. A half goes up. -/
def significantDigits (x : Binary64) : List Char × Int :=
  let (number, power) := Extended.decimal ⟨x.significand, x.exponent⟩
  let dropped := (Nat.toDigits 10 number).length - realDigits
  let unit := 10 ^ dropped
  let digits := Nat.toDigits 10 ((2 * number + unit) / (2 * unit))
  (digits.take realDigits, power + dropped + digits.length - 1)

/-- Digits behind a point without trailing zeros, but with one digit at least. -/
def fractionText (digits : List Char) : List Char :=
  match (digits.reverse.dropWhile (· = '0')).reverse with
  | [] => ['0']
  | kept => kept

def exponentDigits (power : Int) : List Char :=
  let digits := Nat.toDigits 10 power.natAbs
  (if power < 0 then '-' else '+') :: (List.replicate (2 - digits.length) '0' ++ digits)

/-- The text of a real number with a point, and with an exponent if it is very small or large. -/
def realText (x : Binary64) : String :=
  if x.isZero then "0.0"
  else if !x.isFinite then x.signText ++ "Inf"
  else
    let (digits, power) := significantDigits x
    let body :=
      if power < -4 ∨ (realDigits : Int) ≤ power then
        digits.take 1 ++ '.' :: fractionText (digits.drop 1) ++ 'e' :: exponentDigits power
      else if power < 0 then
        '0' :: '.' :: fractionText (List.replicate (power.natAbs - 1) '0' ++ digits)
      else
        let whole := power.toNat + 1
        digits.take whole ++ '.' :: fractionText (digits.drop whole)
    x.signText ++ String.ofList body

def Cell.inTexts : Cell → String
  | .integer n => toString n
  | .real x => realText x
  | .text value => value

inductive Datum where
  | null
  | integer (value : Int)
  | real (value : Binary64)
  | text (octets : Bytes)
  | blob (octets : Bytes)
deriving DecidableEq

/-- What a column makes of what is written to it. -/
inductive Affinity where
  | blob
  | text
  | numeric
  | real
deriving DecidableEq

inductive Collation where
  | octets
  /-- Up to the case of Latin letters. -/
  | folded
  /-- Up to spaces at the end. -/
  | trimmed
deriving DecidableEq

def Collation.ofName? (name : String) : Option Collation :=
  if Text.sameUpToCase name.toList "binary".toList then some .octets
  else if Text.sameUpToCase name.toList "nocase".toList then some .folded
  else if Text.sameUpToCase name.toList "rtrim".toList then some .trimmed
  else none

def foldOctet (octet : UInt8) : UInt8 :=
  if 0x41 ≤ octet ∧ octet ≤ 0x5A then octet + 32 else octet

/-- The octets that a text is compared by. -/
def Collation.key (collation : Collation) (text : Bytes) : Bytes :=
  match collation with
  | .octets => text
  | .folded => text.map foldOctet
  | .trimmed => (text.reverse.dropWhile (· = 0x20)).reverse

def compareOctets : Bytes → Bytes → Ordering
  | [], [] => .eq
  | [], _ :: _ => .lt
  | _ :: _, [] => .gt
  | a :: as, b :: bs => if a < b then .lt else if b < a then .gt else compareOctets as bs

namespace Datum

def ofCell : Cell → Datum
  | .integer n => .integer n
  | .real x => .real x
  | .text value => .text (octets value)

def ofCell? (cell : Option Cell) : Datum := (cell.map ofCell).getD .null

def ofText (text : String) : Datum := .text (octets text)

def ofText? (text : Option String) : Datum := (text.map ofText).getD .null

def ofNat? (n : Option Nat) : Datum := (n.map fun n => .integer n).getD .null

def ofInt? (n : Option Int) : Datum := (n.map .integer).getD .null

def type : Datum → CellType
  | .null => .null
  | .integer _ => .integer
  | .real _ => .real
  | .text _ => .text
  | .blob _ => .blob

/-- Where a datum stands in the order of kinds: null, numbers, texts, blobs. -/
def rank : Datum → Nat
  | .null => 0
  | .integer _ => 1
  | .real _ => 1
  | .text _ => 2
  | .blob _ => 3

def number? : Datum → Option Cell
  | .integer n => some (.integer n)
  | .real x => some (.real x)
  | _ => none

def compare (collation : Collation) (a b : Datum) : Ordering :=
  match a, b with
  | .text s, .text t => compareOctets (collation.key s) (collation.key t)
  | .blob s, .blob t => compareOctets s t
  | _, _ =>
    match a.number?, b.number? with
    | some x, some y => if !y.le x then .lt else if !x.le y then .gt else .eq
    | _, _ => Ord.compare a.rank b.rank

/-- The text of a datum, as patterns see it. -/
def shown : Datum → Option Bytes
  | .null => none
  | .integer n => some (octets (toString n))
  | .real x => some (octets (realText x))
  | .text bytes => some bytes
  | .blob bytes => some bytes

end Datum

def realOfInt (n : Int) : Binary64 :=
  if n < 0 then (Binary64.ofNat n.natAbs).negate else Binary64.ofNat n.natAbs

def numberOfOctets (bytes : Bytes) : Datum :=
  match numberOfText (String.ofList (Utf8.decodeLossy bytes)) with
  | .text _ => .text bytes
  | cell => .ofCell cell

namespace Affinity

def keep (affinity : Affinity) (datum : Datum) : Datum :=
  match affinity, datum with
  | .blob, _ => datum
  | .text, .integer n => .ofText (toString n)
  | .text, .real x => .ofText (realText x)
  | .text, _ => datum
  | .numeric, .text bytes => numberOfOctets bytes
  | .numeric, .real x => .ofCell (wholeReal x)
  | .numeric, _ => datum
  | .real, .integer n => .real (realOfInt n)
  | .real, .text bytes =>
    match numberOfOctets bytes with
    | .integer n => .real (realOfInt n)
    | other => other
  | .real, _ => datum

/-- What a datum from outside is compared as with a column. -/
def keepOperand (affinity : Affinity) (datum : Datum) : Datum :=
  match affinity, datum with
  | .real, .text bytes => numberOfOctets bytes
  | .numeric, .real _ => datum
  | .real, _ => datum
  | affinity, datum => affinity.keep datum

end Affinity

end CodeAtlas.Store
