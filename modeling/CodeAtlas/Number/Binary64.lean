import CodeAtlas.Text.Basic

/-!
# Binary floating-point numbers of 64 bits

A `Binary64` is its bit pattern. `Binary64.ofRatio` rounds an exact quotient of naturals to the
nearest pattern, a half going to the even neighbour; `Binary64.significand` and
`Binary64.exponent` give back the exact value as an integer times a power of two. All arithmetic
is exact arithmetic on naturals followed by one such rounding. A `Numeral` is a number in decimal
notation, taken apart, and `Binary64.shortest` finds the decimal of the fewest digits that is read
back as the given number, and of these the nearest to it, a tie going to the even digit.
-/

-- Powers such as `2 ^ 63` are the core library's, also where an algebra library brings its own.
attribute [instance (2000), default_instance 20000] instPowNat

namespace CodeAtlas

/-- A binary floating-point number, held as sign, eleven exponent bits and fifty-two fraction
bits. -/
structure Binary64 where
  bits : UInt64
deriving DecidableEq, Inhabited

namespace Binary64

variable (x : Binary64)

def magnitude : Nat := x.bits.toNat % 2 ^ 63

/-- Whether the sign bit is set, which it is for negative zero too. -/
def isNegative : Bool := decide (2 ^ 63 ≤ x.bits.toNat)

/-- The magnitude of infinity; greater magnitudes are not numbers. -/
def infinite : Nat := 0x7FF * 2 ^ 52

def isFinite : Bool := decide (x.magnitude < infinite)

/-- Whether the pattern is a number, finite or infinite. -/
def isNumber : Bool := decide (x.magnitude ≤ infinite)

def isZero : Bool := x.magnitude == 0

def ofMagnitude (negative : Bool) (magnitude : Nat) : Binary64 :=
  ⟨(magnitude % 2 ^ 63 + if negative then 2 ^ 63 else 0).toUInt64⟩

/-- The integer significand of a finite number: its value is this times two to `exponent`. -/
def significand : Nat :=
  if x.magnitude / 2 ^ 52 = 0 then x.magnitude else x.magnitude % 2 ^ 52 + 2 ^ 52

def exponent : Int :=
  ((max (x.magnitude / 2 ^ 52) 1 : Nat) : Int) - 1075

/-- A quotient rounded to the nearest integer, a half going to the even one. -/
def roundedQuotient (numerator denominator : Nat) : Nat :=
  let quotient := numerator / denominator
  let twice := 2 * (numerator % denominator)
  if twice < denominator then quotient
  else if denominator < twice then quotient + 1
  else quotient + quotient % 2

/-- The number nearest to `numerator / denominator`, a half going to the even pattern and too
large a value to infinity. -/
def ofRatio (negative : Bool) (numerator denominator : Nat) : Binary64 :=
  if numerator = 0 then ofMagnitude negative 0
  else
    let estimate : Int := (Nat.log2 numerator : Int) - Nat.log2 denominator - 52
    let scaled (power : Int) : Nat :=
      if 0 ≤ power then roundedQuotient numerator (denominator * 2 ^ power.toNat)
      else roundedQuotient (numerator * 2 ^ (-power).toNat) denominator
    let tooBig : Bool :=
      if 0 ≤ estimate then decide (denominator * 2 ^ estimate.toNat * 2 ^ 52 ≤ numerator)
      else decide (denominator * 2 ^ 52 ≤ numerator * 2 ^ (-estimate).toNat)
    let power := max (if tooBig then estimate else estimate - 1) (-1074)
    let magnitude := (power + 1074).toNat * 2 ^ 52 + scaled power
    ofMagnitude negative (min magnitude infinite)

def ofNat (n : Nat) : Binary64 := ofRatio false n 1

def negate : Binary64 := ofMagnitude (!x.isNegative) x.magnitude

def zero : Binary64 := ⟨0⟩

/-- The number nearest to a finite number times an integer power of two, as a ratio of naturals. -/
private def ratio (significand : Nat) (power : Int) : Nat × Nat :=
  if 0 ≤ power then (significand * 2 ^ power.toNat, 1) else (significand, 2 ^ (-power).toNat)

def mul (x y : Binary64) : Binary64 :=
  let (numerator, denominator) := ratio (x.significand * y.significand) (x.exponent + y.exponent)
  ofRatio (x.isNegative != y.isNegative) numerator denominator

def div (x y : Binary64) : Binary64 :=
  let (numerator, denominator) := ratio x.significand (x.exponent - y.exponent)
  ofRatio (x.isNegative != y.isNegative) numerator (denominator * y.significand)

def powerOfTen (k : Nat) : Binary64 := ofNat (10 ^ k)

end Binary64

structure Numeral where
  negative : Bool
  whole : List Char
  places : List Char
  exponent : Int
  isInteger : Bool
deriving DecidableEq

namespace Numeral

def unsigned : List Char → List Char
  | '+' :: rest => rest
  | '-' :: rest => rest
  | text => text

/-- The exponent that a text writes, a mark of it included; no text writes zero. -/
def exponent? : List Char → Option Int
  | [] => some 0
  | mark :: rest =>
    if mark = 'e' ∨ mark = 'E' then
      match rest with
      | '-' :: digits => (Text.digitsValue? digits).map fun n => -(n : Int)
      | '+' :: digits => (Text.digitsValue? digits).map fun n => (n : Int)
      | digits => (Text.digitsValue? digits).map fun n => (n : Int)
    else none

/-- Reads a number in decimal notation. There is a digit before or behind the point at least. -/
def parse? (text : List Char) : Option Numeral := do
  let body := unsigned text
  let whole := body.takeWhile Char.isDigit
  let rest := body.dropWhile Char.isDigit
  let (places, tail) := match rest with
    | '.' :: fraction => (fraction.takeWhile Char.isDigit, fraction.dropWhile Char.isDigit)
    | _ => ([], rest)
  if whole.isEmpty && places.isEmpty then none
  let exponent ← exponent? tail
  some { negative := text.head? == some '-', whole, places, exponent, isInteger := rest.isEmpty }

def coefficient (n : Numeral) : Nat := (Text.digitsValue? (n.whole ++ n.places)).getD 0

def power (n : Numeral) : Int := n.exponent - n.places.length

/-- The least and the greatest power of ten behind the first digit of a number that is neither too
small nor too large by far. -/
def powerLimits : Int × Int := (-330, 310)

/-- The finite number next to a numeral, if it is not too large. -/
def nearest? (n : Numeral) : Option Binary64 :=
  let size := n.power + (Nat.toDigits 10 n.coefficient).length
  if n.coefficient = 0 ∨ size < powerLimits.1 then some (.ofMagnitude n.negative 0)
  else if powerLimits.2 < size then none
  else
    let x := if n.power < 0 then Binary64.ofRatio n.negative n.coefficient (10 ^ n.power.natAbs)
      else Binary64.ofRatio n.negative (n.coefficient * 10 ^ n.power.toNat) 1
    if x.isFinite then some x else none

end Numeral

structure Decimal where
  coefficient : Nat
  power : Int
deriving DecidableEq

namespace Decimal

/-- Drops trailing zeros of the coefficient, at most `tries` of them. -/
def strip (d : Decimal) : Nat → Decimal
  | 0 => d
  | tries + 1 =>
    if d.coefficient ≠ 0 ∧ d.coefficient % 10 = 0 then
      strip ⟨d.coefficient / 10, d.power + 1⟩ tries
    else d

def digits (d : Decimal) : List Char := Nat.toDigits 10 d.coefficient

/-- The digits with the point put in place, and no point for a whole number. -/
def positional (d : Decimal) : String :=
  let ds := d.digits
  if 0 ≤ d.power then
    String.ofList (ds ++ (if d.coefficient = 0 then [] else List.replicate d.power.toNat '0'))
  else
    let places := (-d.power).toNat
    if places < ds.length then
      String.ofList (ds.take (ds.length - places) ++ '.' :: ds.drop (ds.length - places))
    else
      String.ofList ('0' :: '.' :: (List.replicate (places - ds.length) '0' ++ ds))

end Decimal

namespace Binary64

/-- The reals that round to a finite number other than zero, scaled by four times a common
denominator: `low ≤ 4 · value ≤ high`, with the ends included when the significand is even. -/
structure Span where
  low : Nat
  centre : Nat
  high : Nat
  closed : Bool

variable (x : Binary64)

/-- The rounding interval of `x` in units of a quarter of its own last place. -/
def span : Span :=
  let m := x.significand
  let below := if m = 2 ^ 52 ∧ -1074 < x.exponent then 1 else 2
  { low := 4 * m - below, centre := 4 * m, high := 4 * m + 2, closed := m % 2 == 0 }

/-- Whether `coefficient · 10 ^ power`, written over the scale of the span, lies inside it. -/
def Span.contains (s : Span) (point : Nat) (unit : Nat) : Bool :=
  if s.closed then decide (s.low * unit ≤ point) && decide (point ≤ s.high * unit)
  else decide (s.low * unit < point) && decide (point < s.high * unit)

/-- The best decimal with the given power of ten that reads back as `x`, if there is one. -/
def candidate? (power : Int) : Option Decimal :=
  let s := x.span
  -- `4 · value · scale = centre · unit` and `coefficient · 10 ^ power` becomes `coefficient · step`
  let binary := x.exponent
  let unit := (if 0 ≤ binary then 2 ^ binary.toNat else 1) *
    (if power < 0 then 10 ^ (-power).toNat else 1)
  let step := 4 * (if binary < 0 then 2 ^ (-binary).toNat else 1) *
    (if 0 ≤ power then 10 ^ power.toNat else 1)
  let target := s.centre * unit
  let lower := target / step
  let upper := lower + 1
  let lowerFits := s.contains (lower * step) unit
  let upperFits := s.contains (upper * step) unit
  let fromBelow := target - lower * step
  let fromAbove := upper * step - target
  if lowerFits && upperFits then
    if fromBelow < fromAbove ∨ (fromBelow = fromAbove ∧ lower % 2 = 0) then some ⟨lower, power⟩
    else some ⟨upper, power⟩
  else if lowerFits then some ⟨lower, power⟩
  else if upperFits then some ⟨upper, power⟩
  else none

/-- The power of ten of the leading digit of a finite number other than zero. -/
def leadingPower : Int :=
  let numerator := x.significand * (if 0 ≤ x.exponent then 2 ^ x.exponent.toNat else 1)
  let denominator := if x.exponent < 0 then 2 ^ (-x.exponent).toNat else 1
  if denominator ≤ numerator then
    ((Nat.toDigits 10 (numerator / denominator)).length : Int) - 1
  else
    -- the least `k` with `denominator ≤ numerator · 10 ^ k`
    let k := (Nat.toDigits 10 (denominator / numerator)).length
    if denominator ≤ numerator * 10 ^ (k - 1) then 1 - (k : Int) else -(k : Int)

/-- Tries grids of more and more digits, `tries` of them. -/
def shortestFrom (x : Binary64) (power : Int) : Nat → Decimal
  | 0 => ⟨0, 0⟩
  | tries + 1 =>
    match x.candidate? power with
    | some decimal => decimal
    | none => shortestFrom x (power - 1) tries

/-- The shortest decimal that reads back as the finite number `x`, its sign left out. -/
def shortest : Decimal :=
  if x.isZero then ⟨0, 0⟩ else (shortestFrom x x.leadingPower 18).strip 20

def showsPoint (text : String) : Bool := text.toList.contains '.'

def signText : String := if x.isNegative then "-" else ""

/-- A number written in full without an exponent, whole numbers with `.0`, and the two kinds of
pattern that are no numbers by name. -/
def plainText : String :=
  if x.isFinite then
    let body := x.shortest.positional
    signText x ++ if showsPoint body then body else body ++ ".0"
  else if x.magnitude = infinite then signText x ++ "inf"
  else "NaN"

/-- A finite number as data formats write it: in full from `1e-5` up to `1e16`, and otherwise as
digits with a signed exponent. -/
def exponentText : String :=
  let d := x.shortest
  let ds := d.digits
  let leading := d.power + ds.length - 1
  if d.coefficient = 0 ∨ (-5 ≤ leading ∧ leading < 16) then
    let body := d.positional
    signText x ++ if showsPoint body then body else body ++ ".0"
  else
    let fraction := ds.drop 1
    let body := String.ofList (ds.take 1 ++ if fraction.isEmpty then [] else '.' :: fraction)
    let mark := if leading < 0 then "e-" else "e+"
    signText x ++ body ++ mark ++ toString leading.natAbs

end Binary64

end CodeAtlas
