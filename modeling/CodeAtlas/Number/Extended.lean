import CodeAtlas.Number.Binary64

/-!
# Numbers with significands of 64 bits

An `Extended` is a number that is not negative, as a significand of 64 bits and a power of two. It
is what intermediate results are kept in on their way to a `Binary64`.
-/

namespace CodeAtlas

structure Extended where
  significand : Nat
  exponent : Int
deriving DecidableEq

namespace Extended

/-- The nearest number whose significand has 64 bits, a half going to the even one. -/
def round (significand : Nat) (exponent : Int) : Extended :=
  if significand < 2 ^ 64 then ⟨significand, exponent⟩
  else
    let excess := Nat.log2 significand - 63
    ⟨Binary64.roundedQuotient significand (2 ^ excess), exponent + excess⟩

def reciprocal (n : Nat) : Extended :=
  let power := Nat.log2 n + 64
  let quotient := 2 ^ power / n
  if quotient < 2 ^ 64 then ⟨Binary64.roundedQuotient (2 ^ power) n, -power⟩
  else ⟨Binary64.roundedQuotient (2 ^ (power - 1)) n, 1 - power⟩

def mul (x y : Extended) : Extended :=
  round (x.significand * y.significand) (x.exponent + y.exponent)

/-- The rounded product with a factor, `count` times over. -/
def mulTimes (factor : Extended) : (count : Nat) → Extended → Extended
  | 0, x => x
  | count + 1, x => mulTimes factor count (x.mul factor)

/-- The product with a power of ten, by hundreds, tens and ones of the exponent. `unit` gives the
factor of so many powers. -/
def scaleBy (unit : Nat → Extended) (power : Nat) (x : Extended) : Extended :=
  mulTimes (unit 1) (power % 10) <|
    mulTimes (unit 10) (power % 100 / 10) <| mulTimes (unit 100) (power / 100) x

/-- The product with ten to an integer, rounded at each step. -/
def scale (power : Int) (x : Extended) : Extended :=
  if 0 ≤ power then scaleBy (fun k => round (10 ^ k) 0) power.toNat x
  else scaleBy (fun k => reciprocal (10 ^ k)) power.natAbs x

def less (x y : Extended) : Bool :=
  let least := min x.exponent y.exponent
  decide (x.significand * 2 ^ (x.exponent - least).toNat <
    y.significand * 2 ^ (y.exponent - least).toNat)

/-- The rounded product with a factor as often as a test asks for it, `most` times at most; and how
often that was. -/
def mulWhile (test : Extended → Bool) (factor : Extended) : (most : Nat) → Extended → Extended × Nat
  | 0, x => (x, 0)
  | most + 1, x =>
    if test x then
      let (result, count) := mulWhile test factor most (x.mul factor)
      (result, count + 1)
    else (x, 0)

def floor (x : Extended) : Nat :=
  if 0 ≤ x.exponent then x.significand * 2 ^ x.exponent.toNat
  else x.significand / 2 ^ x.exponent.natAbs

/-- A natural of eighteen or nineteen digits that, times a power of ten, is about a number other
than zero; and that power. The number is scaled by hundreds, tens and ones. -/
def decimal (x : Extended) : Nat × Int :=
  let large (k : Nat) : Extended := round (10 ^ k) 0
  let small (k : Nat) : Extended := reciprocal (10 ^ k)
  if x.less (large 19) then
    let (x, hundreds) := mulWhile (less · (small 97)) (large 100) 12 x
    let (x, tens) := mulWhile (less · (large 7)) (large 10) 12 x
    let (x, ones) := mulWhile (less · (large 17)) (large 1) 12 x
    (x.floor, -(100 * hundreds + 10 * tens + ones : Nat))
  else
    let (x, hundreds) := mulWhile (!less · (large 119)) (small 100) 12 x
    let (x, tens) := mulWhile (!less · (large 29)) (small 10) 12 x
    let (x, ones) := mulWhile (!less · (large 19)) (small 1) 12 x
    (x.floor, (100 * hundreds + 10 * tens + ones : Nat))

def toBinary64 (negative : Bool) (x : Extended) : Binary64 :=
  if 0 ≤ x.exponent then .ofRatio negative (x.significand * 2 ^ x.exponent.toNat) 1
  else .ofRatio negative x.significand (2 ^ x.exponent.natAbs)

end Extended

end CodeAtlas
