import CodeAtlas.Number.Binary64
import CodeAtlas.Yaml.Token.Basic

/-!
# What plain scalars mean

A plain scalar is null, a truth value, a number or else a text. Digits behind a leading zero are a
text, since readers disagree on what number they write.
-/

namespace CodeAtlas.Yaml

inductive Meaning where
  | null
  | bool (b : Bool)
  | int (n : Int)
  | real (x : Binary64)
  | text (s : String)
deriving DecidableEq

namespace Scalar

variable (text : String)

def isNull : Bool := ["null", "Null", "NULL", "~"].contains text

def bool? : Option Bool :=
  if ["true", "True", "TRUE"].contains text then some true
  else if ["false", "False", "FALSE"].contains text then some false
  else none

/-- Whether a text is digits behind a leading zero, perhaps with a sign. -/
def isPaddedDigits (text : List Char) : Bool :=
  match Numeral.unsigned text with
  | '0' :: c :: rest => (c :: rest).all Char.isDigit
  | _ => false

def digit? (base : Nat) (c : Char) : Option Nat := do
  let n ← Text.hexDigit? c
  if n < base then some n else none

def natural? (base : Nat) (digits : List Char) : Option Nat :=
  if digits.isEmpty then none
  else digits.foldlM (fun sum c => (digit? base c).map (base * sum + ·)) 0

/-- The natural that a text writes: in decimal, or with `0x`, `0o` or `0b` in front. -/
def magnitude? (digits : List Char) : Option Nat :=
  match digits with
  | '0' :: 'x' :: rest => natural? 16 rest
  | '0' :: 'o' :: rest => natural? 8 rest
  | '0' :: 'b' :: rest => natural? 2 rest
  | _ => if isPaddedDigits digits then none else natural? 10 digits

def int? (text : List Char) : Option Int :=
  match text with
  | '-' :: rest => (magnitude? rest).map fun n => -(n : Int)
  | '+' :: rest => (magnitude? rest).map fun n => (n : Int)
  | _ => (magnitude? text).map fun n => (n : Int)

def real? : Option Binary64 :=
  if [".inf", ".Inf", ".INF", "+.inf", "+.Inf", "+.INF"].contains text then
    some (.ofMagnitude false Binary64.infinite)
  else if ["-.inf", "-.Inf", "-.INF"].contains text then
    some (.ofMagnitude true Binary64.infinite)
  else if [".nan", ".NaN", ".NAN"].contains text then
    some (.ofMagnitude false (Binary64.infinite + 2 ^ 51))
  else do (← Numeral.parse? text.toList).nearest?

def fits (n : Int) : Bool := decide (-2 ^ 63 ≤ n) && decide (n < 2 ^ 64)

def fitsTwice (n : Int) : Bool := decide (-2 ^ 127 ≤ n) && decide (n < 2 ^ 128)

/-- What a plain scalar means; an integer that fits only into more than sixty-four bits means
nothing, and one that is larger still is a number with a fraction. -/
def meaning? : Option Meaning :=
  if text.isEmpty || isNull text then some .null
  else match bool? text with
  | some b => some (.bool b)
  | none =>
    let fraction :=
      if isPaddedDigits text.toList then some (Meaning.text text)
      else some (((real? text).map Meaning.real).getD (.text text))
    match int? text.toList with
    | some n => if fits n then some (.int n) else if fitsTwice n then none else fraction
    | none => fraction

end Scalar

end CodeAtlas.Yaml
