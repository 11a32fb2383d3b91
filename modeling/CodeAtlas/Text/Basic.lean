/-!
# Characters, digits and octets

`isBlank` is the Unicode property White_Space, and `trim` drops blanks at both ends. Byte streams
are lists of octets: `Utf8.encode` writes code points as octets, and `Utf8.decodePrefix` reads as
many well-formed code points as it can and returns what is left. Overlong forms, surrogates and
values above the last code point are not well formed.
-/

namespace CodeAtlas.Text

/-- Whether a character has the property White_Space. -/
def isBlank (c : Char) : Bool :=
  let n := c.toNat
  (decide (0x09 ≤ n) && decide (n ≤ 0x0D)) || n == 0x20 || n == 0x85 || n == 0xA0 || n == 0x1680 ||
    (decide (0x2000 ≤ n) && decide (n ≤ 0x200A)) || n == 0x2028 || n == 0x2029 || n == 0x202F ||
    n == 0x205F || n == 0x3000

variable (text : List Char)

def trimStart : List Char := text.dropWhile isBlank

def trimEnd : List Char := (text.reverse.dropWhile isBlank).reverse

def trim : List Char := trimEnd (trimStart text)

def blank (text : String) : Bool := text.toList.all isBlank

def foldCase (c : Char) : Char :=
  if 'A' ≤ c ∧ c ≤ 'Z' then Char.ofNat (c.toNat + 32) else c

def sameUpToCase (a b : List Char) : Bool := a.map foldCase == b.map foldCase

/-- The parts of a text before and after the first occurrence of a character. -/
def splitOnce? (mark : Char) : List Char → Option (List Char × List Char)
  | [] => none
  | c :: rest =>
    if c = mark then some ([], rest)
    else (splitOnce? mark rest).map fun (before, after) => (c :: before, after)

def digitsValue? : Option Nat :=
  if text.isEmpty then none
  else text.foldl (fun sum c => do
    let sum ← sum
    if c.isDigit then some (sum * 10 + (c.toNat - 48)) else none) (some 0)

/-- A natural below `bound`, written in digits after an optional plus sign. -/
def natBelow? (bound : Nat) (text : List Char) : Option Nat := do
  let n ← digitsValue? (match text with | '+' :: rest => rest | other => other)
  if n < bound then some n else none

def hexDigit? (c : Char) : Option Nat :=
  if c.isDigit then some (c.toNat - 48)
  else if 'a' ≤ c ∧ c ≤ 'f' then some (c.toNat - 87)
  else if 'A' ≤ c ∧ c ≤ 'F' then some (c.toNat - 55)
  else none

def hexValue? (digits : List Char) : Option Nat :=
  digits.foldlM (fun sum c => (hexDigit? c).map (16 * sum + ·)) 0

end CodeAtlas.Text

namespace CodeAtlas

abbrev Bytes := List UInt8

namespace Utf8

/-- The octets of one code point, one to four of them. -/
def encodeChar (c : Char) : Bytes :=
  let n := c.toNat
  if n < 0x80 then
    [n.toUInt8]
  else if n < 0x800 then
    [(0xC0 + n / 0x40).toUInt8, (0x80 + n % 0x40).toUInt8]
  else if n < 0x10000 then
    [(0xE0 + n / 0x1000).toUInt8, (0x80 + n / 0x40 % 0x40).toUInt8, (0x80 + n % 0x40).toUInt8]
  else
    [(0xF0 + n / 0x40000).toUInt8, (0x80 + n / 0x1000 % 0x40).toUInt8,
      (0x80 + n / 0x40 % 0x40).toUInt8, (0x80 + n % 0x40).toUInt8]

def encode (text : List Char) : Bytes :=
  text.flatMap encodeChar

/-- The six payload bits of a continuation octet. -/
def continuation? (octet : UInt8) : Option Nat :=
  if octet.toNat / 0x40 = 2 then some (octet.toNat % 0x40) else none

variable (octets : Bytes)

/-- The code point whose octets these would be, by the bits that they carry. -/
def guess : Char :=
  let lead := (octets.getD 0 0).toNat
  let bits (i : Nat) := (octets.getD i 0).toNat % 0x40
  Char.ofNat
    (if lead < 0x80 then lead
    else if lead < 0xE0 then lead % 0x20 * 0x40 + bits 1
    else if lead < 0xF0 then lead % 0x10 * 0x1000 + bits 1 * 0x40 + bits 2
    else lead % 8 * 0x40000 + bits 1 * 0x1000 + bits 2 * 0x40 + bits 3)

/-- The code point at the front of octets, if these are the ones that it is written with. -/
def first? : Option Char :=
  let c := guess octets
  if (encodeChar c).isPrefixOf octets then some c else none

/-- Reads code points behind the first `skip` octets, newest first onto `read`, until the octets end
or stop being well formed. -/
def decodeOnto (read : List Char) : (skip : Nat) → Bytes → List Char × Bytes
  | _, [] => (read.reverse, [])
  | skip + 1, _ :: rest => decodeOnto read skip rest
  | 0, octet :: rest =>
    match first? (octet :: rest) with
    | some c => decodeOnto (c :: read) ((encodeChar c).length - 1) rest
    | none => (read.reverse, octet :: rest)

/-- The longest well-formed front of the octets as code points, and the octets after it. -/
def decodePrefix : List Char × Bytes :=
  decodeOnto [] 0 octets

def replacement : Char := '\ufffd'

def startsThree (a b : UInt8) : Bool :=
  a.toNat / 0x10 = 14 ∧ b.toNat / 0x40 = 2 ∧
    (a = 0xE0 → 0xA0 ≤ b) ∧ (a = 0xED → b < 0xA0)

def startsFour (a b : UInt8) : Bool :=
  0xF0 ≤ a ∧ a ≤ 0xF4 ∧ b.toNat / 0x40 = 2 ∧ (a = 0xF0 → 0x90 ≤ b) ∧ (a = 0xF4 → b < 0x90)

/-- How many octets at the front are no code point and cannot become one; none if octets are missing
for one. -/
def flawLength? : Bytes → Option Nat
  | [] => none
  | [a] => if 0xC2 ≤ a ∧ a ≤ 0xF4 then none else some 1
  | a :: b :: rest =>
    if startsThree a b then if rest.isEmpty then none else some 2
    else if startsFour a b then
      match rest with
      | [] => none
      | [c] => if (continuation? c).isSome then none else some 2
      | c :: _ :: _ => if (continuation? c).isSome then some 3 else some 2
    else some 1

/-- The code points behind the first `skip` octets, with a replacement for what is none. -/
def lossyFrom : (skip : Nat) → Bytes → List Char
  | _, [] => []
  | skip + 1, _ :: rest => lossyFrom skip rest
  | 0, octet :: rest =>
    match first? (octet :: rest) with
    | some c => c :: lossyFrom ((encodeChar c).length - 1) rest
    | none =>
      replacement :: lossyFrom (((flawLength? (octet :: rest)).map (· - 1)).getD rest.length) rest

/-- The code points of octets, with a replacement for each run of octets that could still have
become a code point, and for each other octet that is not part of one. -/
def decodeLossy : List Char := lossyFrom 0 octets

/-- The code points of octets that are well formed to the end. -/
def decode? : Option (List Char) :=
  match decodePrefix octets with
  | (text, []) => some text
  | (_, _ :: _) => none

end Utf8

def octets (text : String) : Bytes :=
  Utf8.encode text.toList

def text? (bytes : Bytes) : Option String :=
  (Utf8.decode? bytes).map String.ofList

/-- The pieces between the octets or characters that are equal to `mark`. -/
def cutAt {α : Type} [DecidableEq α] (mark : α) : List α → List (List α)
  | [] => [[]]
  | first :: rest =>
    match cutAt mark rest with
    | piece :: pieces => if first = mark then [] :: piece :: pieces else (first :: piece) :: pieces
    | [] => [[first]]

def octetCount (text : String) : Nat :=
  (octets text).length

end CodeAtlas
