import CodeAtlas.Json.Value

/-!
# Reading JSON text

`Json.parse` reads one value from octets, with blanks around it and nothing else. Nesting is
limited to `depthLimit` levels. A failure is a `SyntaxError`: its cause and the line and column of
the octet it was found at. Internally a `Fault` keeps the octets that follow the point of failure,
so readers need no position of their own.
-/

namespace CodeAtlas.Json

inductive SyntaxCause where
  | endInValue
  | endInList
  | endInObject
  | endInString
  | expectedValue
  | expectedIdent
  | expectedColon
  | expectedListCommaOrEnd
  | expectedObjectCommaOrEnd
  | trailingComma
  | trailingCharacters
  | keyNotString
  | invalidNumber
  | numberOutOfRange
  | invalidEscape
  | endOfHexEscape
  | loneLeadingSurrogate
  | controlCharacter
  | invalidCodePoint
  | recursionLimit
deriving DecidableEq, Inhabited

def SyntaxCause.message : SyntaxCause → String
  | .endInValue => "EOF while parsing a value"
  | .endInList => "EOF while parsing a list"
  | .endInObject => "EOF while parsing an object"
  | .endInString => "EOF while parsing a string"
  | .expectedValue => "expected value"
  | .expectedIdent => "expected ident"
  | .expectedColon => "expected `:`"
  | .expectedListCommaOrEnd => "expected `,` or `]`"
  | .expectedObjectCommaOrEnd => "expected `,` or `\x7d`"
  | .trailingComma => "trailing comma"
  | .trailingCharacters => "trailing characters"
  | .keyNotString => "key must be a string"
  | .invalidNumber => "invalid number"
  | .numberOutOfRange => "number out of range"
  | .invalidEscape => "invalid escape"
  | .endOfHexEscape => "unexpected end of hex escape"
  | .loneLeadingSurrogate => "lone leading surrogate in hex escape"
  | .controlCharacter => "control character (\\u0000-\\u001F) found while parsing a string"
  | .invalidCodePoint => "invalid unicode code point"
  | .recursionLimit => "recursion limit exceeded"

/-- A failure with its place: lines count from one, and the column is the number of octets of the
line up to and including the offending one. -/
structure SyntaxError where
  cause : SyntaxCause
  line : Nat
  column : Nat
deriving DecidableEq, Inhabited

def SyntaxError.message (e : SyntaxError) : String :=
  e.cause.message ++ " at line " ++ toString e.line ++ " column " ++ toString e.column

/-- A failure while reading, with the octets after the point it was found at. -/
structure Fault where
  cause : SyntaxCause
  rest : Bytes
deriving DecidableEq

/-- What a reader returns: a result with the octets after it, or a fault. -/
abbrev Reading (α : Type) := Except Fault (α × Bytes)

/-- A fault found before the next octet. -/
def failAt {α : Type} (cause : SyntaxCause) (rest : Bytes) : Except Fault α :=
  .error ⟨cause, rest⟩

/-- A fault found by looking at the next octet, which counts as seen. -/
def failPeek {α : Type} (cause : SyntaxCause) (rest : Bytes) : Except Fault α :=
  .error ⟨cause, rest.drop 1⟩

def isBlank (octet : UInt8) : Bool :=
  octet == 0x20 || octet == 0x0A || octet == 0x0D || octet == 0x09

def skipBlanks : Bytes → Bytes
  | [] => []
  | octet :: rest => if isBlank octet then skipBlanks rest else octet :: rest

def digit? (octet : UInt8) : Option Nat :=
  if 0x30 ≤ octet ∧ octet ≤ 0x39 then some (octet.toNat - 0x30) else none

def startsWithDigit : Bytes → Bool
  | [] => false
  | octet :: _ => (digit? octet).isSome

/-- The digits that still fit a 64-bit significand: the grown significand, how many digits were
taken, and the octets after them. -/
def takeSignificand (significand taken : Nat) : Bytes → Nat × Nat × Bytes
  | [] => (significand, taken, [])
  | octet :: rest =>
    match digit? octet with
    | none => (significand, taken, octet :: rest)
    | some d =>
      if significand * 10 + d < 2 ^ 64 then takeSignificand (significand * 10 + d) (taken + 1) rest
      else (significand, taken, octet :: rest)

def skipDigits (skipped : Nat) : Bytes → Nat × Bytes
  | [] => (skipped, [])
  | octet :: rest =>
    if (digit? octet).isSome then skipDigits (skipped + 1) rest else (skipped, octet :: rest)

variable (negative : Bool) (significand : Nat) (exponent : Int) (rest : Bytes)

/-- The number `significand · 10 ^ exponent`, rounded once for the significand and once for each
power of ten; `none` when it is too large. -/
def scaled? : Option Binary64 :=
  let x := Binary64.ofNat significand
  let sign (y : Binary64) : Binary64 := if negative then y.negate else y
  if 0 ≤ exponent then
    if exponent ≤ 308 then
      let y := x.mul (Binary64.powerOfTen exponent.toNat)
      if y.isFinite then some (sign y) else none
    else if significand = 0 then some (sign .zero)
    else none
  else
    let down := exponent.natAbs
    if down ≤ 308 then some (sign (x.div (Binary64.powerOfTen down)))
    else if down ≤ 616 then
      some (sign ((x.div (Binary64.powerOfTen 308)).div (Binary64.powerOfTen (down - 308))))
    else some (sign .zero)

/-- A number with a fraction or exponent, read completely. -/
def finishReal : Reading Number :=
  match scaled? negative significand exponent with
  | some x => .ok (.real x, rest)
  | none => failAt .numberOutOfRange rest

def exponentLimit : Nat := 2 ^ 31 - 1

/-- The digits of an exponent: its value and the octets after it, or the octets after the digit
that made it too large. -/
def takeExponent (exponent : Nat) : Bytes → Except Bytes (Nat × Bytes)
  | [] => .ok (exponent, [])
  | octet :: rest =>
    match digit? octet with
    | none => .ok (exponent, octet :: rest)
    | some d =>
      if exponent * 10 + d ≤ exponentLimit then takeExponent (exponent * 10 + d) rest
      else .error rest

def readExponent (start : Int) (rest : Bytes) : Reading Number :=
  let (down, rest) : Bool × Bytes :=
    match rest with
    | 0x2B :: after => (false, after)
    | 0x2D :: after => (true, after)
    | other => (false, other)
  match rest with
  | [] => failAt .endInValue []
  | octet :: rest =>
    match digit? octet with
    | none => failAt .invalidNumber rest
    | some d =>
      match takeExponent d rest with
      | .ok (exponent, rest) =>
        finishReal negative significand (if down then start - exponent else start + exponent) rest
      | .error rest =>
        if significand ≠ 0 ∧ !down then failAt .numberOutOfRange rest
        else
          .ok (.real (Binary64.ofMagnitude negative 0), (skipDigits 0 rest).2)

/-- What may follow the digits of a number: an exponent, or its end. -/
def readScale : Reading Number :=
  match rest with
  | 0x65 :: after => readExponent negative significand exponent after
  | 0x45 :: after => readExponent negative significand exponent after
  | _ => finishReal negative significand exponent rest

def readFraction : Reading Number :=
  let (significand, taken, rest) := takeSignificand significand 0 rest
  let (skipped, after) := skipDigits 0 rest
  if taken = 0 ∧ skipped = 0 then
    match rest with
    | [] => failPeek .endInValue []
    | _ :: _ => failPeek .invalidNumber rest
  else readScale negative significand (exponent - taken) after

/-- A whole number: kept as an integer if it fits a word and is not negative zero. -/
def wholeNumber : Number :=
  if negative then
    if significand = 0 ∨ 2 ^ 63 < significand then .real (Binary64.ofNat significand).negate
    else .int (-significand)
  else .int significand

def readAfterDigits : Reading Number :=
  let (skipped, rest) := skipDigits 0 rest
  match rest with
  | 0x2E :: after => readFraction negative significand skipped after
  | 0x65 :: after => readExponent negative significand skipped after
  | 0x45 :: after => readExponent negative significand skipped after
  | _ =>
    if skipped = 0 then .ok (wholeNumber negative significand, rest)
    else finishReal negative significand skipped rest

def readNumber : Bytes → Reading Number
  | [] => failAt .endInValue []
  | octet :: rest =>
    match digit? octet with
    | none => failAt .invalidNumber rest
    | some 0 =>
      if startsWithDigit rest then failPeek .invalidNumber rest
      else readAfterDigits negative 0 rest
    | some d =>
      let (significand, _, rest) := takeSignificand d 0 rest
      readAfterDigits negative significand rest

def hexDigit? (octet : UInt8) : Option Nat :=
  if 0x30 ≤ octet ∧ octet ≤ 0x39 then some (octet.toNat - 0x30)
  else if 0x41 ≤ octet ∧ octet ≤ 0x46 then some (octet.toNat - 0x37)
  else if 0x61 ≤ octet ∧ octet ≤ 0x66 then some (octet.toNat - 0x57)
  else none

def hexUnit? (a b c d : UInt8) : Option Nat := do
  let a ← hexDigit? a
  let b ← hexDigit? b
  let c ← hexDigit? c
  let d ← hexDigit? d
  return ((a * 16 + b) * 16 + c) * 16 + d

/-- Whether a unit is the first of a surrogate pair. -/
def isLeading (unit : Nat) : Bool := decide (0xD800 ≤ unit) && decide (unit ≤ 0xDBFF)

def isTrailing (unit : Nat) : Bool := decide (0xDC00 ≤ unit) && decide (unit ≤ 0xDFFF)

def pairScalar (leading trailing : Nat) : Char :=
  Char.ofNat (0x10000 + (leading - 0xD800) * 0x400 + (trailing - 0xDC00))

def simpleEscape? (octet : UInt8) : Option UInt8 :=
  if octet == 0x22 then some 0x22
  else if octet == 0x5C then some 0x5C
  else if octet == 0x2F then some 0x2F
  else if octet == 0x62 then some 0x08
  else if octet == 0x66 then some 0x0C
  else if octet == 0x6E then some 0x0A
  else if octet == 0x72 then some 0x0D
  else if octet == 0x74 then some 0x09
  else none

/-- The octets of a character, last to first, in front of what was read before. -/
def pushScalar (c : Char) (read : Bytes) : Bytes := (Utf8.encodeChar c).reverse ++ read

/-- The content of a string up to its closing quote: its octets with escapes resolved, last
to first onto `read`, and the octets after the quote. -/
def readString (read : Bytes) : Bytes → Reading Bytes
  | [] => failAt .endInString []
  | 0x22 :: rest => .ok (read.reverse, rest)
  | 0x5C :: 0x75 :: a :: b :: c :: d :: rest =>
    match hexUnit? a b c d with
    | none => failAt .invalidEscape rest
    | some unit =>
      if isTrailing unit then failAt .loneLeadingSurrogate rest
      else if isLeading unit then
        match rest with
        | 0x5C :: 0x75 :: e :: f :: g :: h :: rest =>
          match hexUnit? e f g h with
          | none => failAt .invalidEscape rest
          | some second =>
            if isTrailing second then readString (pushScalar (pairScalar unit second) read) rest
            else failAt .loneLeadingSurrogate rest
        | 0x5C :: 0x75 :: _ => failAt .endInString []
        | 0x5C :: _ :: rest => failAt .endOfHexEscape rest
        | [0x5C] => failAt .endInString []
        | _ :: rest => failAt .endOfHexEscape rest
        | [] => failAt .endInString []
      else readString (pushScalar (Char.ofNat unit) read) rest
  | 0x5C :: 0x75 :: _ => failAt .endInString []
  | [0x5C] => failAt .endInString []
  | 0x5C :: octet :: rest =>
    match simpleEscape? octet with
    | some plain => readString (plain :: read) rest
    | none => failAt .invalidEscape rest
  | octet :: rest =>
    if octet < 0x20 then failAt .controlCharacter rest
    else readString (octet :: read) rest

/-- A string whose opening quote has been read. Octets that are not UTF-8 are reported when the
closing quote has been found, as far before it as they reach in the resolved content. -/
def readText (content : Bytes) : Reading String :=
  match readString [] content with
  | .error fault => .error fault
  | .ok (read, rest) =>
    match Utf8.decode? read with
    | some text => .ok (String.ofList text, rest)
    | none =>
      let after := rest.length + (Utf8.decodePrefix read).2.length
      failAt .invalidCodePoint (content.drop (content.length - after))

/-- The rest of a word such as `null`, after its first letter. -/
def readWord (value : Value) : (expected : Bytes) → Bytes → Reading Value
  | [], rest => .ok (value, rest)
  | _ :: _, [] => failAt .endInValue []
  | expected :: more, octet :: rest =>
    if octet == expected then readWord value more rest else failAt .expectedIdent rest

/-- How deep arrays and objects may nest, plus one. -/
def depthLimit : Nat := 128

mutual

/-- A value after leading blanks. `depth` levels of nesting are left; `fuel` bounds the number of
octets read. -/
def readValue : (fuel depth : Nat) → Bytes → Reading Value
  | 0, _, rest => failPeek .endInValue rest
  | fuel + 1, depth, input =>
    match skipBlanks input with
    | [] => failPeek .endInValue []
    | octet :: rest =>
      if octet == 0x6E then readWord .null [0x75, 0x6C, 0x6C] rest
      else if octet == 0x74 then readWord (.bool true) [0x72, 0x75, 0x65] rest
      else if octet == 0x66 then readWord (.bool false) [0x61, 0x6C, 0x73, 0x65] rest
      else if octet == 0x2D then
        match readNumber true rest with
        | .ok (n, rest) => .ok (.num n, rest)
        | .error fault => .error fault
      else if (digit? octet).isSome then
        match readNumber false (octet :: rest) with
        | .ok (n, rest) => .ok (.num n, rest)
        | .error fault => .error fault
      else if octet == 0x22 then
        match readText rest with
        | .ok (text, rest) => .ok (.str text, rest)
        | .error fault => .error fault
      else if octet == 0x5B then
        if depth ≤ 1 then failAt .recursionLimit rest
        else readElements fuel (depth - 1) [] true rest
      else if octet == 0x7B then
        if depth ≤ 1 then failAt .recursionLimit rest
        else readMembers fuel (depth - 1) [] true rest
      else failAt .expectedValue rest

def readElements : (fuel depth : Nat) → (read : List Value) → (first : Bool) → Bytes → Reading Value
  | 0, _, _, _, rest => failPeek .endInList rest
  | fuel + 1, depth, read, first, input =>
    match skipBlanks input with
    | [] => failPeek .endInList []
    | octet :: rest =>
      if octet == 0x5D then .ok (.arr read.reverse, rest)
      else if first then
        match readValue fuel depth (octet :: rest) with
        | .ok (value, rest) => readElements fuel depth (value :: read) false rest
        | .error fault => .error fault
      else if octet == 0x2C then
        match skipBlanks rest with
        | [] => failPeek .endInValue []
        | 0x5D :: rest => failAt .trailingComma rest
        | rest =>
          match readValue fuel depth rest with
          | .ok (value, rest) => readElements fuel depth (value :: read) false rest
          | .error fault => .error fault
      else failAt .expectedListCommaOrEnd rest

def readMembers : (fuel depth : Nat) → (read : Members) → (first : Bool) → Bytes → Reading Value
  | 0, _, _, _, rest => failPeek .endInObject rest
  | fuel + 1, depth, read, first, input =>
    match skipBlanks input with
    | [] => failPeek .endInObject []
    | octet :: rest =>
      if octet == 0x7D then .ok (.obj read, rest)
      else if first then
        if octet == 0x22 then readMember fuel depth read rest else failAt .keyNotString rest
      else if octet == 0x2C then
        match skipBlanks rest with
        | [] => failPeek .endInValue []
        | octet :: rest =>
          if octet == 0x22 then readMember fuel depth read rest
          else if octet == 0x7D then failAt .trailingComma rest
          else failAt .keyNotString rest
      else failAt .expectedObjectCommaOrEnd rest

/-- One member whose opening quote has been read, and the members after it. -/
def readMember : (fuel depth : Nat) → (read : Members) → Bytes → Reading Value
  | 0, _, _, rest => failPeek .endInObject rest
  | fuel + 1, depth, read, input =>
    match readText input with
    | .error fault => .error fault
    | .ok (name, rest) =>
      match skipBlanks rest with
      | [] => failPeek .endInObject []
      | octet :: rest =>
        if octet == 0x3A then
          match readValue fuel depth rest with
          | .ok (value, rest) => readMembers fuel depth (Members.insert name value read) false rest
          | .error fault => .error fault
        else failAt .expectedColon rest

end

def readDocument (input : Bytes) : Except Fault Value :=
  match readValue (3 * input.length + 3) depthLimit input with
  | .error fault => .error fault
  | .ok (value, rest) =>
    match skipBlanks rest with
    | [] => .ok value
    | _ :: rest => failAt .trailingCharacters rest

def place (line column : Nat) : (seen : Bytes) → Nat × Nat
  | [] => (line, column)
  | octet :: rest => if octet == 0x0A then place (line + 1) 0 rest else place line (column + 1) rest

def Fault.locate (input : Bytes) (fault : Fault) : SyntaxError :=
  let (line, column) := place 1 0 (input.take (input.length - fault.rest.length))
  ⟨fault.cause, line, column⟩

def parse (input : Bytes) : Except SyntaxError Value :=
  match readDocument input with
  | .ok value => .ok value
  | .error fault => .error (fault.locate input)

def parseText (input : String) : Except SyntaxError Value := parse (octets input)

end CodeAtlas.Json
