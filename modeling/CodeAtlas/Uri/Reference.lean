import CodeAtlas.Json.Reader

/-!
# URI references

`check` decides whether octets are a URI or a relative reference of the generic syntax: a scheme, an
authority, a path, a query and a fragment, each with its own set of octets. The first octet that
does not fit is named by its index. Octets that a URI cannot hold are written as a percent sign and
two hexadecimal digits.
-/

namespace CodeAtlas.Uri

def percentSign : UInt8 := 0x25

/-- The digit of a number below sixteen, with capital letters. -/
def hexDigit (n : Nat) : UInt8 := if n < 10 then (0x30 + n).toUInt8 else (0x37 + n).toUInt8

def escapeOctet (octet : UInt8) : Bytes :=
  [percentSign, hexDigit (octet.toNat / 16), hexDigit (octet.toNat % 16)]

/-- Encodes the octets that `keep` does not let through. -/
def escape (keep : UInt8 → Bool) : Bytes → Bytes
  | [] => []
  | octet :: rest =>
    if keep octet then octet :: escape keep rest else escapeOctet octet ++ escape keep rest

/-- Replaces each percent sign and its two digits by the octet that they stand for. -/
def unescape : Bytes → Bytes
  | [] => []
  | 0x25 :: high :: low :: rest =>
    match Json.hexDigit? high, Json.hexDigit? low with
    | some h, some l => (h * 16 + l).toUInt8 :: unescape rest
    | _, _ => 0x25 :: unescape (high :: low :: rest)
  | octet :: rest => octet :: unescape rest

inductive SyntaxFault where
  /-- An octet that may not stand at this index. -/
  | unexpected (index : Nat)
  /-- A percent sign without two hexadecimal digits. -/
  | octet (index : Nat)
  /-- Brackets around something that is not an address. -/
  | address (index : Nat)
deriving DecidableEq

def SyntaxFault.message : SyntaxFault → String
  | .unexpected index => s!"unexpected character at index {index}"
  | .octet index => s!"invalid percent-encoded octet at index {index}"
  | .address index => s!"invalid IP literal at index {index}"

variable (b : UInt8) (c : Cursor) (text : Bytes)

def isLetter : Bool := (0x41 ≤ b && b ≤ 0x5A) || (0x61 ≤ b && b ≤ 0x7A)

def isDigit : Bool := 0x30 ≤ b && b ≤ 0x39

def isHex : Bool := (Json.hexDigit? b).isSome

def isOneOf (characters : String) (b : UInt8) : Bool := (octets characters).contains b

/-- Letters, digits and four marks, which have no meaning of their own. -/
def isUnreserved : Bool := isLetter b || isDigit b || isOneOf "-._~" b

/-- Delimiters within a part. -/
def isSubDelimiter : Bool := isOneOf "!$&'()*+,;=" b

def isSchemeOctet : Bool := isLetter b || isDigit b || isOneOf "+-." b

/-- What a host is made of, encoded octets aside. -/
def isHostOctet : Bool := isUnreserved b || isSubDelimiter b

/-- What stands before the at sign of an authority, encoded octets aside. -/
def isUserOctet : Bool := isHostOctet b || isOneOf ":" b

/-- What the first segment of a path without a scheme is made of, encoded octets aside. -/
def isFirstSegmentOctet : Bool := isHostOctet b || isOneOf "@" b

/-- What a path is made of, encoded octets aside. -/
def isPathOctet : Bool := isFirstSegmentOctet b || isOneOf ":/" b

/-- What a query or a fragment is made of, encoded octets aside. -/
def isQueryOctet : Bool := isPathOctet b || isOneOf "?" b

/-- Octets that are yet to be checked, and the index of the first of them. -/
structure Cursor where
  rest : Bytes
  index : Nat

/-- Steps over octets that are allowed and over encoded ones. -/
def scan (allowed : UInt8 → Bool) : Bytes → Nat → Except SyntaxFault Cursor
  | [], index => .ok ⟨[], index⟩
  | 0x25 :: high :: low :: rest, index =>
    if isHex high && isHex low then scan allowed rest (index + 3) else .error (.octet index)
  | octet :: rest, index =>
    if octet = percentSign then .error (.octet index)
    else if allowed octet then scan allowed rest (index + 1)
    else .ok ⟨octet :: rest, index⟩

/-- Steps over a part that a mark introduces, if it is there. -/
def scanMarked (mark : UInt8) (allowed : UInt8 → Bool) (c : Cursor) : Except SyntaxFault Cursor :=
  match c.rest with
  | [] => .ok c
  | octet :: rest => if octet = mark then scan allowed rest (c.index + 1) else .ok c

/-- Checks that a query and a fragment are all that follows a path. -/
def checkTail : Except SyntaxFault Unit := do
  let c ← scanMarked 0x3F isQueryOctet c
  let c ← scanMarked 0x23 isQueryOctet c
  if c.rest.isEmpty then return else throw (.unexpected c.index)

/-- Checks what follows an authority: a path that is empty or starts with a slash. -/
def checkRooted : Except SyntaxFault Unit := do
  let next ← scan isPathOctet c.rest c.index
  if next.index ≠ c.index ∧ c.rest.head? ≠ some 0x2F then throw (.unexpected c.index)
  checkTail next

/-- Whether octets are a decimal number up to 255 without leading zeros. -/
def isDecimalOctet (digits : Bytes) : Bool :=
  digits.all isDigit && 0 < digits.length && digits.length ≤ 3 &&
    (digits.head? != some 0x30 || digits.length == 1) &&
    digits.foldl (fun n b => n * 10 + (b.toNat - 0x30)) 0 ≤ 255

/-- Whether octets are an address of four decimal numbers. -/
def isDottedAddress : Bool :=
  let parts := cutAt 0x2E text
  parts.length == 4 && parts.all isDecimalOctet

def isHexGroup : Bool :=
  text.all isHex && 0 < text.length && text.length ≤ 4

/-- How many 16-bit groups the pieces of an address stand for; the last may be a dotted address
if `final`. -/
def groupCount? (final : Bool) : List Bytes → Option Nat
  | [] => some 0
  | [last] =>
    if isHexGroup last then some 1 else if final && isDottedAddress last then some 2 else none
  | piece :: rest =>
    if isHexGroup piece then (groupCount? final rest).map (· + 1) else none

/-- How many groups a text between colons stands for. -/
def groupsOf? (final : Bool) (text : Bytes) : Option Nat :=
  if text.isEmpty then some 0 else groupCount? final (cutAt 0x3A text)

/-- The parts of a text before and after its first double colon. -/
def splitGap? : Bytes → Option (Bytes × Bytes)
  | 0x3A :: 0x3A :: rest => some ([], rest)
  | octet :: rest => (splitGap? rest).map fun (left, right) => (octet :: left, right)
  | [] => none

/-- Whether octets are a 128-bit address: eight groups, or fewer around one gap. -/
def isLongAddress : Bool :=
  match splitGap? text with
  | none => groupsOf? true text == some 8
  | some (left, right) =>
    match groupsOf? false left, groupsOf? true right with
    | some a, some b => a + b ≤ 7
    | _, _ => false

/-- Steps over a 128-bit address in brackets, if there is one. -/
def scanAddress : Except SyntaxFault (Option Cursor) :=
  match c.rest with
  | 0x5B :: rest =>
    let text := rest.takeWhile (· ≠ 0x5D)
    match rest.dropWhile (· ≠ 0x5D) with
    | _ :: after =>
      if isLongAddress text then .ok (some ⟨after, c.index + text.length + 2⟩)
      else .error (.address c.index)
    | [] => .error (.address c.index)
  | _ => .ok none

def scanPort : Cursor :=
  match c.rest with
  | 0x3A :: rest =>
    let digits := rest.takeWhile isDigit
    ⟨rest.drop digits.length, c.index + 1 + digits.length⟩
  | _ => c

/-- Checks a host and perhaps a port, whose first octet has the index `start`. -/
def checkHostPort (start : Nat) : Except SyntaxFault Unit :=
  let host := text.takeWhile (· ≠ 0x3A)
  match text.dropWhile (· ≠ 0x3A) with
  | [] => .ok ()
  | _ :: port =>
    if port.contains 0x3A then .error (.unexpected (start + host.length))
    else
      let digits := port.reverse.takeWhile isDigit
      if digits.length = port.length then .ok ()
      else .error (.unexpected (start + text.length - digits.length - 1))

def checkAuthority : Except SyntaxFault Unit := do
  let next ← scan isUserOctet c.rest c.index
  match next.rest with
  | 0x40 :: rest =>
    let host : Cursor := ⟨rest, next.index + 1⟩
    match ← scanAddress host with
    | some after => checkRooted (scanPort after)
    | none => checkRooted (scanPort (← scan isHostOctet host.rest host.index))
  | _ =>
    if next.index = c.index then
      match ← scanAddress c with
      | some after => checkRooted (scanPort after)
      | none => checkRooted c
    else
      checkHostPort (c.rest.take (next.index - c.index)) c.index
      checkRooted next

def checkHierarchy : Except SyntaxFault Unit :=
  match c.rest with
  | 0x2F :: 0x2F :: rest => checkAuthority ⟨rest, c.index + 2⟩
  | _ => do checkTail (← scan isPathOctet c.rest c.index)

/-- Checks that octets are a URI or a relative reference. -/
def check : Except SyntaxFault Unit :=
  let name := text.takeWhile isSchemeOctet
  match text.dropWhile isSchemeOctet with
  | 0x3A :: rest =>
    if (name.head?.map isLetter).getD false then checkHierarchy ⟨rest, name.length + 1⟩
    else .error (.unexpected 0)
  | after => do
    if name.isEmpty ∧ after.take 2 = [0x2F, 0x2F] then checkAuthority ⟨after.drop 2, 2⟩
    else
      let c ← scan isFirstSegmentOctet after name.length
      if c.rest.head? = some 0x3A then throw (.unexpected c.index)
      checkTail (← scan isPathOctet c.rest c.index)

end CodeAtlas.Uri

namespace CodeAtlas

/-- A text that is a URI or a relative reference. -/
structure Uri where
  text : String
  valid : Uri.check (octets text) = .ok ()
deriving DecidableEq

namespace Uri

def parse (text : String) : Except SyntaxFault Uri :=
  match h : check (octets text) with
  | .ok () => .ok ⟨text, h⟩
  | .error fault => .error fault

end Uri

end CodeAtlas
