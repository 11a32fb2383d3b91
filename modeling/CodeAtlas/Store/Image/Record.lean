import CodeAtlas.Store.Datum

/-!
# Headers and records of database files

A database file is a run of pages of one size. The first page starts with a header of a hundred
octets, which says how large pages are, how texts are encoded, and who may write the file. A record
is a row as it is stored: its length and the types of its columns, and then their octets. Numbers of
varying length keep seven bits in an octet.
-/

namespace CodeAtlas.Store.Image

variable (bytes : Bytes)

/-- The number that octets write, the first being the most significant. -/
def number : Nat := bytes.foldl (fun n octet => 256 * n + octet.toNat) 0

def field (offset width : Nat) : Nat := number ((bytes.drop offset).take width)

inductive Encoding where
  | utf8
  | utf16le
  | utf16be
deriving DecidableEq

structure Header where
  pageSize : Nat
  usable : Nat
  isReadOnly : Bool
  isAhead : Bool
  /-- The number of pages, if the header can be relied on for it. -/
  pages : Nat
  /-- Whether the pages that are said to be free cannot be, so that none can be added. -/
  isStuck : Bool
  format : Nat
  encoding : Encoding
deriving DecidableEq

def magic : Bytes := octets "SQLite format 3" ++ [0]

def headerLength : Nat := 100

def pageCount (pageSize : Nat) : Nat := (bytes.length + pageSize - 1) / pageSize

/-- Whether pages may have a size: a power of two within limits. -/
def isPageSize (size : Nat) : Bool := [9, 10, 11, 12, 13, 14, 15, 16].any fun k => size == 2 ^ k

def Header.read? : Option Header :=
  let header := bytes.take headerLength ++ List.replicate (headerLength - bytes.length) 0
  let at_ := field header
  let pageSize := if at_ 16 2 = 1 then 65536 else at_ 16 2
  let usable := pageSize - at_ 20 1
  if header.take 16 ≠ magic ∨ 2 < at_ 19 1 ∨ at_ 21 3 ≠ 0x402020 ∨ !isPageSize pageSize then none
  else
    let inFile := pageCount bytes pageSize
    let pages := if at_ 28 4 = 0 ∨ at_ 24 4 ≠ at_ 92 4 then inFile else at_ 28 4
    let free := at_ 36 4
    some {
      pageSize, usable, pages
      isReadOnly := 2 < at_ 18 1
      isAhead := at_ 19 1 == 2
      isStuck := pages ≤ free ∨ (free ≠ 0 ∧ (at_ 32 4 = 0 ∨ pages < at_ 32 4)) ∨ pages < at_ 52 4
      format := at_ 47 1
      encoding := match at_ 59 1 % 4 with
        | 2 => .utf16le
        | 3 => .utf16be
        | _ => .utf8 }

/-- Reads a number of varying length, of which `value` is read: its octets have a leading one except
the last, and the ninth counts in full. -/
def varintFrom? : (octetsLeft : Nat) → (value : Nat) → Bytes → Option (Nat × Bytes)
  | _, _, [] => none
  | 0, value, octet :: rest => some (256 * value + octet.toNat, rest)
  | left + 1, value, octet :: rest =>
    let value := 128 * value + octet.toNat % 128
    if octet < 128 then some (value, rest) else varintFrom? left value rest

def varint? : Option (Nat × Bytes) := varintFrom? 8 0 bytes

def signed (octetCount n : Nat) : Int :=
  let bound := 256 ^ octetCount
  if 2 * (n % bound) < bound then ((n % bound : Nat) : Int) else ((n % bound : Nat) : Int) - bound

/-- The octets of pairs in the other order. -/
def swapPairs : Bytes → Bytes
  | a :: b :: rest => b :: a :: swapPairs rest
  | rest => rest

/-- The character of a unit of sixteen bits, and of two where the first starts a pair. -/
def charOfUnits (a b : Nat) : Option Char :=
  if 0xD800 ≤ a ∧ a < 0xDC00 ∧ 0xDC00 ≤ b ∧ b < 0xE000 then
    some (Char.ofNat (0x10000 + (a - 0xD800) * 0x400 + (b - 0xDC00)))
  else none

/-- The characters of octets in units of sixteen bits, the more significant octet first. -/
def decodeUnits : Bytes → List Char
  | a :: b :: rest =>
    let unit := 256 * a.toNat + b.toNat
    match rest with
    | c :: d :: more =>
      match charOfUnits unit (256 * c.toNat + d.toNat) with
      | some char => char :: decodeUnits more
      | none => (if unit.isValidChar then Char.ofNat unit else Utf8.replacement) ::
          decodeUnits (c :: d :: more)
    | _ => [if unit.isValidChar then Char.ofNat unit else Utf8.replacement]
  | _ => []
termination_by bytes => bytes.length

def Encoding.toUtf8 : Encoding → Bytes → Bytes
  | .utf8, bytes => bytes
  | .utf16be, bytes => Utf8.encode (decodeUnits bytes)
  | .utf16le, bytes => Utf8.encode (decodeUnits (swapPairs bytes))

def typeWidth (type : Nat) : Nat :=
  match type with
  | 0 => 0
  | 1 => 1
  | 2 => 2
  | 3 => 3
  | 4 => 4
  | 5 => 6
  | 6 => 8
  | 7 => 8
  | _ => if type < 12 then 0 else (type - 12) / 2

def readDatum (encoding : Encoding) (type : Nat) (bytes : Bytes) : Datum :=
  if type = 0 then .null
  else if type < 7 then .integer (signed (typeWidth type) (number bytes))
  else if type = 7 then
    let x : Binary64 := ⟨(number bytes).toUInt64⟩
    if x.isNumber then .real x else .null
  else if type < 10 then .integer (type - 8 : Nat)
  else if type < 12 then .null
  else if type % 2 = 0 then .blob bytes
  else .text (encoding.toUtf8 bytes)

/-- The types in the header of a record, at most `most` of them. -/
def readTypes? : (most : Nat) → Bytes → Option (List Nat)
  | _, [] => some []
  | 0, _ :: _ => none
  | most + 1, bytes => do
    let (type, rest) ← varint? bytes
    return type :: (← readTypes? most rest)

def readData? (encoding : Encoding) : List Nat → Bytes → Option (List Datum)
  | [], _ => some []
  | type :: types, bytes => do
    let size := typeWidth type
    if bytes.length < size then none
    let rest ← readData? encoding types (bytes.drop size)
    return readDatum encoding type (bytes.take size) :: rest

/-- Reads a record. Octets without a header are one of no columns. -/
def readRecord? (encoding : Encoding) (bytes : Bytes) : Option (List Datum) :=
  match varint? bytes with
  | none => if bytes.isEmpty then some [] else none
  | some (size, _) => do
    if size = 0 then return []
    if bytes.length < size then none
    let (_, header) ← varint? (bytes.take size)
    let types ← readTypes? header.length header
    readData? encoding types (bytes.drop size)

end CodeAtlas.Store.Image
