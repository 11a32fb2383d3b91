import CodeAtlas.Json.Decode

/-!
# Points and spans of time

Dates of the Gregorian calendar are extended to all years and counted in days over eras of four
hundred years that begin in March. A timestamp counts seconds from the first of January 1970 in
universal time, with nanoseconds; a leap second is a fifty-ninth second with more than a second of
nanoseconds. `Timestamp.parse` reads the usual internet format with some freedom in blanks, and
`Timestamp.text` writes it. A duration is a number of nanoseconds, shown in the largest unit that
gives a whole part.
-/

namespace CodeAtlas.Time

structure Date where
  year : Int
  month : Nat
  day : Nat
deriving DecidableEq

def isLeapYear (year : Int) : Bool :=
  year % 4 == 0 && (year % 100 != 0 || year % 400 == 0)

def daysInMonth (year : Int) (month : Nat) : Nat :=
  if month = 2 then (if isLeapYear year then 29 else 28)
  else if month = 4 ∨ month = 6 ∨ month = 9 ∨ month = 11 then 30
  else 31

def Date.isValid (d : Date) : Bool :=
  decide (1 ≤ d.month) && decide (d.month ≤ 12) && decide (1 ≤ d.day) &&
    decide (d.day ≤ daysInMonth d.year d.month)

/-- The days from the first of January 1970 to a date. -/
def daysOfDate (d : Date) : Int :=
  let year := if d.month ≤ 2 then d.year - 1 else d.year
  let era := year / 400
  let yearOfEra := year - era * 400
  let shifted : Int := ((d.month + 9) % 12 : Nat)
  let dayOfYear := (153 * shifted + 2) / 5 + d.day - 1
  let dayOfEra := yearOfEra * 365 + yearOfEra / 4 - yearOfEra / 100 + dayOfYear
  era * 146097 + dayOfEra - 719468

def dateOfDays (days : Int) : Date :=
  let z := days + 719468
  let era := z / 146097
  let dayOfEra := z - era * 146097
  let yearOfEra :=
    (dayOfEra - dayOfEra / 1460 + dayOfEra / 36524 - dayOfEra / 146096) / 365
  let dayOfYear := dayOfEra - (365 * yearOfEra + yearOfEra / 4 - yearOfEra / 100)
  let shifted := (5 * dayOfYear + 2) / 153
  let day := (dayOfYear - (153 * shifted + 2) / 5 + 1).toNat
  let month := (if shifted < 10 then shifted + 3 else shifted - 9).toNat
  let year := yearOfEra + era * 400 + (if month ≤ 2 then 1 else 0)
  ⟨year, month, day⟩

open Json (Value Decoder DecodeError)

structure Timestamp where
  seconds : Int
  nanos : Nat
deriving DecidableEq, Inhabited

inductive TimeFault where
  | outOfRange
  | impossible
  | invalid
  | tooShort
  | tooLong
deriving DecidableEq

def TimeFault.message : TimeFault → String
  | .outOfRange => "input is out of range"
  | .impossible => "no possible date and time matching input"
  | .invalid => "input contains invalid characters"
  | .tooShort => "premature end of input"
  | .tooLong => "trailing input"

def yearRange : Int × Int := (-262143, 262142)

/-- The digits at the front, at most `most` of them: the number and the rest. The number stays
below `2 ^ 63`. -/
def digitsOnto (sum : Nat) : (most : Nat) → List Char → Except TimeFault (Nat × List Char)
  | 0, rest => .ok (sum, rest)
  | most + 1, c :: rest =>
    if c.isDigit then
      let sum := sum * 10 + (c.toNat - 48)
      if sum < 2 ^ 63 then digitsOnto sum most rest else .error .outOfRange
    else .ok (sum, c :: rest)
  | _ + 1, [] => .ok (sum, [])

def number (most : Nat) (text : List Char) : Except TimeFault (Nat × List Char) :=
  match text with
  | [] => .error .tooShort
  | c :: _ => if c.isDigit then digitsOnto 0 most text else .error .invalid

/-- A number of one or two digits within bounds, after blanks. -/
def twoDigits (low high : Nat) (text : List Char) : Except TimeFault (Nat × List Char) := do
  let (n, rest) ← number 2 (Text.trimStart text)
  if low ≤ n ∧ n ≤ high then return (n, rest) else .error .outOfRange

def mark (expected : Char) (text : List Char) : Except TimeFault (List Char) :=
  match Text.trimStart text with
  | [] => .error .tooShort
  | c :: rest => if c = expected then .ok rest else .error .invalid

/-- A year: four digits, or any number after a sign. -/
def year (text : List Char) : Except TimeFault (Int × List Char) := do
  let text := Text.trimStart text
  let (value, rest) : Int × List Char ←
    match text with
    | '-' :: after => do
      let (n, rest) ← number after.length after
      pure (-(n : Int), rest)
    | '+' :: after => do
      let (n, rest) ← number after.length after
      pure ((n : Int), rest)
    | _ => do
      let (n, rest) ← number 4 text
      pure ((n : Int), rest)
  if -2 ^ 31 ≤ value ∧ value < 2 ^ 31 then return (value, rest) else .error .outOfRange

/-- The nanoseconds after a decimal point, of which nine digits count. -/
def fraction (text : List Char) : Except TimeFault (Nat × List Char) :=
  match text with
  | '.' :: after => do
    let (n, rest) ← number 9 after
    let places := after.length - rest.length
    return (n * 10 ^ (9 - places), rest.dropWhile Char.isDigit)
  | _ => .ok (0, text)

/-- Two digits of an offset; a text that ends too early is told from one with other characters. -/
def offsetDigits (text : List Char) : Except TimeFault (Nat × Nat × List Char) :=
  match text with
  | a :: b :: rest =>
    if a.isDigit ∧ b.isDigit then .ok (a.toNat - 48, b.toNat - 48, rest) else .error .invalid
  | [a] => if a.toNat < 0x80 then .error .tooShort else .error .invalid
  | [] => .error .tooShort

/-- An offset from universal time in seconds: `Z`, or a sign, hours and minutes. -/
def offset (text : List Char) : Except TimeFault (Int × List Char) := do
  match text with
  | 'Z' :: rest => return (0, rest)
  | 'z' :: rest => return (0, rest)
  | [] => .error .tooShort
  | sign :: after =>
    let negative ←
      if sign = '+' then pure false
      else if sign = '-' ∨ sign = '−' then pure true
      else .error .invalid
    let (h₁, h₂, rest) ← offsetDigits after
    let rest := rest.dropWhile fun c => c = ':' ∨ Text.isBlank c
    let (m₁, m₂, rest) ← offsetDigits rest
    if 6 ≤ m₁ then .error .outOfRange
    else
      let seconds : Int := ((h₁ * 10 + h₂) * 3600 + (m₁ * 10 + m₂) * 60 : Nat)
      return (if negative then -seconds else seconds, rest)

def zone (text : List Char) : Except TimeFault (Int × List Char) :=
  if Text.sameUpToCase (text.take 3) ['u', 't', 'c'] then .ok (0, text.drop 3) else offset text

namespace Timestamp

def read (text : List Char) : Except TimeFault (Timestamp × List Char) := do
  let (year, rest) ← year text
  let rest ← mark '-' rest
  let (month, rest) ← twoDigits 1 12 rest
  let rest ← mark '-' rest
  let (day, rest) ← twoDigits 1 31 rest
  let rest ← match rest with
    | [] => .error .tooShort
    | c :: rest => if c = 'T' ∨ c = 't' ∨ c = ' ' then pure rest else .error .invalid
  let (hour, rest) ← twoDigits 0 23 rest
  let rest ← mark ':' rest
  let (minute, rest) ← twoDigits 0 59 rest
  let rest ← mark ':' rest
  let (second, rest) ← twoDigits 0 60 rest
  let (nanos, rest) ← fraction rest
  let (offset, rest) ← zone (Text.trimStart rest)
  if !(Text.trimStart rest).isEmpty then .error .tooLong
  let date : Date := ⟨year, month, day⟩
  if !date.isValid ∨ year < yearRange.1 ∨ yearRange.2 < year then .error .outOfRange
  if offset ≤ -86400 ∨ 86400 ≤ offset then .error .outOfRange
  let second' := if second = 60 then 59 else second
  let nanos := if second = 60 then nanos + 1000000000 else nanos
  let clock : Int := (hour * 3600 + minute * 60 + second' : Nat)
  let seconds := daysOfDate date * 86400 + clock - offset
  let shown := (dateOfDays (seconds / 86400)).year
  if shown < yearRange.1 ∨ yearRange.2 < shown then .error .impossible
  return (⟨seconds, nanos⟩, rest)

def parse (text : String) : Except TimeFault Timestamp := do
  let (timestamp, _) ← read text.toList
  return timestamp

def padded (width n : Nat) : String :=
  let digits := Nat.toDigits 10 n
  String.ofList (List.replicate (width - digits.length) '0' ++ digits)

/-- A year in four digits, with a sign if it has more or is negative. -/
def yearText (year : Int) : String :=
  if 0 ≤ year ∧ year ≤ 9999 then padded 4 year.toNat
  else (if year < 0 then "-" else "+") ++ padded 4 year.natAbs

/-- Nanoseconds in as many groups of three digits as they need. -/
def fractionText (nanos : Nat) : String :=
  if nanos = 0 then ""
  else if nanos % 1000000 = 0 then "." ++ padded 3 (nanos / 1000000)
  else if nanos % 1000 = 0 then "." ++ padded 6 (nanos / 1000)
  else "." ++ padded 9 nanos

def text (t : Timestamp) : String :=
  let date := dateOfDays (t.seconds / 86400)
  let clock := (t.seconds % 86400).toNat
  let leap := 1000000000 ≤ t.nanos
  let second := clock % 60 + if leap then 1 else 0
  let nanos := if leap then t.nanos - 1000000000 else t.nanos
  yearText date.year ++ "-" ++ padded 2 date.month ++ "-" ++ padded 2 date.day ++ "T" ++
    padded 2 (clock / 3600) ++ ":" ++ padded 2 (clock / 60 % 60) ++ ":" ++ padded 2 second ++
    fractionText nanos ++ "Z"

def decode : Decoder Timestamp
  | .str s =>
    match parse s with
    | .ok t => .ok t
    | .error fault => .error (.worded fault.message)
  | value => Decoder.mismatch value "an RFC 3339 formatted date and time string"

/-- The milliseconds of the earliest and the latest point in time. -/
def millisRange : Int × Int := (-8334601228800000, 8210266876799999)

/-- The point in time that many milliseconds after the first of January 1970. -/
def ofMillis? (ms : Int) : Option Timestamp :=
  if millisRange.1 ≤ ms ∧ ms ≤ millisRange.2 then
    some ⟨ms / 1000, (ms % 1000).toNat * 1000000⟩
  else none

def millis (t : Timestamp) : Int := t.seconds * 1000 + (t.nanos / 1000000 : Nat)

end Timestamp

open Json (Value Decoder DecodeError Fields)

structure Duration where
  nanoseconds : Nat
deriving DecidableEq, Inhabited

namespace Duration

def ofMillis (ms : Nat) : Duration := ⟨ms * 1000000⟩

def ofMicros (us : Nat) : Duration := ⟨us * 1000⟩

def ofSeconds (s : Nat) : Duration := ⟨s * 1000000000⟩

def millis (d : Duration) : Nat := d.nanoseconds / 1000000

def seconds (d : Duration) : Nat := d.nanoseconds / 1000000000

def fraction (d : Duration) : Nat := d.nanoseconds % 1000000000

/-- A remainder below ten to `places` as digits after a point, without trailing zeros. -/
def fractionDigits (remainder places : Nat) : String :=
  let digits := Nat.toDigits 10 remainder
  let padded := List.replicate (places - digits.length) '0' ++ digits
  let kept := (padded.reverse.dropWhile (· = '0')).reverse
  if kept.isEmpty then "" else "." ++ String.ofList kept

def text (d : Duration) : String :=
  let n := d.nanoseconds
  if 1000000000 ≤ n then toString (n / 1000000000) ++ fractionDigits (n % 1000000000) 9 ++ "s"
  else if 1000000 ≤ n then toString (n / 1000000) ++ fractionDigits (n % 1000000) 6 ++ "ms"
  else if 1000 ≤ n then toString (n / 1000) ++ fractionDigits (n % 1000) 3 ++ "µs"
  else toString n ++ "ns"

/-- Reads a duration from its whole seconds and the nanoseconds after them; more than a second of
nanoseconds carries over. -/
def decode : Decoder Duration := fun value => do
  let fields := (fun (secs nanos : Nat) => (secs, nanos)) <$> Fields.required "secs" .nat64
    <*> Fields.required "nanos" .nat32
  let (secs, nanos) ← fields.read "struct Duration" "struct Duration" true value
  if 2 ^ 64 ≤ secs + nanos / 1000000000 then
    .error (.worded "overflow deserializing Duration")
  else
    return ⟨secs * 1000000000 + nanos⟩

def toValue (d : Duration) : Value :=
  .object [("secs", .nat d.seconds), ("nanos", .nat d.fraction)]

end Duration

end CodeAtlas.Time
