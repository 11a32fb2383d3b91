import CodeAtlas.Yaml.Scalar

/-!
# Writing texts as scalars

`scalarText` writes a text as the value of a name. A text stands plain where it reads back as
itself, else between single quotes, and between double quotes when it holds characters that cannot
be seen. A text with line feeds is a literal block where its lines admit it.
-/

namespace CodeAtlas.Yaml.Printer

def isVisible (c : Char) : Bool :=
  let n := c.toNat
  n == 0x0A || (decide (0x20 ≤ n) && decide (n ≤ 0x7E)) ||
    (decide (0xA0 ≤ n) && decide (n ≤ 0xFFFD) && n != 0xFEFF) || decide (0x10000 ≤ n)

/-- Whether a plain text cannot start with a character, by what follows it. -/
def refusesFirst (c : Char) (follows : Option Char) : Bool :=
  "#,[]\x7b\x7d&*!|>'\"%@`".toList.contains c ||
    (['?', ':', '-'].contains c && endsWord follows)

/-- Whether a sign within a text would end a plain scalar; `before` is the character before. -/
def hasInnerSign : (before : Char) → List Char → Bool
  | _, [] => false
  | before, c :: rest =>
    (c == ':' && endsWord rest.head?) || (c == '#' && endsWord (some before)) || hasInnerSign c rest

def hasSigns : List Char → Bool
  | [] => false
  | c :: rest =>
    let text := c :: rest
    text.take 3 == ['-', '-', '-'] || text.take 3 == ['.', '.', '.'] ||
      refusesFirst c rest.head? || hasInnerSign c rest

/-- Whether a character of the first class is followed by one of the second somewhere. -/
def hasPair (first second : Char → Bool) : List Char → Bool
  | a :: b :: rest => (first a && second b) || hasPair first second (b :: rest)
  | _ => false

def isSpace (c : Char) : Bool := c == ' '

def hasAtEdge (class_ : Char → Bool) (text : List Char) : Bool :=
  text.head?.any class_ || text.getLast?.any class_

variable (text : List Char) (indent : Nat)

def needsEscapes : Bool :=
  text.any (!isVisible ·) || hasPair isSpace isBreak text

def admitsPlain : Bool :=
  !needsEscapes text && !text.any isBreak && !hasAtEdge isSpace text && !hasSigns text

def admitsSingle : Bool := !needsEscapes text && !hasPair isBreak isSpace text

def admitsBlock : Bool := !needsEscapes text && !text.getLast?.any isSpace

/-- Whether a plain text would be read as something else than a text. -/
def readsAsOther (text : String) : Bool :=
  Scalar.isPaddedDigits text.toList || match Scalar.meaning? text with
    | some (.text _) => false
    | _ => true

def hexText (width n : Nat) : String :=
  let digits := (Nat.toDigits 16 n).map Char.toUpper
  String.ofList (List.replicate (width - digits.length) '0' ++ digits)

def escapedChar (c : Char) : String :=
  match c with
  | '\x00' => "\\0"
  | '\x07' => "\\a"
  | '\x08' => "\\b"
  | '\t' => "\\t"
  | '\n' => "\\n"
  | '\x0b' => "\\v"
  | '\x0c' => "\\f"
  | '\r' => "\\r"
  | '\x1b' => "\\e"
  | '"' => "\\\""
  | '\\' => "\\\\"
  | '\u0085' => "\\N"
  | '\u2028' => "\\L"
  | '\u2029' => "\\P"
  | _ =>
    if isVisible c then c.toString
    else if c.toNat ≤ 0xFF then "\\x" ++ hexText 2 c.toNat
    else if c.toNat ≤ 0xFFFF then "\\u" ++ hexText 4 c.toNat
    else "\\U" ++ hexText 8 c.toNat

def doubleQuoted : String := "\"" ++ String.join (text.map escapedChar) ++ "\""

/-- The spaces at the start of a line, if one starts here. -/
def margin (broken : Bool) : List Char :=
  if broken then List.replicate indent ' ' else []

/-- The characters between single quotes; a line that follows another is indented. -/
def singleChars (indent : Nat) : (broken : Bool) → List Char → List Char
  | broken, [] => margin indent broken
  | broken, c :: rest =>
    if isBreak c then c :: singleChars indent true rest
    else
      let written := if c == '\'' then ['\'', '\''] else [c]
      margin indent broken ++ written ++ singleChars indent false rest

def singleQuoted (text : List Char) : String :=
  "'" ++ String.ofList (singleChars indent false text) ++ "'"

/-- What the header of a block says of its last line ends. -/
def chompingSign : String :=
  match text.reverse with
  | [] => "-"
  | last :: before =>
    if !isBreak last then "-"
    else match before with
      | [] => "+"
      | c :: _ => if isBreak c then "+" else ""

/-- The lines of a block, each that is not empty with its indentation. -/
def blockChars (indent : Nat) : (broken : Bool) → List Char → List Char
  | _, [] => []
  | broken, c :: rest =>
    if isBreak c then c :: blockChars indent true rest
    else margin indent broken ++ c :: blockChars indent false rest

def block (text : List Char) : String :=
  let depth := if text.head?.any fun c => isSpace c || isBreak c then "2" else ""
  "|" ++ depth ++ chompingSign text ++ "\n" ++ String.ofList (blockChars indent true text)

/-- A text as the value of a name, where its further lines are indented by `indent`. -/
def scalarText (text : String) : String :=
  let chars := text.toList
  if chars.contains '\n' then
    if admitsBlock chars then block indent chars else doubleQuoted chars
  else if !readsAsOther text && admitsPlain chars then text
  else if admitsSingle chars then singleQuoted indent chars
  else doubleQuoted chars

end CodeAtlas.Yaml.Printer
