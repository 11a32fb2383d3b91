import CodeAtlas.Number.Binary64

/-!
# Formatted output

The texts that `echo` and `printf` write: escapes behind backslashes, and directives behind percent
signs that are filled in from arguments.
-/

namespace CodeAtlas.Supervision.Shell.Format

def letter? : Char → Option UInt8
  | 'a' => some 7
  | 'b' => some 8
  | 't' => some 9
  | 'n' => some 10
  | 'v' => some 11
  | 'f' => some 12
  | 'r' => some 13
  | '\\' => some 92
  | _ => none

def isOctal (c : Char) : Bool := '0' ≤ c && c ≤ '7'

def octal : (places value : Nat) → List Char → Nat × List Char
  | places + 1, value, c :: rest =>
    if isOctal c then octal places (8 * value + (c.toNat - 48)) rest else (value, c :: rest)
  | _, value, rest => (value, rest)

def escape : List Char → Bytes × List Char
  | [] => ([92], [])
  | c :: rest =>
    match letter? c with
    | some octet => ([octet], rest)
    | none =>
      if isOctal c then
        let (value, rest) := octal 3 0 (c :: rest)
        ([UInt8.ofNat value], rest)
      else ([92], c :: rest)

/-- A text with its escapes undone, and whether one of them ends all output. Digits in base eight
come behind a zero. -/
def unescaped : (most : Nat) → List Char → Bytes × Bool
  | 0, _ => ([], false)
  | _ + 1, [] => ([], false)
  | most + 1, '\\' :: rest =>
    match rest with
    | 'c' :: _ => ([], true)
    | '0' :: digits =>
      let (value, rest) := octal 3 0 digits
      let (bytes, ends) := unescaped most rest
      (UInt8.ofNat value :: bytes, ends)
    | _ =>
      let (first, rest) := escape rest
      let (bytes, ends) := unescaped most rest
      (first ++ bytes, ends)
  | most + 1, c :: rest =>
    let (bytes, ends) := unescaped most rest
    (Utf8.encodeChar c ++ bytes, ends)

def echo (arguments : List String) : Bytes :=
  let (words, ending) : List String × Bytes := match arguments with
    | "-n" :: words => (words, [])
    | words => (words, [10])
  let text := (" ".intercalate words).toList
  let (bytes, ends) := unescaped (text.length + 1) text
  if ends then bytes else bytes ++ ending

/-- The options of the program `echo`: whether a line ends, and whether escapes are read. -/
def echoOptions : List String → (ends escapes : Bool) → Bool × Bool × List String
  | word :: words, ends, escapes =>
    match word.toList with
    | '-' :: c :: letters =>
      if (c :: letters).all ['n', 'e', 'E'].contains then
        let isLast := (c :: letters).reverse.find? (· != 'n')
        echoOptions words (ends && !(c :: letters).contains 'n')
          ((isLast.map (· == 'e')).getD escapes)
      else (ends, escapes, word :: words)
    | _ => (ends, escapes, word :: words)
  | [], ends, escapes => (ends, escapes, [])

def plainEcho (arguments : List String) : Bytes :=
  let (ends, escapes, words) := echoOptions arguments true false
  let text := " ".intercalate words
  let ending : Bytes := if ends then [10] else []
  if escapes then
    let (bytes, isCut) := unescaped (text.length + 1) text.toList
    if isCut then bytes else bytes ++ ending
  else octets text ++ ending

/-- What stands between a percent sign and the letter of a directive. -/
structure Layout where
  left : Bool := false
  plus : Bool := false
  blank : Bool := false
  zero : Bool := false
  width : Nat := 0
  precision : Option Nat := none

variable (layout : Layout)

def Layout.pad (text : Bytes) : Bytes :=
  let filling := List.replicate (layout.width - text.length) (32 : UInt8)
  if layout.left then text ++ filling else filling ++ text

/-- A number as a sign and digits, filled up to the width of a layout. -/
def Layout.padNumber (negative : Bool) (digits : String) (zeros : Bool) : Bytes :=
  let sign :=
    if negative then "-" else if layout.plus then "+" else if layout.blank then " " else ""
  let missing := layout.width - sign.length - digits.length
  let filling := if zeros && layout.zero && !layout.left then List.replicate missing '0' else []
  layout.pad (octets (sign ++ String.ofList filling ++ digits))

def digitsIn (base n : Nat) (capital : Bool) : String :=
  let digits := Nat.toDigits base n
  String.ofList (if capital then digits.map Char.toUpper else digits)

/-- The digits of an integer, with at least as many as the precision of a layout. -/
def Layout.integer (base : Nat) (capital : Bool) (negative : Bool) (n : Nat) : Bytes :=
  let digits := digitsIn base n capital
  let missing := layout.precision.getD 0 - digits.length
  layout.padNumber negative (String.ofList (List.replicate missing '0') ++ digits)
    layout.precision.isNone

/-- The integer at the start of a text, and whether it is all of it. A character behind a quote
stands for its code. -/
def integer (text : String) : Int × Bool :=
  match text.toList.dropWhile (· == ' ') with
  | [] => (0, true)
  | '\'' :: c :: _ | '"' :: c :: _ => (c.toNat, true)
  | c :: rest =>
    let body := if c == '-' || c == '+' then rest else c :: rest
    let (base, body) : Nat × List Char := match body with
      | '0' :: 'x' :: rest => (16, rest)
      | '0' :: d :: rest => (8, d :: rest)
      | body => (10, body)
    let run := body.takeWhile fun d => (Text.hexDigit? d).any (· < base)
    let n := run.foldl (fun sum d => base * sum + (Text.hexDigit? d).getD 0) 0
    (if c == '-' then -(n : Int) else n, !run.isEmpty && run.length == body.length)

/-- A number with a fraction, rounded to the precision of a layout. -/
def Layout.fraction (x : Binary64) : Bytes :=
  let places := layout.precision.getD 6
  let numerator := x.significand * 2 ^ x.exponent.toNat * 10 ^ places
  let scaled := Binary64.roundedQuotient numerator (2 ^ (-x.exponent).toNat)
  let whole := toString (scaled / 10 ^ places)
  let digits := Nat.toDigits 10 (scaled % 10 ^ places)
  let fraction := List.replicate (places - digits.length) '0' ++ digits
  let text := if places = 0 then whole else whole ++ "." ++ String.ofList fraction
  layout.padNumber x.isNegative text true

def flags : Layout → List Char → Layout × List Char
  | layout, '-' :: rest => flags { layout with left := true } rest
  | layout, '+' :: rest => flags { layout with plus := true } rest
  | layout, ' ' :: rest => flags { layout with blank := true } rest
  | layout, '0' :: rest => flags { layout with zero := true } rest
  | layout, '#' :: rest => flags layout rest
  | layout, rest => (layout, rest)

/-- A width or precision, which may come from an argument, and what is left. -/
def size (arguments : List String) (text : List Char) : Nat × List String × List Char :=
  match text with
  | '*' :: rest => ((integer (arguments.headD "0")).1.toNat, arguments.tail, rest)
  | _ =>
    let digits := text.takeWhile Char.isDigit
    ((Text.digitsValue? digits).getD 0, arguments, text.drop digits.length)

/-- What has been written, what is left of the arguments, whether all output has ended, and the
status. -/
structure Output where
  bytes : Bytes := []
  arguments : List String
  ends : Bool := false
  status : Nat := 0

def Output.after (bytes : Bytes) (status : Nat) (output : Output) : Output :=
  { output with bytes := bytes ++ output.bytes, status := max status output.status }

/-- What a directive writes for an argument, and the status; `none` if it is not known. -/
def directive? (letter : Char) (argument : String) : Option (Bytes × Nat) :=
  let (n, isWhole) := integer argument
  let status := if isWhole then 0 else 1
  let word := (n % 2 ^ 64).toNat
  match letter with
  | 's' =>
    let size := layout.precision.getD (octetCount argument)
    some (layout.pad ((octets argument).take size), 0)
  | 'c' => some (layout.pad ((octets argument).take 1), 0)
  | 'd' | 'i' => some (layout.integer 10 false (decide (n < 0)) n.natAbs, status)
  | 'u' => some (layout.integer 10 false false word, status)
  | 'o' => some (layout.integer 8 false false word, status)
  | 'x' => some (layout.integer 16 false false word, status)
  | 'X' => some (layout.integer 16 true false word, status)
  | 'f' =>
    match (Numeral.parse? argument.toList).bind Numeral.nearest? with
    | some x => some (layout.fraction x, 0)
    | none => some (layout.fraction .zero, if argument.isEmpty then 0 else 1)
  | _ => none

def pass : (most : Nat) → (arguments : List String) → List Char → Output
  | 0, arguments, _ => { arguments }
  | _ + 1, arguments, [] => { arguments }
  | most + 1, arguments, '\\' :: rest =>
    let (bytes, rest) := escape rest
    (pass most arguments rest).after bytes 0
  | most + 1, arguments, '%' :: '%' :: rest => (pass most arguments rest).after [37] 0
  | most + 1, arguments, '%' :: rest =>
    let (layout, rest) := flags {} rest
    let (width, arguments, rest) := size arguments rest
    let layout := { layout with width }
    let (layout, arguments, rest) : Layout × List String × List Char := match rest with
      | '.' :: rest =>
        let (precision, arguments, rest) := size arguments rest
        ({ layout with precision := some precision }, arguments, rest)
      | rest => (layout, arguments, rest)
    match rest with
    | 'b' :: rest =>
      let text := (arguments.headD "").toList
      let (bytes, ends) := unescaped (text.length + 1) text
      if ends then { bytes, arguments := [], ends }
      else (pass most arguments.tail rest).after (layout.pad bytes) 0
    | letter :: rest =>
      match directive? layout letter (arguments.headD "") with
      | some (bytes, status) => (pass most arguments.tail rest).after bytes status
      | none => { arguments := [], ends := true, status := 2 }
    | [] => { arguments := [], ends := true, status := 2 }
  | most + 1, arguments, c :: rest => (pass most arguments rest).after (Utf8.encodeChar c) 0

def passes (format : List Char) : (most : Nat) → (arguments : List String) → Bytes × Nat
  | 0, _ => ([], 0)
  | most + 1, arguments =>
    let output := pass (format.length + 1) arguments format
    if output.ends || output.arguments.isEmpty || output.arguments.length == arguments.length then
      (output.bytes, output.status)
    else
      let (bytes, status) := passes format most output.arguments
      (output.bytes ++ bytes, max output.status status)

def printf : List String → Bytes × Nat
  | [] => ([], 2)
  | format :: arguments => passes format.toList (arguments.length + 1) arguments

end CodeAtlas.Supervision.Shell.Format
