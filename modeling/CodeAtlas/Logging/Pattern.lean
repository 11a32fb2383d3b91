import CodeAtlas.Text.Basic
import CodeAtlas.Text.Unicode

/-!
# Patterns for the values of fields

A pattern is a regular expression. `Pattern.check` decides whether a text is one that a matcher can
be built for. It reads the text once, and keeps of each part only its height, the number of levels
that nest in it.

Characters stand for themselves, and classes of characters only by the octets of ASCII: there is no
table of the letters, digits and cases of other scripts. So a pattern that reads text by characters
may not ask for them, and a pattern that reads text by octets may not match half a character.
-/

namespace CodeAtlas.Logging

inductive PatternError where
  | malformed
  | wordBoundary
deriving DecidableEq

def PatternError.message : PatternError → String
  | .malformed => "error building NFA"
  | .wordBoundary =>
    "unsupported regex feature for DFAs: cannot build DFAs for regexes with Unicode word " ++
      "boundaries; switch to ASCII word boundaries, or heuristically enable Unicode word " ++
      "boundaries or use a different regex engine"

namespace Pattern

structure Flags where
  ignoreCase : Bool := false
  /-- Whether a pattern reads text by characters and not by octets. -/
  byCharacter : Bool := true
  /-- Whether blanks and comments of a pattern are skipped. -/
  verbose : Bool := false
deriving DecidableEq

def flagLetters : List Char := ['i', 'm', 's', 'U', 'u', 'R', 'x']

/-- A flag after the letters before and behind a minus sign. -/
def setFlag (letter : Char) (on off : List Char) (flag : Bool) : Bool :=
  on.contains letter || (flag && !off.contains letter)

variable (flags : Flags) (s : Scan)

def Flags.set (on off : List Char) : Flags where
  ignoreCase := setFlag 'i' on off flags.ignoreCase
  byCharacter := setFlag 'u' on off flags.byCharacter
  verbose := setFlag 'x' on off flags.verbose

/-- Whether a text sets flags: each at most once, with at most one minus sign that is not last. -/
def areFlags (text : List Char) : Bool :=
  text.all (fun c => c == '-' || flagLetters.contains c) && decide text.Nodup &&
    text.getLast? != some '-'

def Flags.change (text : List Char) : Flags :=
  flags.set (text.takeWhile (· ≠ '-')) (text.dropWhile (· ≠ '-'))

/-- What is left of a pattern, and what has been seen of it. -/
structure Scan where
  rest : List Char
  flags : Flags := {}
  names : List (List Char) := []
  /-- Whether the pattern asks for the boundaries of words in all scripts. -/
  asksWords : Bool := false

def skipGap (inComment : Bool) : List Char → List Char
  | [] => []
  | c :: rest =>
    if inComment then skipGap (c ≠ '\n') rest
    else if c = '#' then skipGap true rest
    else if Text.isBlank c then skipGap false rest
    else c :: rest

/-- Goes on with other characters, without a gap if gaps are skipped. -/
def Scan.resume (rest : List Char) : Scan :=
  { s with rest := if s.flags.verbose then skipGap false rest else rest }

/-- The next character behind one that is yet to be read, blanks and the mark of a comment aside. -/
def Scan.peek? : Option Char :=
  if s.flags.verbose then
    match s.rest.tail.dropWhile Text.isBlank with
    | '#' :: rest => (rest.dropWhile Text.isBlank).head?
    | rest => rest.head?
  else s.rest.tail.head?

/-- A part of a pattern that is no larger than a character. -/
inductive Atom where
  | literal (c : Char) (isOctet : Bool)
  | set
  | position
deriving DecidableEq

def hexWidth? : Char → Option Nat
  | 'x' => some 2
  | 'u' => some 4
  | 'U' => some 8
  | _ => none

def control? : Char → Option Char
  | 'a' => some '\x07'
  | 'f' => some '\x0c'
  | 't' => some '\t'
  | 'n' => some '\n'
  | 'r' => some '\r'
  | 'v' => some '\x0b'
  | _ => none

def isEscapable (c : Char) : Bool :=
  decide (c.toNat < 0x80) && !c.isAlphanum && c != '<' && c != '>'

def readHex? : (width : Nat) → (value : Nat) → Scan → Option (Nat × Scan)
  | 0, value, s => some (value, s)
  | width + 1, value, s =>
    match s.rest with
    | [] => none
    | c :: rest => do readHex? width (16 * value + (← Text.hexDigit? c)) (s.resume rest)

/-- Reads an escape behind its backslash. Sets are those of the octets of ASCII. -/
def readEscape? : Option (Atom × Scan) :=
  match s.rest with
  | [] => none
  | c :: rest =>
    match hexWidth? c with
    | some width => do
      let (n, s) ← readHex? width 0 (s.resume rest)
      if n.isValidChar then some (.literal (.ofNat n) (c == 'x'), s) else none
    | none =>
      let s := { s with rest }
      if isEscapable c then some (.literal c false, s)
      else if let some control := control? c then some (.literal control false, s)
      else if ['d', 's', 'w'].contains c then if s.flags.byCharacter then none else some (.set, s)
      else if c = 'A' ∨ c = 'z' then some (.position, s)
      else if ['b', 'B', '<', '>'].contains c then
        some (.position, { s with asksWords := s.asksWords || s.flags.byCharacter })
      else none

def readAtom? : Option (Atom × Scan) :=
  match s.rest with
  | [] => none
  | c :: rest =>
    if c = '\\' then readEscape? { s with rest } else some (.literal c false, { s with rest })

/-- Whether a character may stand for itself outside of a class: no table tells the cases of
characters, and an octet behind ASCII is no character. -/
def Flags.admits (c : Char) (isOctet : Bool) : Bool :=
  if flags.byCharacter then !flags.ignoreCase else !isOctet || decide (c.toNat < 0x80)

def Flags.admitsInClass (c : Char) : Bool :=
  if flags.byCharacter then !flags.ignoreCase else decide (c.toNat < 0x80)

/-- Reads a part of a pattern that is no larger than a character, outside of a class. -/
def readPlain? : Option Scan :=
  match s.rest with
  | '.' :: rest => if s.flags.byCharacter then some { s with rest } else none
  | '^' :: rest | '$' :: rest => some { s with rest }
  | _ => do
    match ← readAtom? s with
    | (.literal c isOctet, next) => if s.flags.admits c isOctet then some next else none
    | (_, next) => some next

def readRange? : Option Scan := do
  let (first, next) ← readAtom? s
  let next := next.resume next.rest
  match next.rest with
  | [] => none
  | c :: rest =>
    if c = '-' ∧ next.peek? ≠ some ']' ∧ next.peek? ≠ some '-' then
      let (last, next) ← readAtom? (next.resume rest)
      match first, last with
      | .literal low _, .literal high _ =>
        if low ≤ high ∧ s.flags.admitsInClass low ∧ s.flags.admitsInClass high then some next
        else none
      | _, _ => none
    else
      match first with
      | .literal c _ => if s.flags.admitsInClass c then some next else none
      | .set => some next
      | .position => none

def classNames : List String :=
  ["alnum", "alpha", "ascii", "blank", "cntrl", "digit", "graph", "lower", "print", "punct",
    "space", "upper", "word", "xdigit"]

/-- A class by name behind its bracket: whether it is negated, and what follows it. -/
def namedClass? : List Char → Option (Bool × List Char)
  | ':' :: rest =>
    let negated := rest.head? == some '^'
    let rest := if negated then rest.tail else rest
    let name := rest.takeWhile (· ≠ ':')
    match rest.dropWhile (· ≠ ':') with
    | ':' :: ']' :: after =>
      if classNames.contains (String.ofList name) then some (negated, after) else none
    | _ => none
  | _ => none

/-- The height of a whole with parts of some heights; a part alone is the whole. -/
def wholeHeight : List Nat → Nat
  | [] => 0
  | [height] => height
  | heights => heights.foldl max 0 + 1

/-- The height of an operation between classes, if there is a left one. -/
def operationHeight (left : Option Nat) (right : Nat) : Nat :=
  match left with
  | some left => max left right + 1
  | none => right

/-- Whether a class may be negated. Octets behind ASCII are no characters; and of a class within
another the cases are asked for. -/
def Flags.admitsNegated (isNested : Bool) : Bool :=
  flags.byCharacter && !(flags.ignoreCase && isNested)

mutual

def readBracket? : (most : Nat) → (isNested : Bool) → Scan → Option (Nat × Scan)
  | 0, _, _ => none
  | most + 1, isNested, s => do
    let s := s.resume s.rest
    let negated := s.rest.head? == some '^'
    if negated && !s.flags.admitsNegated isNested then none
    let (height, s) ← readClass? most true none [] (if negated then s.resume s.rest.tail else s)
    some (height + 1, s)

/-- Reads the parts of a class and its closing bracket. A minus sign is a character as long as the
class is `opening`, and a closing bracket is one that comes first. -/
def readClass? : (most : Nat) → (opening : Bool) → (left : Option Nat) → (parts : List Nat) →
    Scan → Option (Nat × Scan)
  | 0, _, _, _, _ => none
  | most + 1, opening, left, parts, s =>
    let s := s.resume s.rest
    match s.rest with
    | [] => none
    | '[' :: rest =>
      match namedClass? rest with
      | some (negated, after) =>
        if s.flags.admitsInClass 'a' && (!negated || s.flags.admitsNegated true) then
          readClass? most false left (0 :: parts) { s with rest := after }
        else none
      | none => do
        let (height, s) ← readBracket? most true { s with rest }
        readClass? most false left (height :: parts) s
    | c :: rest =>
      let isLiteral := opening && (c == '-' || (c == ']' && parts.isEmpty))
      if isLiteral then
        if s.flags.admitsInClass c then
          readClass? most (c == '-') left (0 :: parts) { s with rest }
        else none
      else if c = ']' then some (operationHeight left (wholeHeight parts), { s with rest })
      else if ['&', '-', '~'].contains c ∧ rest.head? = some c then
        readClass? most false (some (operationHeight left (wholeHeight parts))) []
          { s with rest := rest.tail }
      else do readClass? most false left (0 :: parts) (← readRange? s)

end

def isName : List Char → Bool
  | [] => false
  | first :: rest =>
    (first == '_' || Text.isAlphabetic first) &&
      rest.all fun c => ['_', '.', '[', ']'].contains c || Text.isAlphanumeric c

/-- Reads the name of a group and the mark that ends it. No two groups have one name. -/
def readName? (s : Scan) : Option Scan :=
  let name := s.rest.takeWhile (· ≠ '>')
  match s.rest.dropWhile (· ≠ '>') with
  | [] => none
  | _ :: rest =>
    if isName name && !s.names.contains name then some { s with rest, names := name :: s.names }
    else none

/-- A part of a sequence: its height, and whether it may be repeated. -/
structure Piece where
  height : Nat
  repeatable : Bool

def sequenceHeight (pieces : List Piece) : Nat := wholeHeight (pieces.map Piece.height)

mutual

/-- Reads alternatives up to the end of a group or of the pattern. The pieces of the alternative
that is being read are the last first. -/
def readAlternatives? : (most : Nat) → (pieces : List Piece) → (alternatives : List Nat) →
    Scan → Option (Nat × Scan)
  | 0, _, _, _ => none
  | most + 1, pieces, alternatives, s =>
    let s := s.resume s.rest
    let finished := sequenceHeight pieces :: alternatives
    match s.rest with
    | [] | ')' :: _ => some (wholeHeight finished, s)
    | '|' :: rest => readAlternatives? most [] finished { s with rest }
    | '(' :: rest => do
      let (piece, s) ← readGroup? most (s.resume rest)
      readAlternatives? most (piece :: pieces) alternatives s
    | '[' :: rest => do
      let (height, s) ← readBracket? most false { s with rest }
      readAlternatives? most (⟨height, true⟩ :: pieces) alternatives s
    | c :: rest =>
      if ['?', '*', '+'].contains c then
        match pieces with
        | ⟨height, true⟩ :: before =>
          let rest := if rest.head? = some '?' then rest.tail else rest
          readAlternatives? most (⟨height + 1, true⟩ :: before) alternatives { s with rest }
        | _ => none
      else if c = '\x7b' then none
      else do readAlternatives? most (⟨0, true⟩ :: pieces) alternatives (← readPlain? s)

/-- Reads a group behind its opening parenthesis, or flags that are set there. -/
def readGroup? : (most : Nat) → Scan → Option (Piece × Scan)
  | 0, _ => none
  | most + 1, s => do
    match s.rest with
    | '?' :: '<' :: '!' :: _ | '?' :: '<' :: '=' :: _ => none
    | '?' :: 'P' :: '<' :: rest | '?' :: '<' :: rest =>
      readBody? most s.flags (← readName? { s with rest })
    | '?' :: rest =>
      let text := rest.takeWhile fun c => c ≠ ':' ∧ c ≠ ')'
      let flags := s.flags.change text
      if !areFlags text then none
      match rest.dropWhile fun c => c ≠ ':' ∧ c ≠ ')' with
      | ':' :: rest => readBody? most s.flags { s with rest, flags }
      | ')' :: rest => if text.isEmpty then none else some (⟨0, false⟩, { s with rest, flags })
      | _ => none
    | _ => readBody? most s.flags s

/-- Reads what a group holds and its closing parenthesis, behind which the flags `outside` hold. -/
def readBody? : (most : Nat) → (outside : Flags) → Scan → Option (Piece × Scan)
  | 0, _, _ => none
  | most + 1, outside, s => do
    let (height, s) ← readAlternatives? most [] [] s
    match s.rest with
    | ')' :: rest => some (⟨height + 1, true⟩, { s with rest, flags := outside })
    | _ => none

end

def heightLimit : Nat := 250

def check (text : List Char) : Except PatternError Unit :=
  match readAlternatives? (3 * text.length + 1) [] [] { rest := text } with
  | some (height, s) =>
    if !s.rest.isEmpty || heightLimit < height then .error .malformed
    else if s.asksWords then .error .wordBoundary
    else .ok ()
  | none => .error .malformed

end Pattern

end CodeAtlas.Logging
