/-!
# Places in a text

A `Cursor` is what is left of a text together with the `Mark` of its first character. Lines and
columns count from zero, columns in characters and the index in octets. Five characters end a line;
a carriage return and the line feed behind it end one line.
-/

namespace CodeAtlas.Yaml

structure Mark where
  index : Nat := 0
  line : Nat := 0
  column : Nat := 0
deriving DecidableEq

/-- The place one character of `width` octets further on the line. -/
def Mark.next (mark : Mark) (width : Nat := 1) : Mark :=
  { mark with index := mark.index + width, column := mark.column + 1 }

/-- The start of the next line, behind a line end of `width` octets. -/
def Mark.nextLine (mark : Mark) (width : Nat) : Mark :=
  { index := mark.index + width, line := mark.line + 1, column := 0 }

def isBreak (c : Char) : Bool :=
  c == '\n' || c == '\r' || c == '\u0085' || c == '\u2028' || c == '\u2029'

def isSpacing (c : Char) : Bool := c == ' ' || c == '\t'

/-- Whether a word ends before this character: at a space, a tab, a line end or the end. -/
def endsWord : Option Char → Bool
  | none => true
  | some c => isSpacing c || isBreak c

def isNameChar (c : Char) : Bool :=
  c.isAlphanum || c == '_' || c == '-'

def isAllowed (c : Char) : Bool :=
  let n := c.toNat
  c == '\t' || c == '\n' || c == '\r' || (decide (0x20 ≤ n) && decide (n ≤ 0x7E)) || n == 0x85 ||
    (decide (0xA0 ≤ n) && decide (n ≤ 0xFFFD)) || decide (0x10000 ≤ n)

structure Cursor where
  rest : List Char
  mark : Mark := {}

namespace Cursor

variable (cursor : Cursor)

def peek? : Option Char := cursor.rest.head?

def ahead? (count : Nat) : Option Char := cursor.rest[count]?

def sees (c : Char) : Bool := cursor.peek? == some c

def skip : Cursor :=
  ⟨cursor.rest.tail, cursor.mark.next ((cursor.peek?.map Char.utf8Size).getD 1)⟩

def skipMany (cursor : Cursor) : (count : Nat) → Cursor
  | 0 => cursor
  | count + 1 => cursor.skip.skipMany count

/-- The line end at the cursor as it is kept in texts, and the cursor behind it. -/
def readBreak : List Char × Cursor :=
  match cursor.rest with
  | '\r' :: '\n' :: rest => (['\n'], ⟨rest, cursor.mark.nextLine 2⟩)
  | c :: rest =>
    let kept := if c == '\u2028' || c == '\u2029' then c else '\n'
    ([kept], ⟨rest, cursor.mark.nextLine c.utf8Size⟩)
  | [] => ([], cursor)

def takeWhile (cursor : Cursor) (allowed : Char → Bool) : List Char × Cursor :=
  let run := cursor.rest.takeWhile allowed
  (run, cursor.skipMany run.length)

def dropWhile (allowed : Char → Bool) : Cursor := (cursor.takeWhile allowed).2

/-- The cursor behind the mark of the octet order that may start a line. -/
def skipOrderMark : Cursor :=
  if cursor.mark.column == 0 && cursor.sees '\ufeff' then cursor.skip else cursor

def toLineEnd : Cursor := cursor.dropWhile (!isBreak ·)

/-- Whether a line starts here with three of a character and then a gap. -/
def atThree (c : Char) : Bool :=
  cursor.mark.column == 0 && cursor.rest.take 3 == [c, c, c] && endsWord (cursor.ahead? 3)

def atDocumentMark : Bool := cursor.atThree '-' || cursor.atThree '.'

end Cursor

/-- The gap between two words of a scalar: the spaces of one line, or line ends, last first. -/
structure Gap where
  spaces : List Char := []
  broken : Bool := false
  first : List Char := []
  further : List Char := []

namespace Gap

/-- What a gap means, last character first: one line end is a space, and of more the first is
dropped. -/
def folded (gap : Gap) : List Char :=
  if !gap.broken then gap.spaces
  else if gap.first == ['\n'] then
    if gap.further.isEmpty then [' '] else gap.further
  else gap.further ++ gap.first

/-- Reads a gap. A tab before the column `indent` of a new line is refused. -/
def read (indent : Nat) : (most : Nat) → Gap → Cursor → Option (Gap × Cursor)
  | 0, gap, cursor => some (gap, cursor)
  | most + 1, gap, cursor =>
    match cursor.peek? with
    | none => some (gap, cursor)
    | some c =>
      if isSpacing c then
        if gap.broken && decide (cursor.mark.column < indent) && c == '\t' then none
        else
          let gap := if gap.broken then gap else { gap with spaces := c :: gap.spaces }
          read indent most gap cursor.skip
      else if isBreak c then
        let (kept, next) := cursor.readBreak
        let gap := if gap.broken then { gap with further := kept ++ gap.further }
          else { gap with spaces := [], first := kept, broken := true }
        read indent most gap next
      else some (gap, cursor)

end Gap

end CodeAtlas.Yaml
