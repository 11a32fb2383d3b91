import CodeAtlas.Yaml.Token.Basic
import CodeAtlas.Yaml.Token.Block

/-!
# From text to tokens

`tokens?` cuts a text into tokens. A key needs no sign in front: it is seen to be one when the colon
behind it is met, and its tokens are then put where it started. So each nesting of brackets has a
place for the key that may have started there, which is given up at the end of its line.
-/

namespace CodeAtlas.Yaml

structure KeyPlace where
  required : Bool
  /-- How many tokens stand before it. -/
  count : Nat
  mark : Mark

structure Lexer where
  cursor : Cursor
  tokens : List Token := []
  count : Nat := 0
  depth : Nat := 0
  /-- The column of the innermost block collection, negative outside all. -/
  indent : Int := -1
  indents : List Int := []
  keyAllowed : Bool := true
  /-- The key that may have started, at each depth of brackets. -/
  keys : List (Option KeyPlace) := [none]

namespace Lexer

def keyLimit : Nat := 1024

variable (s : Lexer) (lexeme : Lexeme) (read : Cursor → Option (Lexeme × Cursor))

def push (mark : Mark) : Lexer :=
  { s with tokens := ⟨lexeme, mark⟩ :: s.tokens, count := s.count + 1 }

def insert (count : Nat) (lexeme : Lexeme) (mark : Mark) : Lexer :=
  let newer := s.count - count
  { s with
    tokens := s.tokens.take newer ++ ⟨lexeme, mark⟩ :: s.tokens.drop newer
    count := s.count + 1 }

def inFlow : Bool := decide (0 < s.depth)

def key? : Option KeyPlace := s.keys.head?.join

/-- Gives up the key that may have started here; a required one cannot be given up. -/
def dropKey : Option Lexer :=
  if s.key?.any (·.required) then none else some { s with keys := none :: s.keys.tail }

def noteKey : Option Lexer :=
  if s.keyAllowed then do
    let s ← s.dropKey
    let required := !s.inFlow && s.indent == s.cursor.mark.column
    some { s with keys := some ⟨required, s.count, s.cursor.mark⟩ :: s.keys.tail }
  else some s

def KeyPlace.isFresh (place : KeyPlace) (mark : Mark) : Bool :=
  decide (mark.line ≤ place.mark.line) && decide (mark.index ≤ place.mark.index + keyLimit)

def dropStaleKeys : Option Lexer :=
  let stale := fun (place : KeyPlace) => !KeyPlace.isFresh place s.cursor.mark
  if s.keys.any fun key => key.any fun place => stale place && place.required then none
  else some { s with keys := s.keys.map fun key => key.filter fun place => !stale place }

/-- Starts a block collection at a column if it is deeper than the one around. -/
def deepen (column count : Nat) (lexeme : Lexeme) (mark : Mark) : Lexer :=
  if !s.inFlow && decide (s.indent < column) then
    { s.insert count lexeme mark with indent := column, indents := s.indent :: s.indents }
  else s

/-- Ends the block collections that are deeper than a column. -/
def unwind (column : Int) (mark : Mark) : (indents : List Int) → Lexer → Lexer
  | [], s => { s with indents := [] }
  | outer :: indents, s =>
    if column < s.indent then
      unwind column mark indents { s.push .blockEnd mark with indent := outer }
    else { s with indents := outer :: indents }

/-- Ends the block collections that are deeper than a column, outside brackets. -/
def shallow (column : Int) : Lexer :=
  if s.inFlow then s else unwind column s.cursor.mark s.indents s

/-- Skips spaces, comments and line ends, and the mark of the octet order at the start of a line. A
tab counts as a space where no key may start. -/
def skipGap : (most : Nat) → Lexer → Lexer
  | 0, s => s
  | most + 1, s =>
    let cursor := s.cursor.skipOrderMark.dropWhile fun c =>
      c == ' ' || ((s.inFlow || !s.keyAllowed) && c == '\t')
    let cursor := if cursor.sees '#' then cursor.toLineEnd else cursor
    if cursor.peek?.any isBreak then
      skipGap most { s with cursor := cursor.readBreak.2, keyAllowed := s.keyAllowed || !s.inFlow }
    else { s with cursor }

/-- Adds the token of a sign of some characters and goes behind it. -/
def take (width : Nat) : Lexer :=
  { s.push lexeme s.cursor.mark with cursor := s.cursor.skipMany width }

/-- The end of the text, which ends every collection. -/
def readEnd : Option Lexer := do
  let mark := s.cursor.mark
  let s := if mark.column = 0 then s else { s with cursor.mark := mark.nextLine 0 }
  let s ← (s.shallow (-1)).dropKey
  some { s.push .finish s.cursor.mark with keyAllowed := false }

def readDocumentLine : Option Lexer := do
  let s ← (s.shallow (-1)).dropKey
  let (lexeme, next) ← read s.cursor
  some { s.push lexeme s.cursor.mark with cursor := next, keyAllowed := false }

def readOpen : Option Lexer := do
  let s ← s.noteKey
  some { s.take lexeme 1 with depth := s.depth + 1, keys := none :: s.keys, keyAllowed := true }

def readClose : Option Lexer := do
  let s ← s.dropKey
  some { s.take lexeme 1 with
    depth := s.depth - 1
    keys := if s.inFlow then s.keys.tail else s.keys
    keyAllowed := false }

def readComma : Option Lexer := do
  let s ← s.dropKey
  some { s.take .comma 1 with keyAllowed := true }

/-- A sign that may start a block collection at its own column. -/
def readLeading (collection lexeme : Lexeme) (keyAllowed : Bool) : Option Lexer := do
  if !s.inFlow && !s.keyAllowed then none
  let s ← (s.deepen s.cursor.mark.column s.count collection s.cursor.mark).dropKey
  some { s.take lexeme 1 with keyAllowed }

def readColon : Option Lexer :=
  match s.key? with
  | some place =>
    let s := s.insert place.count .key place.mark
    let s := s.deepen place.mark.column place.count .blockMapping place.mark
    some { s.take .value 1 with keys := none :: s.keys.tail, keyAllowed := false }
  | none =>
    if !s.inFlow && !s.keyAllowed then none
    else
      let s := s.deepen s.cursor.mark.column s.count .blockMapping s.cursor.mark
      some { s.take .value 1 with keyAllowed := !s.inFlow }

def readWord : Option Lexer := do
  let s ← s.noteKey
  let (lexeme, next) ← read s.cursor
  some { s.push lexeme s.cursor.mark with cursor := next, keyAllowed := false }

/-- A plain scalar; behind a line end a key may start again. -/
def readPlain : Option Lexer := do
  let s ← s.noteKey
  let scalar ← Plain.read s.inFlow (s.indent + 1).toNat s.cursor
  some { s.push (.scalar .plain (String.ofList scalar.text)) s.cursor.mark with
    cursor := scalar.rest
    keyAllowed := scalar.broken }

def readBlock (style : Style) : Option Lexer := do
  let s ← s.dropKey
  let (text, next) ← Block.read (style == .folded) s.indent s.cursor
  some { s.push (.scalar style (String.ofList text)) s.cursor.mark with
    cursor := next
    keyAllowed := true }

def readQuoted (style : Style) (quote : Char) : Option Lexer :=
  s.readWord fun cursor => do
    let (text, next) ← Quoted.read quote cursor
    some (.scalar style (String.ofList text), next)

/-- Whether a plain scalar may start with a character, by what follows it. -/
def startsPlain (c : Char) : Bool :=
  let follows := s.cursor.ahead? 1
  if c == '-' then !follows.any isSpacing
  else if c == '?' || c == ':' then !s.inFlow && !endsWord follows
  else !(endsWord (some c) || c == Char.ofNat 0x60 ||
    ",[]\x7b\x7d#&*!|>'\"%@".toList.contains c)

def readToken : Option Lexer :=
  match s.cursor.peek? with
  | none => s.readEnd
  | some c =>
    let gapFollows := endsWord (s.cursor.ahead? 1)
    if c == '%' && s.cursor.mark.column == 0 then s.readDocumentLine Tag.readDirective
    else if s.cursor.atThree '-' then
      s.readDocumentLine fun cursor => some (.documentStart, cursor.skipMany 3)
    else if s.cursor.atThree '.' then
      s.readDocumentLine fun cursor => some (.documentEnd, cursor.skipMany 3)
    else if c == '[' then s.readOpen .flowSequence
    else if c == '{' then s.readOpen .flowMapping
    else if c == ']' then s.readClose .flowSequenceEnd
    else if c == '}' then s.readClose .flowMappingEnd
    else if c == ',' then s.readComma
    else if c == '-' && gapFollows then s.readLeading .blockSequence .dash true
    else if c == '?' && (s.inFlow || gapFollows) then s.readLeading .blockMapping .key (!s.inFlow)
    else if c == ':' && (s.inFlow || gapFollows) then s.readColon
    else if c == '*' then s.readWord fun cursor => do
      let (name, next) ← Tag.readName cursor
      some (.alias name, next)
    else if c == '&' then s.readWord fun cursor => do
      let (name, next) ← Tag.readName cursor
      some (.anchor name, next)
    else if c == '!' then s.readWord (Tag.read s.inFlow)
    else if c == '|' && !s.inFlow then s.readBlock .literal
    else if c == '>' && !s.inFlow then s.readBlock .folded
    else if c == '\'' then s.readQuoted .single '\''
    else if c == '"' then s.readQuoted .double '"'
    else if s.startsPlain c then s.readPlain
    else none

def run : (most : Nat) → Lexer → Option (List Token)
  | 0, _ => none
  | most + 1, s => do
    let s := skipGap (most + 1) s
    let s ← s.dropStaleKeys
    let next ← (s.shallow s.cursor.mark.column).readToken
    if s.cursor.rest.isEmpty then some next.tokens.reverse else run most next

end Lexer

/-- The tokens of a text, if it has no character that is not allowed and every token is well
formed. -/
def tokens? (text : List Char) : Option (List Token) :=
  if text.all isAllowed then Lexer.run (text.length + 2) { cursor := { rest := text } } else none

end CodeAtlas.Yaml
