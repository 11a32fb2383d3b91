import CodeAtlas.Text.Basic
import CodeAtlas.Yaml.Cursor

/-!
# Tokens of a document

The marks that give a document its structure, and its scalars. Starts and ends of block collections
are tokens too, though only the indentation shows them. A plain scalar goes on until a colon before
a gap, a comment, a mark of a document, a line that is indented too little, or within brackets one
of their signs. Between single quotes only a doubled quote is special; between double quotes a
backslash starts an escape or joins two lines. A tag is a handle and a suffix, or a whole name in
angle brackets.
-/

namespace CodeAtlas.Yaml

inductive Style where
  | plain
  | single
  | double
  | literal
  | folded
deriving DecidableEq

inductive Lexeme where
  | finish
  | version (major minor : Nat)
  /-- A short form of the first part of tags. -/
  | abbreviation (handle : String) (long : Bytes)
  | documentStart
  | documentEnd
  | blockSequence
  | blockMapping
  | blockEnd
  | flowSequence
  | flowSequenceEnd
  | flowMapping
  | flowMappingEnd
  | dash
  | comma
  | key
  | value
  | alias (name : String)
  | anchor (name : String)
  | tag (handle : String) (suffix : Bytes)
  | scalar (style : Style) (text : String)
deriving DecidableEq

structure Token where
  lexeme : Lexeme
  mark : Mark
deriving DecidableEq

end CodeAtlas.Yaml

namespace CodeAtlas.Yaml.Plain

def isFlowSign (c : Char) : Bool := [',', '[', ']', '{', '}'].contains c

structure Read where
  text : List Char
  rest : Cursor
  broken : Bool

/-- Reads a scalar further, of which the characters `before` are read, last first, and a gap. -/
def readOnto (inFlow : Bool) (indent : Nat) :
    (most : Nat) → (before : List Char) → Gap → Cursor → Option Read
  | 0, _, _, _ => none
  | most + 1, before, gap, cursor =>
    match cursor.rest with
    | [] => some ⟨before.reverse, cursor, gap.broken⟩
    | c :: rest =>
      if endsWord (some c) then
        match Gap.read indent most {} cursor with
        | none => none
        | some (gap, next) =>
          if (!inFlow && decide (next.mark.column < indent)) || next.atDocumentMark ||
              next.sees '#' then
            some ⟨before.reverse, next, gap.broken⟩
          else readOnto inFlow indent most before gap next
      else if inFlow && c == ':' && rest.head?.any fun d => d == '?' || isFlowSign d then none
      else if (c == ':' && endsWord rest.head?) || (inFlow && isFlowSign c) then
        some ⟨before.reverse, cursor, gap.broken⟩
      else readOnto inFlow indent most (c :: gap.folded ++ before) {} cursor.skip

def read (inFlow : Bool) (indent : Nat) (cursor : Cursor) : Option Read :=
  readOnto inFlow indent (2 * cursor.rest.length + 1) [] {} cursor

end CodeAtlas.Yaml.Plain

namespace CodeAtlas.Yaml.Quoted

def escaped? : Char → Option Char
  | '0' => some '\x00'
  | 'a' => some '\x07'
  | 'b' => some '\x08'
  | 't' => some '\t'
  | '\t' => some '\t'
  | 'n' => some '\n'
  | 'v' => some '\x0b'
  | 'f' => some '\x0c'
  | 'r' => some '\r'
  | 'e' => some '\x1b'
  | ' ' => some ' '
  | '"' => some '"'
  | '/' => some '/'
  | '\\' => some '\\'
  | 'N' => some '\u0085'
  | '_' => some '\u00a0'
  | 'L' => some '\u2028'
  | 'P' => some '\u2029'
  | _ => none

def escapeWidth? : Char → Option Nat
  | 'x' => some 2
  | 'u' => some 4
  | 'U' => some 8
  | _ => none

def readEscape (cursor : Cursor) : Option (Char × Cursor) := do
  let letter ← cursor.peek?
  match escapeWidth? letter with
  | none => (escaped? letter).map (·, cursor.skip)
  | some width =>
    let digits := (cursor.rest.drop 1).take width
    if digits.length < width then none
    let n ← Text.hexValue? digits
    if h : n.isValidChar then some (Char.ofNatAux n h, cursor.skipMany (width + 1)) else none

/-- Reads a scalar further, of which the characters `before` are read, last first. -/
def readOnto (quote : Char) :
    (most : Nat) → (before : List Char) → Cursor → Option (List Char × Cursor)
  | 0, _, _ => none
  | most + 1, before, cursor =>
    if cursor.atDocumentMark then none
    else match cursor.rest with
    | [] => none
    | c :: rest =>
      if endsWord (some c) then
        match Gap.read 0 most {} cursor with
        | none => none
        | some (gap, next) => readOnto quote most (gap.folded ++ before) next
      else if c == quote then
        if quote == '\'' && rest.head? == some quote then
          readOnto quote most (quote :: before) cursor.skip.skip
        else some (before.reverse, cursor.skip)
      else if quote == '"' && c == '\\' then
        if rest.head?.any isBreak then
          let (_, line) := cursor.skip.readBreak
          match Gap.read 0 most { broken := true } line with
          | none => none
          | some (gap, next) => readOnto quote most (gap.folded ++ before) next
        else
          match readEscape cursor.skip with
          | none => none
          | some (d, next) => readOnto quote most (d :: before) next
      else readOnto quote most (c :: before) cursor.skip

def read (quote : Char) (cursor : Cursor) : Option (List Char × Cursor) :=
  readOnto quote (cursor.rest.length + 1) [] cursor.skip

end CodeAtlas.Yaml.Quoted

namespace CodeAtlas.Yaml.Tag

/-- Whether a character may stand in a tag; commas and brackets may only where `wide` says so. -/
def isTagChar (wide : Bool) (c : Char) : Bool :=
  isNameChar c || ";/?:@&=+$.%!~*'()".toList.contains c || (wide && [',', '[', ']'].contains c)

/-- How many octets follow the first one of a character, by its leading bits. -/
def further? (octet : UInt8) : Option Nat :=
  if octet < 0x80 then some 0
  else if octet < 0xC0 then none
  else if octet < 0xE0 then some 1
  else if octet < 0xF0 then some 2
  else if octet < 0xF8 then some 3
  else none

/-- The octets of a run of percent escapes and characters, where a character that an escape has
started needs `due` more escapes. Only the leading bits of the octets are checked. -/
def octets? : (due : Nat) → List Char → Option Bytes
  | due, '%' :: a :: b :: rest => do
    let octet := UInt8.ofNat (← Text.hexValue? [a, b])
    let due ← match due with
      | 0 => further? octet
      | due + 1 => (Utf8.continuation? octet).map fun _ => due
    return octet :: (← octets? due rest)
  | 0, [] => some []
  | 0, '%' :: _ => none
  | 0, c :: rest => (octets? 0 rest).map (Utf8.encodeChar c ++ ·)
  | _ + 1, _ => none

/-- Octets up to the first that is zero, which ends a tag. -/
def upToZero (octets : Bytes) : Bytes := octets.takeWhile (· != 0)

/-- Reads the characters of a tag, with its percent escapes undone. -/
def readUri (wide : Bool) (cursor : Cursor) : Option (Bytes × Cursor) := do
  let (run, next) := cursor.takeWhile (isTagChar wide)
  some (← octets? 0 run, next)

variable (cursor : Cursor)

/-- Reads a handle: an exclamation mark, a name, and perhaps a second mark. -/
def readHandle : String × Cursor :=
  let (name, next) := cursor.skip.takeWhile isNameChar
  if next.sees '!' then (String.ofList ('!' :: name ++ ['!']), next.skip)
  else (String.ofList ('!' :: name), next)

def isClosed (handle : String) : Bool :=
  decide (1 < handle.length) && handle.toList.getLast? == some '!'

def read (inFlow : Bool) (cursor : Cursor) : Option (Lexeme × Cursor) := do
  let (lexeme, next) ←
    if cursor.ahead? 1 == some '<' then do
      let (name, next) ← readUri true (cursor.skipMany 2)
      if name.isEmpty || !next.sees '>' then none
      some (Lexeme.tag "" (upToZero name), next.skip)
    else do
      let (handle, next) := readHandle cursor
      let (suffix, after) ← readUri false next
      if isClosed handle then
        if suffix.isEmpty then none
        some (Lexeme.tag handle (upToZero suffix), after)
      else
        let name := upToZero (Utf8.encode (handle.toList.drop 1) ++ suffix)
        some (if name.isEmpty then Lexeme.tag "" (octets "!") else Lexeme.tag "!" name, after)
  if endsWord next.peek? || (inFlow && next.sees ',') then some (lexeme, next) else none

def readName : Option (String × Cursor) :=
  let (name, next) := cursor.skip.takeWhile isNameChar
  let ends := endsWord next.peek? ||
    next.peek?.any fun c => ['?', ':', ',', ']', '}', '%', '@', Char.ofNat 0x60].contains c
  if name.isEmpty || !ends then none else some (String.ofList name, next)

def readNumber : Option (Nat × Cursor) :=
  let (digits, next) := cursor.takeWhile Char.isDigit
  if digits.isEmpty || decide (9 < digits.length) then none
  else some (digits.foldl (fun sum c => 10 * sum + (c.toNat - 48)) 0, next)

def readDirective : Option (Lexeme × Cursor) := do
  let (name, next) := cursor.skip.takeWhile isNameChar
  if !endsWord next.peek? then none
  let start := next.dropWhile isSpacing
  let (lexeme, next) ←
    if name == "YAML".toList then do
      let (major, next) ← readNumber start
      if !next.sees '.' then none
      let (minor, next) ← readNumber next.skip
      some (Lexeme.version major minor, next)
    else if name == "TAG".toList then do
      if !start.sees '!' then none
      let (handle, next) := readHandle start
      if (handle != "!" && !isClosed handle) || !next.peek?.any isSpacing then none
      let (long, next) ← readUri true (next.dropWhile isSpacing)
      if long.isEmpty || !endsWord next.peek? then none
      some (Lexeme.abbreviation handle (upToZero long), next)
    else none
  let next := next.dropWhile isSpacing
  let next := if next.sees '#' then next.toLineEnd else next
  match next.peek? with
  | none => some (lexeme, next)
  | some c => if isBreak c then some (lexeme, next.readBreak.2) else none

end CodeAtlas.Yaml.Tag
