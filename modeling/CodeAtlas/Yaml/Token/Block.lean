import CodeAtlas.Yaml.Cursor

/-!
# Block scalars

A block scalar is a header and the lines below it that are indented deeper than what holds it. Its
lines are kept, or folded into one; the header may say what happens to the last line ends and how
deep the text is indented.
-/

namespace CodeAtlas.Yaml.Block

inductive Chomping where
  | strip
  | clip
  | keep
deriving DecidableEq

structure Header where
  chomping : Chomping := .clip
  /-- How much deeper than its parent the text is indented, if that is said. -/
  deeper : Option Nat := none

variable (cursor : Cursor)

def readChomping : Option (Chomping × Cursor) :=
  match cursor.peek? with
  | some '+' => some (.keep, cursor.skip)
  | some '-' => some (.strip, cursor.skip)
  | _ => none

/-- Reads an indentation digit, if one is there; the inner `none` is the digit zero. -/
def readDepth : Option (Option Nat × Cursor) :=
  match cursor.peek? with
  | some c =>
    if c == '0' then some (none, cursor)
    else if c.isDigit then some (some (c.toNat - 48), cursor.skip)
    else none
  | none => none

/-- Reads a header up to the end of its line, with its two signs in either order. -/
def readHeader : Option (Header × Cursor) := do
  let (header, cursor) ← match readChomping cursor with
    | some (chomping, next) =>
      match readDepth next with
      | some (some depth, next) => some ({ chomping, deeper := some depth }, next)
      | some (none, _) => none
      | none => some ({ chomping }, next)
    | none =>
      match readDepth cursor with
      | some (some depth, next) =>
        match readChomping next with
        | some (chomping, next) => some ({ chomping, deeper := some depth }, next)
        | none => some ({ deeper := some depth }, next)
      | some (none, _) => none
      | none => some (({} : Header), cursor)
  let cursor := cursor.dropWhile isSpacing
  let cursor := if cursor.sees '#' then cursor.toLineEnd else cursor
  match cursor.peek? with
  | none => some (header, cursor)
  | some c => if isBreak c then some (header, cursor.readBreak.2) else none

/-- The spaces at the cursor up to the column `indent`, or all of them if it is not known. -/
def skipIndent (indent : Option Nat) : (most : Nat) → Cursor → Cursor
  | 0, cursor => cursor
  | most + 1, cursor =>
    if indent.all (fun column => decide (cursor.mark.column < column)) && cursor.sees ' ' then
      skipIndent indent most cursor.skip
    else cursor

/-- What stands between two lines of text. -/
structure Margin where
  breaks : List Char
  deepest : Nat
  rest : Cursor

/-- Reads empty lines and the indentation of the next line. The line ends before are given last
first. -/
def readMargin (indent : Option Nat) :
    (most : Nat) → (before : List Char) → (deepest : Nat) → Cursor → Option Margin
  | 0, _, _, _ => none
  | most + 1, before, deepest, cursor =>
    let cursor := skipIndent indent (most + 1) cursor
    let deepest := max deepest cursor.mark.column
    if indent.all (fun column => decide (cursor.mark.column < column)) && cursor.sees '\t' then none
    else if cursor.peek?.any isBreak then
      let (kept, next) := cursor.readBreak
      readMargin indent most (kept.reverse ++ before) deepest next
    else some ⟨before.reverse, deepest, cursor⟩

structure Body where
  before : List Char := []
  pending : List Char := []
  empty : List Char := []
  spaced : Bool := false

/-- The text before the next line, when that line is added. -/
def Body.joined (isFolded : Bool) (body : Body) (spaced : Bool) : List Char :=
  let turn :=
    if isFolded && body.pending.head? == some '\n' && !body.spaced && !spaced then
      if body.empty.isEmpty then [' '] else []
    else body.pending
  body.empty.reverse ++ turn.reverse ++ body.before

def readLines (isFolded : Bool) (indent : Nat) :
    (most : Nat) → Body → Cursor → Option (Body × Cursor)
  | 0, _, _ => none
  | most + 1, body, cursor =>
    match cursor.peek? with
    | none => some (body, cursor)
    | some c =>
      if cursor.mark.column != indent then some (body, cursor)
      else
        let spaced := isSpacing c
        let before := body.joined isFolded spaced
        let (line, atEnd) := cursor.takeWhile (!isBreak ·)
        let (pending, next) := atEnd.readBreak
        match readMargin (some indent) (most + 1) [] 0 next with
        | none => none
        | some margin =>
          readLines isFolded indent most ⟨line.reverse ++ before, pending, margin.breaks, spaced⟩
            margin.rest

/-- The text of a body with its last line ends as the header says. -/
def Body.text (body : Body) (chomping : Chomping) : List Char :=
  body.before.reverse ++ match chomping with
    | .strip => []
    | .clip => body.pending
    | .keep => body.pending ++ body.empty

/-- Reads the block scalar whose sign is at the cursor. The indentation of what holds it is
`parent`, which is negative at the top. -/
def read (isFolded : Bool) (parent : Int) (cursor : Cursor) : Option (List Char × Cursor) := do
  let (header, cursor) ← readHeader cursor.skip
  let said := header.deeper.map fun depth => (max parent 0).toNat + depth
  let margin ← readMargin said (cursor.rest.length + 1) [] 0 cursor
  let indent := said.getD (max margin.deepest (max (parent + 1).toNat 1))
  let (body, rest) ← readLines isFolded indent (margin.rest.rest.length + 1)
    { empty := margin.breaks } margin.rest
  some (body.text header.chomping, rest)

end CodeAtlas.Yaml.Block
