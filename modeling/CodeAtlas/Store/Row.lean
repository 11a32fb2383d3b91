import CodeAtlas.Store.Datum
import CodeAtlas.Symbol.Basic

/-!
# Rows

The rows of the two tables: symbols and replies. `Row.read` gives the symbol of a row, or the first
cell that does not hold what its column is for; rows that this library wrote can always be read.
-/

namespace CodeAtlas.Store

open CodeAtlas.Symbol (Declaration Stored Reply)
open Time (Timestamp)

/-- A row of the table of symbols. -/
structure Row where
  id : Int
  name : String
  kind : String
  file : String
  line : Cell
  column : Cell
  repository : String
  docstring : Option String
  parent : Option Cell
  endLine : Option Cell
  endColumn : Option Cell
  createdAt : Cell
  updatedAt : Cell
deriving DecidableEq

/-- What no two rows share: where a symbol is declared, and its name. -/
structure Key where
  line : Cell
  column : Cell
  name : String
  file : String
  repository : String
deriving DecidableEq

/-- The key of a row. -/
def Row.key (row : Row) : Key := ⟨row.line, row.column, row.name, row.file, row.repository⟩

/-- A number as a cell. -/
def natCell (n : Nat) : Cell := .integer n

/-- The row of a symbol that is declared for the first time. -/
def Row.ofDeclaration (id : Int) (d : Declaration) (now : Int) : Row :=
  { id
    name := d.name
    kind := d.kind.name
    file := d.file
    line := natCell d.line
    column := natCell d.column
    repository := d.repository
    docstring := d.docstring
    parent := d.parent.map .integer
    endLine := d.endLine.map natCell
    endColumn := d.endColumn.map natCell
    createdAt := .integer now
    updatedAt := .integer now }

/-- The key of the row of a declaration. -/
def declarationKey (d : Declaration) : Key :=
  ⟨natCell d.line, natCell d.column, d.name, d.file, d.repository⟩

/-- A row whose occurrence is declared again: it keeps its id and its first time. -/
def Row.redeclare (row : Row) (d : Declaration) (now : Int) : Row :=
  { row with
    kind := d.kind.name
    docstring := d.docstring
    parent := d.parent.map .integer
    endLine := d.endLine.map natCell
    endColumn := d.endColumn.map natCell
    updatedAt := .integer now }

variable (index : Nat) (name : String)

/-- The integer in a cell. -/
def readInteger : Cell → Result Int
  | .integer n => .ok n
  | cell => .error (.wrongType index name cell.type)

/-- The natural number in a cell, below `2 ^ 32`. -/
def readNat32 (cell : Cell) : Result Nat := do
  let n ← readInteger index name cell
  if 0 ≤ n ∧ n < 2 ^ 32 then return n.toNat else throw (.outOfRange index n)

/-- The time in a cell, in milliseconds. -/
def readTime (cell : Cell) : Result Timestamp := do
  let ms ← readInteger index name cell
  match Timestamp.ofMillis? ms with
  | some time => return time
  | none => throw (.conversion index .integer s!"timestamp {ms} is out of range")

/-- The kind of a symbol by its name. -/
def readKind : Result Symbol.Kind :=
  match Symbol.Kind.ofName? name with
  | some kind => .ok kind
  | none =>
    .error (.conversion index .text (s!"Unknown symbol kind '{name}' in database. " ++
      "Database may be corrupted or from a newer version."))

/-- What is in a cell, if that is not null. -/
def readNullable {α : Type} (read : Cell → Result α) : Option Cell → Result (Option α)
  | none => .ok none
  | some cell => some <$> read cell

/-- The symbol of a row. -/
def Row.read (row : Row) : Result Stored := do
  let kind ← readKind 2 row.kind
  let line ← readNat32 4 "line_number" row.line
  let column ← readNat32 5 "column_number" row.column
  let parent ← readNullable (readInteger 8 "parent_id") row.parent
  let endLine ← readNullable (readNat32 9 "end_line_number") row.endLine
  let endColumn ← readNullable (readNat32 10 "end_column_number") row.endColumn
  let createdAt ← readTime 11 "created_at" row.createdAt
  let updatedAt ← readTime 12 "updated_at" row.updatedAt
  return {
    id := row.id
    declaration := {
      name := row.name, kind, file := row.file, line, column, repository := row.repository
      docstring := row.docstring, parent, endLine, endColumn }
    createdAt
    updatedAt }

/-- A row of the table of replies. -/
structure Entry where
  comment : Cell
  pullRequest : Cell
  repository : String
  repliedAt : Cell
deriving DecidableEq

/-- What no two entries share. -/
def Entry.key (entry : Entry) : Cell × Cell × String :=
  (entry.comment, entry.pullRequest, entry.repository)

/-- The reply of an entry. -/
def Entry.read (entry : Entry) : Result Reply := do
  let comment ← readInteger 0 "comment_id" entry.comment
  let pullRequest ← readInteger 1 "pr_number" entry.pullRequest
  let repliedAt ← readTime 3 "replied_at" entry.repliedAt
  return { comment, pullRequest, repository := entry.repository, repliedAt }

end CodeAtlas.Store
