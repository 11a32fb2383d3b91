import CodeAtlas.Time.Basic

/-!
# Symbols of a repository

A `Declaration` says where a repository declares a name; a `Symbol` is a declaration that the index
holds, with its id and the times it was first and last written. A `Change` gives new values to
some parts of a symbol. A `Reply` records that a comment has been answered.
-/

namespace CodeAtlas.Symbol

open Json (Decoder Value)

inductive Kind where
  | class_
  | function
  | method
  | property
  | classmethod
  | staticmethod
  | setter
  | deleter
  | variable_
  | constant
  | module
deriving DecidableEq, Inhabited

structure UnknownKind where
  name : String
deriving DecidableEq

def UnknownKind.message (e : UnknownKind) : String := s!"unknown symbol kind '{e.name}'"

namespace Kind

def all : List Kind :=
  [.class_, .function, .method, .property, .classmethod, .staticmethod, .setter, .deleter,
    .variable_, .constant, .module]

def name : Kind → String
  | .class_ => "class"
  | .function => "function"
  | .method => "method"
  | .property => "property"
  | .classmethod => "classmethod"
  | .staticmethod => "staticmethod"
  | .setter => "setter"
  | .deleter => "deleter"
  | .variable_ => "variable"
  | .constant => "constant"
  | .module => "module"

def ofName? (name : String) : Option Kind := all.find? fun kind => kind.name == name

def ofText (name : String) : Except UnknownKind Kind :=
  match ofName? name with
  | some kind => .ok kind
  | none => .error ⟨name⟩

def index (kind : Kind) : Nat := all.idxOf kind

def decode : Decoder Kind := fun value => do
  let name ← Decoder.variant (all.map Kind.name) value
  return (ofName? name).getD .class_

theorem ofName?_name (kind : Kind) : ofName? kind.name = some kind := by
  cases kind <;> rfl

end Kind

open Json (Decoder Fields Value)
open Time (Timestamp)

/-- The text between two places, lines and columns counted in characters. -/
structure Span where
  startLine : Nat
  startColumn : Nat
  endLine : Nat
  endColumn : Nat
deriving DecidableEq

namespace Span

def of? (startLine startColumn endLine endColumn : Nat) : Option Span :=
  if endLine < startLine ∨ (endLine = startLine ∧ endColumn < startColumn) then none
  else some ⟨startLine, startColumn, endLine, endColumn⟩

def decode : Decoder Span :=
  (Span.mk <$> Fields.required "start_line" .nat32 <*> Fields.required "start_column" .nat32
    <*> Fields.required "end_line" .nat32 <*> Fields.required "end_column" .nat32).record "Span"

def toValue (s : Span) : Value :=
  .object [("start_line", .nat s.startLine), ("start_column", .nat s.startColumn),
    ("end_line", .nat s.endLine), ("end_column", .nat s.endColumn)]

end Span

structure Declaration where
  name : String
  kind : Kind
  file : String
  line : Nat
  column : Nat
  repository : String
  docstring : Option String := none
  parent : Option Int := none
  endLine : Option Nat := none
  endColumn : Option Nat := none
deriving DecidableEq

def orNull {α : Type} (toValue : α → Value) : Option α → Value
  | some a => toValue a
  | none => .null

namespace Declaration

def fields : Fields Declaration :=
  Declaration.mk <$> Fields.required "name" .text <*> Fields.required "kind" Kind.decode
    <*> Fields.required "file_path" .text <*> Fields.required "line_number" .nat32
    <*> Fields.required "column_number" .nat32 <*> Fields.required "repository_id" .text
    <*> Fields.nullable "docstring" .text <*> Fields.nullable "parent_id" .int64
    <*> Fields.nullable "end_line_number" .nat32 <*> Fields.nullable "end_column_number" .nat32

def decode : Decoder Declaration := fields.record "SymbolData"

variable (d : Declaration)

def members : List (String × Value) :=
  [("name", .str d.name), ("kind", .str d.kind.name), ("file_path", .str d.file),
    ("line_number", .nat d.line), ("column_number", .nat d.column),
    ("repository_id", .str d.repository), ("docstring", orNull .str d.docstring),
    ("parent_id", orNull .int d.parent), ("end_line_number", orNull .nat d.endLine),
    ("end_column_number", orNull .nat d.endColumn)]

def toValue : Value := .object d.members

/-- The span of a declaration whose end is known and not before its start. -/
def span? : Option Span := do
  Span.of? d.line d.column (← d.endLine) (← d.endColumn)

end Declaration

structure Stored where
  id : Int
  declaration : Declaration
  createdAt : Timestamp
  updatedAt : Timestamp
deriving DecidableEq

namespace Stored

def decode : Decoder Stored :=
  (Stored.mk <$> Fields.required "id" .int64 <*> Declaration.fields
    <*> Fields.required "created_at" Timestamp.decode
    <*> Fields.required "updated_at" Timestamp.decode).record "Symbol"

/-- A stored symbol as a JSON value, its times written by `time`. -/
def toValueWith (time : Timestamp → Value) (s : Stored) : Value :=
  .object (("id", .int s.id) :: s.declaration.members ++
    [("created_at", time s.createdAt), ("updated_at", time s.updatedAt)])

def toValue (s : Stored) : Value := s.toValueWith fun t => .str t.text

end Stored

/-- New values for some parts of a symbol; a part without one stays as it is. -/
structure Change where
  kind : Option Kind := none
  docstring : Option String := none
  line : Option Nat := none
  column : Option Nat := none
  endLine : Option Nat := none
  endColumn : Option Nat := none
  parent : Option Int := none
deriving DecidableEq

def Change.isEmpty (change : Change) : Bool := decide (change = {})

/-- Reads a change; absent and null parts stay as they are. -/
def Change.decode : Decoder Change :=
  (Change.mk <$> Fields.nullable "kind" Kind.decode <*> Fields.nullable "docstring" .text
    <*> Fields.nullable "line_number" .nat32 <*> Fields.nullable "column_number" .nat32
    <*> Fields.nullable "end_line_number" .nat32 <*> Fields.nullable "end_column_number" .nat32
    <*> Fields.nullable "parent_id" .int64).record "SymbolUpdate"

/-- The record that a comment on a pull request has been answered. -/
structure Reply where
  comment : Int
  pullRequest : Int
  repository : String
  repliedAt : Timestamp
deriving DecidableEq

namespace Reply

def decode : Decoder Reply :=
  (Reply.mk <$> Fields.required "comment_id" .int64 <*> Fields.required "pr_number" .int64
    <*> Fields.required "repository_id" .text
    <*> Fields.required "replied_at" Timestamp.decode).record "CommentReply"

def toValueWith (time : Timestamp → Value) (r : Reply) : Value :=
  .object [("comment_id", .int r.comment), ("pr_number", .int r.pullRequest),
    ("repository_id", .str r.repository), ("replied_at", time r.repliedAt)]

def toValue (r : Reply) : Value := r.toValueWith fun t => .str t.text

end Reply

end CodeAtlas.Symbol
