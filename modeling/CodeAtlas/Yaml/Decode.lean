import CodeAtlas.Json.Decode
import CodeAtlas.Yaml.Meaning

/-!
# Reading values from nodes

A `Decoder` reads a value of a type from a node of a document. A fault has a cause, and a place when
it is known: the path of names that leads to the node, and where the node starts. An alias is read
as the node it stands for; a fault without a place gets that of the alias.
-/

namespace CodeAtlas.Yaml

inductive Found where
  | meaning (m : Meaning)
  | sequence
  | mapping

def Found.message : Found → String
  | .meaning .null => "unit value"
  | .meaning (.bool b) => s!"boolean `{b}`"
  | .meaning (.int n) => s!"integer `{n}`"
  | .meaning (.real x) =>
    let body :=
      if !x.isNumber then "NaN"
      else if !x.isFinite then if x.isNegative then "-inf" else "inf"
      else if Binary64.showsPoint x.plainText then x.plainText
      else x.plainText ++ ".0"
    s!"floating point `{body}`"
  | .meaning (.text s) => "string " ++ Text.quoted s
  | .sequence => "sequence"
  | .mapping => "map"

def Node.found {α : Type} : Node α → Found
  | .scalar _ tag style text => .meaning ((scalarMeaning? tag style text).getD (.text text))
  | .sequence _ _ _ => .sequence
  | .mapping _ _ _ => .mapping
  | .anchored _ node => node.found
  | .alias _ _ => .meaning .null

inductive Cause where
  | wrongType (found : Found) (expected : String)
  | wrongValue (found : Found) (expected : String)
  | unknownVariant (name : String) (names : List String)
  | repeated (name : String)

def Cause.message : Cause → String
  | .wrongType found expected => s!"invalid type: {found.message}, expected {expected}"
  | .wrongValue found expected => s!"invalid value: {found.message}, expected {expected}"
  | .unknownVariant name names =>
    s!"unknown variant `{name}`, expected {Json.alternatives names}"
  | .repeated name => s!"duplicate field `{name}`"

structure Fault where
  cause : Cause
  /-- The names that lead to the node, outermost first, and where it starts. -/
  place : Option (List String × Mark) := none

/-- A fault in words. The start of the text is not named. -/
def Fault.message (fault : Fault) : String :=
  match fault.place with
  | none => fault.cause.message
  | some (path, mark) =>
    let lead := if path.isEmpty then "" else ".".intercalate path ++ ": "
    let line := mark.line + 1
    let column := mark.column + 1
    let tail := if line = 1 ∧ column = 1 then "" else s!" at line {line} column {column}"
    lead ++ fault.cause.message ++ tail

/-- A fault with a place, its own if it has one. -/
def Fault.at (fault : Fault) (path : List String) (mark : Mark) : Fault :=
  { fault with place := fault.place.or (some (path, mark)) }

/-- Reads a value from a node of a document that a path of names leads to. -/
abbrev Decoder (α : Type) := Document → List String → Node Nat → Except Fault α

namespace Decoder

def refuse {α : Type} (path : List String) (node : Node Nat) (cause : Cause) : Except Fault α :=
  .error ⟨cause, some (path, node.mark)⟩

def mismatch {α : Type} (path : List String) (node : Node Nat) (expected : String) :
    Except Fault α :=
  refuse path node (.wrongType node.found expected)

/-- Reads the node itself, or the one that an alias stands for. -/
def through {α : Type} (decode : Decoder α) : Decoder α := fun document path node =>
  match node with
  | .alias mark name =>
    match document.target? name with
    | some target => (decode document path target).mapError (·.at path mark)
    | none => mismatch path node "a node"
  | .anchored _ node => decode document path node
  | _ => decode document path node

def word? : Node Nat → Option Nat
  | .scalar _ tag style text =>
    if style = .plain ∨ (style = .literal ∧ tag = some (coreTag "int")) then
      match Scalar.int? text.toList with
      | some n => if text.startsWith "-" || !decide (n < 2 ^ 64) then none else some n.toNat
      | none => none
    else none
  | _ => none

def nat (bits : Nat) (name : String) : Decoder Nat := through fun _ path node =>
  match word? node with
  | none => mismatch path node name
  | some n =>
    if n < 2 ^ bits then .ok n
    else refuse path node (.wrongValue (.meaning (.int n)) name)

def text (name : String) : Decoder String := through fun _ path node =>
  match node with
  | .scalar _ _ _ s => .ok s
  | node => mismatch path node name

def isNone : Node Nat → Bool
  | .scalar _ tag style text =>
    style == .plain && match tag with
      | none => text.isEmpty || Scalar.isNull text
      | some tag => tag == coreTag "null" && Scalar.isNull text
  | _ => false

def option {α : Type} (decode : Decoder α) : Decoder (Option α) := through fun document path node =>
  if isNone node then .ok none else some <$> decode document path node

/-- One of a few names: a scalar, or a tag before nothing. -/
def variant (names : List String) : Decoder String := through fun _ path node =>
  let tagged (name : String) : Except Fault String :=
    if names.contains name then
      match node with
      | .scalar _ _ style text =>
        if style == .plain && (text.isEmpty || Scalar.isNull text) then .ok name
        else refuse path node (.wrongValue (.meaning (.text text)) "null")
      | _ => mismatch path node "unit"
    else .error ⟨.unknownVariant name names, none⟩
  match node with
  | .scalar _ tag _ text =>
    match ownTag? tag with
    | some name => tagged name
    | none =>
      if names.contains text then .ok text else refuse path node (.unknownVariant text names)
  | .sequence _ tag _ | .mapping _ tag _ =>
    match ownTag? tag with
    | some name => tagged name
    | none => mismatch path node "a YAML tag starting with '!'"
  | _ => mismatch path node "a YAML tag starting with '!'"

/-- Whether a node is an empty plain scalar, which may stand for an empty mapping. -/
def isEmpty : Node Nat → Bool
  | .scalar _ _ style text => style == .plain && text.isEmpty
  | _ => false

/-- How a path goes on behind a key; the name of a key that is an alias is not told. -/
def step (name : String) : Node Nat → String
  | .alias _ _ => "?"
  | _ => name

/-- Reads the pairs of a record onto a value. A name stands once at most, and a name that the
record does not have is passed over. -/
def pairs {α : Type} (setters : List (String × Decoder (α → α))) (document : Document)
    (path : List String) :
    (seen : List String) → α → List (Node Nat × Node Nat) → Except Fault α
  | _, value, [] => .ok value
  | seen, value, (key, node) :: rest => do
    let name ← text "field identifier" document path key
    match setters.lookup name with
    | none => pairs setters document path seen value rest
    | some decode =>
      if seen.contains name then throw ⟨.repeated name, none⟩
      let set ← decode document (path ++ [step name key]) node
      pairs setters document path (name :: seen) (set value) rest

/-- A record that starts as `value` and is set field by field. -/
def record {α : Type} (name : String) (value : α) (setters : List (String × Decoder (α → α))) :
    Decoder α := through fun document path node =>
  match node with
  | .mapping mark _ members =>
    (pairs setters document path [] value members).mapError (·.at path mark)
  | _ => if isEmpty node then .ok value else mismatch path node ("struct " ++ name)

end Decoder

end CodeAtlas.Yaml
