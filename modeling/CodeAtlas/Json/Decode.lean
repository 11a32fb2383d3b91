import CodeAtlas.Json.Reader
import CodeAtlas.Text.Unicode

/-!
# Typed readings of JSON values

A `Decoder` reads a value as a type or says what it found instead. Records are described by
`Fields`: they are read from objects, where the first mistyped member in the order of names is
reported before any missing one, and from arrays in the order of declaration.
-/

namespace CodeAtlas.Json

inductive Unexpected where
  | null
  | bool (value : Bool)
  | int (value : Int)
  | real (value : Binary64)
  | str (value : String)
  | seq
  | map
deriving DecidableEq

def Unexpected.message : Unexpected → String
  | .null => "null"
  | .bool value => s!"boolean `{value}`"
  | .int value => s!"integer `{value}`"
  | .real value => "floating point `" ++ value.exponentText ++ "`"
  | .str value => "string " ++ Text.quoted value
  | .seq => "sequence"
  | .map => "map"

def Value.unexpected : Value → Unexpected
  | .null => .null
  | .bool value => .bool value
  | .num (.int value) => .int value
  | .num (.real value) => .real value
  | .str value => .str value
  | .arr _ => .seq
  | .obj _ => .map

inductive DecodeError where
  | invalidType (found : Unexpected) (expected : String)
  | invalidValue (found : Unexpected) (expected : String)
  | invalidLength (count : Nat) (expected : String)
  | missingField (name : String)
  | unknownField (name : String) (known : List String)
  | unknownVariant (name : String) (known : List String)
  | noVariant (type : String)
  | worded (text : String)
deriving DecidableEq

def alternatives : List String → String
  | [] => "there are no variants"
  | [a] => s!"`{a}`"
  | [a, b] => s!"`{a}` or `{b}`"
  | names => "one of " ++ ", ".intercalate (names.map fun name => s!"`{name}`")

def DecodeError.message : DecodeError → String
  | .invalidType found expected => s!"invalid type: {found.message}, expected {expected}"
  | .invalidValue found expected => s!"invalid value: {found.message}, expected {expected}"
  | .invalidLength count expected => s!"invalid length {count}, expected {expected}"
  | .missingField name => s!"missing field `{name}`"
  | .unknownField name known => s!"unknown field `{name}`, expected {alternatives known}"
  | .unknownVariant name known => s!"unknown variant `{name}`, expected {alternatives known}"
  | .noVariant type => s!"data did not match any variant of untagged enum {type}"
  | .worded text => text

/-- Why a text cannot be read as a type: it is not JSON, or its value does not fit. -/
inductive Problem where
  | malformed (error : SyntaxError)
  | shape (error : DecodeError)
deriving DecidableEq

def Problem.message : Problem → String
  | .malformed error => error.message
  | .shape error => error.message

abbrev Decoder (α : Type) := Value → Except DecodeError α

namespace Decoder

def mismatch {α : Type} (value : Value) (expected : String) : Except DecodeError α :=
  .error (.invalidType value.unexpected expected)

def any : Decoder Value := .ok

def intWithin (low high : Int) (name : String) : Decoder Int
  | .num (.int n) => if low ≤ n ∧ n ≤ high then .ok n else .error (.invalidValue (.int n) name)
  | value => mismatch value name

/-- A natural number of at most `bits` bits, described by `name`. -/
def natWithin (bits : Nat) (name : String) : Decoder Nat := fun value => do
  let n ← intWithin 0 (2 ^ bits - 1) name value
  return n.toNat

def int64 : Decoder Int := intWithin (-2 ^ 63) (2 ^ 63 - 1) "i64"

def int32 : Decoder Int := intWithin (-2 ^ 31) (2 ^ 31 - 1) "i32"

def nat16 : Decoder Nat := natWithin 16 "u16"

def nat32 : Decoder Nat := natWithin 32 "u32"

def nat64 : Decoder Nat := natWithin 64 "u64"

def size : Decoder Nat := natWithin 64 "usize"

def text : Decoder String
  | .str text => .ok text
  | value => mismatch value "a string"

def bool : Decoder Bool
  | .bool value => .ok value
  | value => mismatch value "a boolean"

def option {α : Type} (decode : Decoder α) : Decoder (Option α)
  | .null => .ok none
  | value => some <$> decode value

def list {α : Type} (decode : Decoder α) : Decoder (List α)
  | .arr elements => elements.mapM decode
  | value => mismatch value "a sequence"

/-- One of a set of names, written alone or as the single key of an object with a null value. -/
def variant (names : List String) : Decoder String
  | .str name => if names.contains name then .ok name else .error (.unknownVariant name names)
  | .obj [(name, value)] =>
    if names.contains name then
      match value with
      | .null => .ok name
      | value => mismatch value "unit"
    else .error (.unknownVariant name names)
  | .obj _ => .error (.invalidValue .map "map with a single key")
  | value => mismatch value "string or map"

/-- The first of several readings that succeeds, for the type called `type`. -/
def firstOf {α : Type} (type : String) (readings : List (Decoder α)) : Decoder α := fun value =>
  match readings.findSome? fun decode => (decode value).toOption with
  | some result => .ok result
  | none => .error (.noVariant type)

end Decoder

/-- A record under construction: what to check in each member, how to build the record from the
members of an object, and how to build it from the elements of an array (`none` when they run
out). -/
structure Fields (α : Type) where
  checks : List (String × (Value → Except DecodeError Unit))
  ofMembers : Members → Except DecodeError α
  ofElements : List Value → Except (Option DecodeError) (α × List Value)

namespace Fields

protected def pure {α : Type} (a : α) : Fields α :=
  ⟨[], fun _ => .ok a, fun elements => .ok (a, elements)⟩

protected def seq {α β : Type} (f : Fields (α → β)) (x : Unit → Fields α) : Fields β where
  checks := f.checks ++ (x ()).checks
  ofMembers members := do
    let g ← f.ofMembers members
    let a ← (x ()).ofMembers members
    return g a
  ofElements elements := do
    let (g, elements) ← f.ofElements elements
    let (a, elements) ← (x ()).ofElements elements
    return (g a, elements)

instance : Applicative Fields where
  pure := Fields.pure
  seq := Fields.seq

/-- One field, with what stands for it when an object or an array does not have it. -/
def field {α : Type} (name : String) (decode : Decoder α) (inObject inArray : Option α) :
    Fields α where
  checks := [(name, fun value => (fun _ => ()) <$> decode value)]
  ofMembers members :=
    match Members.get? name members with
    | some value => decode value
    | none =>
      match inObject with
      | some a => .ok a
      | none => .error (.missingField name)
  ofElements
    | value :: rest =>
      match decode value with
      | .ok a => .ok (a, rest)
      | .error e => .error (some e)
    | [] =>
      match inArray with
      | some a => .ok (a, [])
      | none => .error none

def required {α : Type} (name : String) (decode : Decoder α) : Fields α :=
  field name decode none none

/-- A field that may be null, and absent from an object. -/
def nullable {α : Type} (name : String) (decode : Decoder α) : Fields (Option α) :=
  field name (.option decode) (some none) none

/-- A field that takes a value of its own when it is absent. -/
def defaulted {α : Type} (name : String) (decode : Decoder α) (value : α) : Fields α :=
  field name decode (some value) (some value)

/-- The first error in the members, in the order of their names. -/
def check {α : Type} (fields : Fields α) (closed : Bool) : Members → Except DecodeError Unit
  | [] => .ok ()
  | (name, value) :: rest =>
    match fields.checks.find? (fun c => c.1 == name) with
    | some c =>
      match c.2 value with
      | .ok () => check fields closed rest
      | .error e => .error e
    | none =>
      if closed then .error (.unknownField name (fields.checks.map (·.1)))
      else check fields closed rest

/-- Reads a record from an object or an array. `what` describes the record, `long` describes it
with its length, and a `closed` record has no other members. -/
def read {α : Type} (fields : Fields α) (what long : String) (closed : Bool) : Decoder α
  | .obj members => do
    fields.check closed members
    fields.ofMembers members
  | .arr elements =>
    match fields.ofElements elements with
    | .error none => .error (.invalidLength elements.length long)
    | .error (some e) => .error e
    | .ok (a, []) => .ok a
    | .ok (_, _ :: _) =>
      .error (.invalidLength elements.length "fewer elements in array")
  | value => Decoder.mismatch value what

/-- Reads the record called `name`; other members are ignored. -/
def record {α : Type} (fields : Fields α) (name : String) : Decoder α :=
  let count := fields.checks.length
  let noun := if count = 1 then "element" else "elements"
  fields.read s!"struct {name}" s!"struct {name} with {count} {noun}" false

end Fields

end CodeAtlas.Json
