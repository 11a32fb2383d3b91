import CodeAtlas.Json.Decode

/-!
# Remote procedure call messages

A message is a request, a response or a notification. `Message.ofValue` classifies a JSON value by
the presence of a method and of an id that is not null, and `Message.toValue` writes the envelope.
`Message.normal` is the message that the envelope of a message is read back as.
-/

namespace CodeAtlas.Rpc

open Json (Value Members Decoder Fields)

/-- What identifies a request: a signed 64-bit integer or a text. -/
inductive RequestId where
  | number (value : Int)
  | text (value : String)
deriving DecidableEq, Inhabited

namespace RequestId

/-- An id as it appears in messages to people: texts are quoted. -/
def display : RequestId → String
  | .number n => toString n
  | .text s => Text.quoted s

def toValue : RequestId → Value
  | .number n => .int n
  | .text s => .str s

def decode : Decoder RequestId := .firstOf "RequestId"
  [fun value => .number <$> Decoder.int64 value, fun value => .text <$> Decoder.text value]

end RequestId

structure ResponseError where
  code : Int
  message : String
  data : Option Value
deriving DecidableEq

namespace ResponseError

def methodNotFound (method : String) : ResponseError :=
  { code := -32601, message := "method not found: " ++ method, data := none }

/-- An error object from a JSON value; null data count as absent. -/
def decode : Decoder ResponseError :=
  (ResponseError.mk <$> Fields.required "code" .int64 <*> Fields.required "message" .text
    <*> Fields.defaulted "data" (.option .any) none).record "ResponseError"

def toValue (e : ResponseError) : Value :=
  .object ([("code", .int e.code), ("message", .str e.message)] ++
    (e.data.map fun data => ("data", data)).toList)

end ResponseError

inductive Message where
  | request (id : RequestId) (method : String) (params : Option Value)
  | notification (method : String) (params : Option Value)
  | response (id : RequestId) (result : Option Value) (error : Option ResponseError)
deriving DecidableEq

inductive MessageError where
  | notAnObject
  | invalidId (id : Value)
  | invalidMethod
  | unclassifiable
  | invalidError (cause : Json.Problem)
deriving DecidableEq

def MessageError.message : MessageError → String
  | .notAnObject => "JSON-RPC payload is not an object"
  | .invalidId id => "invalid JSON-RPC id: " ++ id.render
  | .invalidMethod => "JSON-RPC method is not a string"
  | .unclassifiable => "JSON-RPC payload has neither id nor method"
  | .invalidError cause => "invalid JSON-RPC error object: " ++ cause.message

def MessageError.sources : MessageError → List String
  | .invalidError cause => [cause.message]
  | _ => []

variable (members : Members)

/-- The id of a message, where null counts as absent. -/
def readId? : Except MessageError (Option RequestId) :=
  match Members.get? "id" members with
  | none => .ok none
  | some .null => .ok none
  | some (.num (.int n)) =>
    if Json.fitsSigned n then .ok (some (.number n)) else .error (.invalidId (.int n))
  | some (.str s) => .ok (some (.text s))
  | some other => .error (.invalidId other)

def readMethod? : Except MessageError (Option String) :=
  match Members.get? "method" members with
  | none => .ok none
  | some (.str method) => .ok (some method)
  | some _ => .error .invalidMethod

/-- The error of a response, where null counts as absent. -/
def readError? : Except MessageError (Option ResponseError) :=
  match Members.get? "error" members with
  | none => .ok none
  | some .null => .ok none
  | some value =>
    match ResponseError.decode value with
    | .ok e => .ok (some e)
    | .error cause => .error (.invalidError (.shape cause))

namespace Message

def ofValue : Value → Except MessageError Message
  | .obj members => do
    let id ← readId? members
    let method ← readMethod? members
    let params := Members.get? "params" members
    match method, id with
    | some method, some id => return .request id method params
    | some method, none => return .notification method params
    | none, some id =>
      let error ← readError? members
      return .response id (Members.get? "result" members) error
    | none, none => .error .unclassifiable
  | _ => .error .notAnObject

def paramsMember (params : Option Value) : List (String × Value) :=
  (params.map fun value => ("params", value)).toList

def toValue : Message → Value
  | .request id method params =>
    .object ([("jsonrpc", .str "2.0"), ("id", id.toValue), ("method", .str method)] ++
      paramsMember params)
  | .notification method params =>
    .object ([("jsonrpc", .str "2.0"), ("method", .str method)] ++ paramsMember params)
  | .response id _ (some error) =>
    .object [("jsonrpc", .str "2.0"), ("id", id.toValue), ("error", error.toValue)]
  | .response id result none =>
    .object [("jsonrpc", .str "2.0"), ("id", id.toValue), ("result", result.getD .null)]

def method? : Message → Option String
  | .request _ method _ => some method
  | .notification method _ => some method
  | .response _ _ _ => none

def id? : Message → Option RequestId
  | .request id _ _ => some id
  | .notification _ _ => none
  | .response id _ _ => some id

def success (id : RequestId) (result : Value) : Message := .response id (some result) none

def failure (id : RequestId) (error : ResponseError) : Message := .response id none (some error)

/-- A message as its envelope is read back: a response has a result or an error and not both, and
null data are absent. -/
def normal : Message → Message
  | .response id _ (some error) =>
    .response id none (some { error with data := error.data.filter (· ≠ .null) })
  | .response id result none => .response id (some (result.getD .null)) none
  | other => other

end Message

/-- What a waiting caller sees of a response: an error takes precedence over a result. -/
def outcome (result : Option Value) (error : Option ResponseError) : Except ResponseError Value :=
  match error with
  | some error => .error error
  | none => .ok (result.getD .null)

end CodeAtlas.Rpc
