import CodeAtlas.Json.Decode
import CodeAtlas.Uri.Reference

/-!
# Questions to a language server

What a client can ask about documents, with the method, the parameters and the answer of each
question. The place of a definition comes as one location, as several, or as links. What a server
shows for a position are marked strings or marked-up text. The symbols of a document come flat, with
their locations, or as a tree, with their ranges.
-/

namespace CodeAtlas.Protocol

open Json (Decoder Fields Value)

structure Position where
  line : Nat
  character : Nat
deriving DecidableEq

def Position.decode : Decoder Position :=
  (Position.mk <$> Fields.required "line" .nat32 <*> Fields.required "character" .nat32).record
    "Position"

def Position.toValue (p : Position) : Value :=
  .object [("line", .nat p.line), ("character", .nat p.character)]

structure Range where
  start : Position
  stop : Position
deriving DecidableEq

def Range.decode : Decoder Range :=
  (Range.mk <$> Fields.required "start" Position.decode
    <*> Fields.required "end" Position.decode).record "Range"

def Range.toValue (r : Range) : Value :=
  .object [("start", r.start.toValue), ("end", r.stop.toValue)]

def decodeUri : Decoder Uri := fun value => do
  match Uri.parse (← Decoder.text value) with
  | .ok uri => return uri
  | .error fault => throw (.worded fault.message)

structure Location where
  uri : Uri
  range : Range
deriving DecidableEq

def Location.decode : Decoder Location :=
  (Location.mk <$> Fields.required "uri" decodeUri
    <*> Fields.required "range" Range.decode).record "Location"

def Location.toValue (l : Location) : Value :=
  .object [("uri", .str l.uri.text), ("range", l.range.toValue)]

def decodeLink : Decoder Location :=
  ((fun (_ : Option Range) uri (_ : Range) selection => Location.mk uri selection)
    <$> Fields.nullable "originSelectionRange" Range.decode
    <*> Fields.required "targetUri" decodeUri
    <*> Fields.required "targetRange" Range.decode
    <*> Fields.required "targetSelectionRange" Range.decode).record "LocationLink"

def decodeDefinition : Decoder (List Location) :=
  .firstOf "GotoDefinitionResponse"
    [fun value => (fun location => [location]) <$> Location.decode value,
      Decoder.list Location.decode,
      Decoder.list decodeLink]

/-- A text to be shown as it is or as code in a language. -/
inductive MarkedString where
  | plain (text : String)
  | code (language text : String)
deriving DecidableEq

def MarkedString.decode : Decoder MarkedString :=
  .firstOf "MarkedString"
    [fun value => .plain <$> Decoder.text value,
      (MarkedString.code <$> Fields.required "language" .text
        <*> Fields.required "value" .text).record "LanguageString"]

def MarkedString.toValue : MarkedString → Value
  | .plain text => .str text
  | .code language text => .object [("language", .str language), ("value", .str text)]

inductive HoverContents where
  | one (text : MarkedString)
  | many (texts : List MarkedString)
  | markup (kind text : String)
deriving DecidableEq

def HoverContents.decode : Decoder HoverContents :=
  .firstOf "HoverContents"
    [fun value => .one <$> MarkedString.decode value,
      fun value => .many <$> Decoder.list MarkedString.decode value,
      (HoverContents.markup <$> Fields.required "kind" (.variant ["plaintext", "markdown"])
        <*> Fields.required "value" .text).record "MarkupContent"]

def HoverContents.toValue : HoverContents → Value
  | .one text => text.toValue
  | .many texts => .arr (texts.map MarkedString.toValue)
  | .markup kind text => .object [("kind", .str kind), ("value", .str text)]

structure Hover where
  contents : HoverContents
  range : Option Range
deriving DecidableEq

def Hover.decode : Decoder Hover :=
  (Hover.mk <$> Fields.required "contents" HoverContents.decode
    <*> Fields.nullable "range" Range.decode).record "Hover"

def optionalMember {α : Type} (name : String) (toValue : α → Value) (value : Option α) :
    List (String × Value) :=
  (value.map fun a => (name, toValue a)).toList

def Hover.toValue (h : Hover) : Value :=
  .object (("contents", h.contents.toValue) :: optionalMember "range" Range.toValue h.range)

structure FlatSymbol where
  name : String
  kind : Int
  tags : Option (List Int)
  isDeprecated : Option Bool
  location : Location
  container : Option String
deriving DecidableEq

def FlatSymbol.decode : Decoder FlatSymbol :=
  (FlatSymbol.mk <$> Fields.required "name" .text <*> Fields.required "kind" .int32
    <*> Fields.nullable "tags" (.list .int32) <*> Fields.nullable "deprecated" .bool
    <*> Fields.required "location" Location.decode
    <*> Fields.nullable "containerName" .text).record "SymbolInformation"

def tagsValue (tags : List Int) : Value := .arr (tags.map .int)

def FlatSymbol.toValue (s : FlatSymbol) : Value :=
  .object ([("name", .str s.name), ("kind", .int s.kind), ("location", s.location.toValue)] ++
    optionalMember "tags" tagsValue s.tags ++ optionalMember "deprecated" .bool s.isDeprecated ++
    optionalMember "containerName" .str s.container)

structure NodeLabel where
  name : String
  detail : Option String
  kind : Int
  tags : Option (List Int)
  isDeprecated : Option Bool
  range : Range
  selection : Range
deriving DecidableEq

/-- A tree of symbols; a node may have no list of children at all. -/
inductive OutlineNode where
  | leaf (label : NodeLabel)
  | node (label : NodeLabel) (children : List OutlineNode)

def OutlineNode.of (label : NodeLabel) : Option (List OutlineNode) → OutlineNode
  | none => .leaf label
  | some children => .node label children

def NodeLabel.fields : Fields NodeLabel :=
  NodeLabel.mk <$> Fields.required "name" .text <*> Fields.nullable "detail" .text
    <*> Fields.required "kind" .int32 <*> Fields.nullable "tags" (.list .int32)
    <*> Fields.nullable "deprecated" .bool <*> Fields.required "range" Range.decode
    <*> Fields.required "selectionRange" Range.decode

def OutlineNode.decodeWithin : (depth : Nat) → Decoder OutlineNode
  | 0 => fun _ => .error (.worded "recursion limit exceeded")
  | depth + 1 =>
    (OutlineNode.of <$> NodeLabel.fields
      <*> Fields.nullable "children" (.list (decodeWithin depth))).record "DocumentSymbol"

/-- Reads a tree of symbols. Values are never nested deeper than the reader of JSON admits. -/
def OutlineNode.decode : Decoder OutlineNode := OutlineNode.decodeWithin Json.depthLimit

def labelMembers (l : NodeLabel) : List (String × Value) :=
  [("name", .str l.name), ("kind", .int l.kind), ("range", l.range.toValue),
    ("selectionRange", l.selection.toValue)] ++
    optionalMember "detail" .str l.detail ++ optionalMember "tags" tagsValue l.tags ++
    optionalMember "deprecated" .bool l.isDeprecated

mutual

def OutlineNode.toValue : OutlineNode → Value
  | .leaf label => .object (labelMembers label)
  | .node label children =>
    .object (labelMembers label ++ [("children", .arr (OutlineNode.toValues children))])

def OutlineNode.toValues : List OutlineNode → List Value
  | [] => []
  | first :: rest => first.toValue :: OutlineNode.toValues rest

end

inductive Outline where
  | flat (symbols : List FlatSymbol)
  | nested (nodes : List OutlineNode)

def Outline.decode : Decoder Outline :=
  .firstOf "DocumentSymbolResponse"
    [fun value => .flat <$> Decoder.list FlatSymbol.decode value,
      fun value => .nested <$> Decoder.list OutlineNode.decode value]

def Outline.toValue : Outline → Value
  | .flat symbols => .arr (symbols.map FlatSymbol.toValue)
  | .nested nodes => .arr (nodes.map OutlineNode.toValue)

open Json (Decoder DecodeError Value)

inductive Question where
  | definition (uri : Uri) (position : Position)
  | references (uri : Uri) (position : Position) (includeDeclaration : Bool)
  | hover (uri : Uri) (position : Position)
  | symbols (uri : Uri)
deriving DecidableEq

def documentMember (uri : Uri) : String × Value :=
  ("textDocument", .object [("uri", .str uri.text)])

namespace Question

def method : Question → String
  | .definition _ _ => "textDocument/definition"
  | .references _ _ _ => "textDocument/references"
  | .hover _ _ => "textDocument/hover"
  | .symbols _ => "textDocument/documentSymbol"

def params : Question → Value
  | .definition uri position =>
    .object [documentMember uri, ("position", position.toValue)]
  | .references uri position includeDeclaration =>
    .object [documentMember uri, ("position", position.toValue),
      ("context", .object [("includeDeclaration", .bool includeDeclaration)])]
  | .hover uri position =>
    .object [documentMember uri, ("position", position.toValue)]
  | .symbols uri => .object [documentMember uri]

/-- Reads an answer that may be null, and writes it in its plain form. -/
def readAnswer {α : Type} (decode : Decoder α) (toValue : α → Value) (answer : Value) :
    Except DecodeError Value := do
  match ← Decoder.option decode answer with
  | some a => return toValue a
  | none => return .null

def locationsValue (locations : List Location) : Value :=
  .arr (locations.map Location.toValue)

def answer : Question → Value → Except DecodeError Value
  | .definition _ _ => readAnswer decodeDefinition locationsValue
  | .references _ _ _ => readAnswer (.list Location.decode) locationsValue
  | .hover _ _ => readAnswer Hover.decode Hover.toValue
  | .symbols _ => readAnswer Outline.decode Outline.toValue

end Question

def openedParams (uri : Uri) (language : String) (version : Int) (text : String) : Value :=
  .object [("textDocument", .object [("uri", .str uri.text), ("languageId", .str language),
    ("version", .int version), ("text", .str text)])]

def closedParams (uri : Uri) : Value := .object [documentMember uri]

end CodeAtlas.Protocol
