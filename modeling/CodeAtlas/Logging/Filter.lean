import CodeAtlas.Json.Value
import CodeAtlas.Logging.Pattern

/-!
# Filters of log events

A filter is a list of directives between commas. A directive gives a level to the events of the
targets that start with a text, and may be limited to certain spans and values of fields. Of the
directives that concern a target, the one with the longest text decides.
-/

namespace CodeAtlas.Logging

inductive Level where
  | error
  | warn
  | info
  | debug
  | trace
deriving DecidableEq, Inhabited

namespace Level

def all : List Level := [.error, .warn, .info, .debug, .trace]

def name : Level → String
  | .error => "error"
  | .warn => "warn"
  | .info => "info"
  | .debug => "debug"
  | .trace => "trace"

def verbosity (level : Level) : Nat := all.idxOf level + 1

end Level

/-- The verbosity up to which events are let through; zero lets none through. -/
abbrev Threshold := Nat

variable (text : List Char) (d : Directive)

def threshold? : Option Threshold :=
  match Text.natBelow? 6 text with
  | some number => some number
  | none =>
    if text.isEmpty then some 1
    else if Text.sameUpToCase text "off".toList then some 0
    else (Level.all.find? fun level => Text.sameUpToCase text level.name.toList).map Level.verbosity

inductive FilterError where
  | directive
  | level
  | field (cause : PatternError)
deriving DecidableEq

def FilterError.message : FilterError → String
  | .directive => "invalid filter directive"
  | .level =>
    "error parsing level filter: expected one of \"off\", \"error\", \"warn\", \"info\", " ++
      "\"debug\", \"trace\", or a number 0-5"
  | .field cause => "invalid field filter: " ++ cause.message

structure FieldMatch where
  name : List Char
  value : Option (List Char)
deriving DecidableEq

def isUnboundedName : Bool :=
  ["inf", "infinity", "nan"].any fun name =>
    Text.sameUpToCase (Numeral.unsigned text) name.toList

/-- Checks the value of a field: a number, or else a pattern. -/
def checkValue : Except FilterError Unit :=
  if (Numeral.parse? text).isSome || isUnboundedName text then .ok ()
  else (Pattern.check text).mapError .field

def FieldMatch.parse : Except FilterError FieldMatch :=
  match Text.splitOnce? '=' text with
  | some (name, rest) =>
    let value := rest.takeWhile (· ≠ '=')
    (checkValue value).map fun _ => ⟨name, some value⟩
  | none => .ok ⟨text, none⟩

structure Directive where
  threshold : Threshold := 5
  target : Option (List Char) := none
  span : Option (List Char) := none
  fields : List FieldMatch := []
deriving DecidableEq

/-- What part of a directive is being read, and at which octet it starts. -/
inductive Part where
  | start
  | levelOrTarget (start : Nat)
  | span (start : Nat)
  | field (start : Nat)
  | fieldsEnd
  | spanEnd
  | level (start : Nat)
deriving DecidableEq

def startsDirective (c : Char) : Bool :=
  c == '-' || c == ':' || c == '_' || Text.isAlphanumeric c

def octetCount : Nat := text.foldl (fun n c => n + c.utf8Size) 0

def dropOctets : Nat → List Char → List Char
  | 0, text => text
  | _ + 1, [] => []
  | count + 1, c :: rest => dropOctets (count + 1 - c.utf8Size) rest

def takeOctets (count : Nat) (text : List Char) : List Char :=
  text.take (text.length - (dropOctets count text).length)

def slice (start stop : Nat) : List Char :=
  takeOctets (stop - start) (dropOctets start text)

def Directive.addField (text : List Char) (start index : Nat) : Except FilterError Directive :=
  let field := slice text start index
  if field.isEmpty then .error .directive
  else (FieldMatch.parse field).map fun field => { d with fields := d.fields ++ [field] }

/-- Goes on reading a directive at a character. Parts are cut out of `text`, which has the blanks
that the characters come without. -/
def Directive.advance (part : Part) (d : Directive) (index : Nat) (c : Char) :
    Except FilterError (Part × Directive) :=
  match part with
  | .start =>
    if c = '[' then .ok (.span (index + 1), d)
    else if startsDirective c then .ok (.levelOrTarget index, d)
    else .error .directive
  | .levelOrTarget start =>
    if c = '=' then .ok (.level (index + 1), { d with target := some (slice text start index) })
    else if c = '[' then .ok (.span (index + 1), { d with target := some (slice text start index) })
    else .ok (part, d)
  | .span start =>
    if c = ']' then .ok (.spanEnd, { d with span := some (slice text start index) })
    else if c = '\x7b' then
      let name := slice text start index
      .ok (.field (index + 1), { d with span := if name.isEmpty then none else some name })
    else .ok (part, d)
  | .field start =>
    if c = '\x7d' then (d.addField text start index).map fun d => (.fieldsEnd, d)
    else .ok (part, d)
  | .fieldsEnd => if c = ']' then .ok (.spanEnd, d) else .error .directive
  | .spanEnd => if c = '=' then .ok (.level (index + 1), d) else .error .directive
  | .level _ => .ok (part, d)

/-- Ends a directive: a level or a target may stand alone, and a missing level lets all through. -/
def Directive.finish (part : Part) (d : Directive) : Except FilterError Directive :=
  match part with
  | .levelOrTarget start =>
    let rest := dropOctets start text
    match threshold? rest with
    | some threshold => .ok { d with threshold, target := none }
    | none => .ok { d with threshold := 5, target := some rest }
  | .level start =>
    let rest := dropOctets start text
    if rest.isEmpty then .ok { d with threshold := 5 }
    else
      match threshold? rest with
      | some threshold => .ok { d with threshold }
      | none => .error .level
  | .spanEnd => .ok d
  | _ => .error .directive

def Directive.readFrom (text : List Char) :
    List Char → Nat → Part → Directive → Except FilterError Directive
  | [], _, part, d => d.finish text part
  | c :: rest, index, part, d =>
    match d.advance text part index c with
    | .ok (part, d) => readFrom text rest (index + c.utf8Size) part d
    | .error e => .error e

def Directive.parse : Except FilterError Directive :=
  Directive.readFrom text (Text.trim text) 0 .start {}

abbrev Filter := List Directive

def Filter.parse (text : String) : Except FilterError Filter :=
  ((text.splitOn ",").filter fun part => !part.isEmpty).mapM fun part => Directive.parse part.toList

/-- Whether a directive can decide outside of spans: it names no span and no value of a field. -/
def Directive.isStatic : Bool :=
  d.span.isNone && d.fields.all fun field => field.value.isNone

/-- Whether a directive concerns events of a target, whatever their fields are. -/
def Directive.concerns (target : List Char) : Bool :=
  d.isStatic && ((d.target.map fun part => part.isPrefixOf target).getD true)

/-- How long the target of a directive is; no target is shorter than the empty one. -/
def Directive.reach : Nat :=
  match d.target with
  | some target => octetCount target + 1
  | none => 0

/-- The order of directives from the least to the most specific: by the length of the target, then
by the number of fields, and last by their texts. -/
def Directive.compare (a b : Directive) : Ordering :=
  (Ord.compare a.reach b.reach).then <|
    (Ord.compare a.fields.length b.fields.length).then <|
      (Ord.compare (a.target.getD []) (b.target.getD [])).then <|
        Ord.compare (a.fields.map FieldMatch.name) (b.fields.map FieldMatch.name)

/-- The directive that decides about a target: the most specific, and the last of those. -/
def Filter.deciding? (filter : Filter) (target : List Char) : Option Directive :=
  filter.foldl (fun best d =>
    if d.concerns target then
      match best with
      | some other => if other.compare d = .gt then best else some d
      | none => some d
    else best) none

def Filter.enabled (filter : Filter) (target : String) (level : Level) : Bool :=
  match filter.deciding? target.toList with
  | some d => level.verbosity ≤ d.threshold
  | none => false

def defaultLevel : String := "info"

/-- The filter of a program: that of its environment if there is one that can be read, else that of
its settings, else the default. -/
def Filter.choose (environment : Option String) (level : String) : Filter :=
  match environment.bind fun text => (parse text).toOption with
  | some filter => filter
  | none =>
    match parse level with
    | .ok filter => filter
    | .error _ => ((parse defaultLevel).toOption).getD []

open Json (Value)

structure Event where
  level : Level
  text : String
  fields : List (String × String)
deriving DecidableEq

def Event.toValue (event : Event) : Value :=
  .object [("level", .str event.level.name.toUpper), ("text", .str event.text),
    ("fields", .object (event.fields.map fun (name, text) => (name, .str text)))]

end CodeAtlas.Logging
