import CodeAtlas.Supervision.Shell.Arithmetic
import CodeAtlas.Supervision.Shell.Glob

/-!
# What words expand to

The parts of a word are replaced by what they stand for, and what is not quoted is then divided at
blanks and matched with the names of files. An expansion that fails ends its shell.
-/

namespace CodeAtlas.Supervision.Shell

structure Scope where
  values : Values := []
  arguments : List String := []
  name : String := "sh"
  status : Nat := 0
  number : Nat := 0
  background : Option Nat := none
  /-- Whether a parameter that is not set is a fault. -/
  refusesUnset : Bool := false

namespace Scope

def get? (scope : Scope) (name : String) : Option String :=
  match name with
  | "#" => some (toString scope.arguments.length)
  | "?" => some (toString scope.status)
  | "$" => some (toString scope.number)
  | "!" => scope.background.map toString
  | "-" => some ""
  | "0" => some scope.name
  | _ =>
    match name.toNat? with
    | some n => scope.arguments[n - 1]?
    | none => scope.values.lookup name

def set (scope : Scope) (name value : String) : Scope :=
  { scope with values := scope.values.set name value }

def dividers (scope : Scope) : List Char := ((scope.get? "IFS").getD " \t\n").toList

end Scope

inductive Span where
  /-- A text, whether it is quoted, and whether words may be divided within it. -/
  | text (content : String) (quoted : Bool) (divides : Bool)
  | border
  /-- No arguments, which make no word if there is nothing beside them. -/
  | nothing

def joined (spans : List Span) : String :=
  String.join (spans.map fun span =>
    match span with
    | .text content _ _ => content
    | .border => " "
    | .nothing => "")

/-- The characters of spans as one word, and whether they are quoted. -/
def marks (spans : List Span) : List Mark :=
  spans.flatMap fun span =>
    match span with
    | .text content quoted _ => content.toList.map fun c => (c, quoted)
    | .border => [(' ', true)]
    | .nothing => []

def bordered (quoted : Bool) : List String → List Span
  | [] => [.nothing]
  | [last] => [.text last quoted (!quoted)]
  | first :: rest => .text first quoted (!quoted) :: .border :: bordered quoted rest

/-- What a parameter stands for by itself; a parameter that is not set may be a fault. -/
def parameterSpans? (scope : Scope) (name : String) (quoted : Bool) : Option (List Span) :=
  if name = "@" then some (bordered quoted scope.arguments)
  else if name = "*" then
    if quoted then
      let separator := String.ofList (scope.dividers.take 1)
      some [.text (separator.intercalate scope.arguments) true false]
    else some (bordered false scope.arguments)
  else
    match scope.get? name with
    | some value => some [.text value quoted (!quoted)]
    | none => if scope.refusesUnset then none else some [.text "" quoted (!quoted)]

/-- Whether a parameter has no value, or an empty one if that counts. -/
def isAbsent (scope : Scope) (name : String) (emptyToo : Bool) : Bool :=
  let value := if name = "@" ∨ name = "*" then
      if scope.arguments.isEmpty then none else some (" ".intercalate scope.arguments)
    else scope.get? name
  match value with
  | none => true
  | some text => emptyToo && text.isEmpty

mutual

/-- What a part of a word stands for, and the scope after it. A literal text divides words only as
the word of a parameter. -/
def expandPiece? (divides : Bool) (scope : Scope) : Piece → Option (Scope × List Span)
  | .literal text quoted => some (scope, [.text text quoted (divides && !quoted)])
  | .captured text quoted => some (scope, [.text text quoted (!quoted)])
  | .capture _ quoted => some (scope, [.text "" quoted (!quoted)])
  | .arithmetic sum quoted => do
    let (scope, spans) ← expandPieces? false scope sum
    let (n, values) ← evaluate? scope.values (joined spans).toList
    some ({ scope with values }, [.text (toString n) quoted (!quoted)])
  | .parameter name form argument quoted =>
    match form with
    | .value => do some (scope, ← parameterSpans? scope name quoted)
    | .length => do
      let value := joined (← parameterSpans? scope name true)
      let size := if name = "@" ∨ name = "*" then scope.arguments.length else octetCount value
      some (scope, [.text (toString size) quoted (!quoted)])
    | .orElse emptyToo =>
      if isAbsent scope name emptyToo then expandPieces? (!quoted) scope argument
      else do some (scope, ← parameterSpans? scope name quoted)
    | .orAssign emptyToo =>
      if isAbsent scope name emptyToo then do
        let (scope, spans) ← expandPieces? false scope argument
        let value := joined spans
        if isName name.toList then some (scope.set name value, [.text value quoted (!quoted)])
        else none
      else do some (scope, ← parameterSpans? scope name quoted)
    | .orFail emptyToo =>
      if isAbsent scope name emptyToo then none
      else do some (scope, ← parameterSpans? scope name quoted)
    | .instead emptyToo =>
      if isAbsent scope name emptyToo then some (scope, [.text "" quoted (!quoted)])
      else expandPieces? (!quoted) scope argument
    | .withoutEnd longest => do
      let value := (joined (← parameterSpans? scope name true)).toList
      let (scope, spans) ← expandPieces? false scope argument
      some (scope,
        [.text (String.ofList (withoutEnd longest (marks spans) value)) quoted (!quoted)])
    | .withoutStart longest => do
      let value := (joined (← parameterSpans? scope name true)).toList
      let (scope, spans) ← expandPieces? false scope argument
      some (scope,
        [.text (String.ofList (withoutStart longest (marks spans) value)) quoted (!quoted)])

def expandPieces? (divides : Bool) (scope : Scope) : List Piece → Option (Scope × List Span)
  | [] => some (scope, [])
  | piece :: rest => do
    let (scope, first) ← expandPiece? divides scope piece
    let (scope, others) ← expandPieces? divides scope rest
    some (scope, first ++ others)

end

/-- Words that are being divided, the last first, and the characters of one, the last first. -/
structure Division where
  done : List (List Mark) := []
  current : Option (List Mark) := none
  afterBlank : Bool := false

namespace Division

def close (d : Division) : Division :=
  match d.current with
  | some word => { done := word.reverse :: d.done }
  | none => { d with current := none }

def add (d : Division) (mark : Mark) : Division :=
  { d with current := some (mark :: d.current.getD []), afterBlank := false }

def addDividing (dividers : List Char) (d : Division) (c : Char) : Division :=
  if !dividers.contains c then d.add (c, false)
  else if [' ', '\t', '\n'].contains c then
    if d.current.isSome then { d.close with afterBlank := true } else d
  else if d.current.isSome then d.close
  else if d.afterBlank then { d with afterBlank := false }
  else { d with done := [] :: d.done }

def addSpan (dividers : List Char) (d : Division) : Span → Division
  | .text content quoted divides =>
    if divides then content.toList.foldl (addDividing dividers) d
    else
      let d := if quoted then { d with current := some (d.current.getD []) } else d
      content.toList.foldl (fun d c => d.add (c, quoted)) d
  | .border => { d.close with afterBlank := false }
  | .nothing => d

end Division

def isNothing (spans : List Span) : Bool :=
  (spans.any fun span => match span with | .nothing => true | _ => false) && joined spans = ""

def divide (scope : Scope) (spans : List Span) : List (List Mark) :=
  if isNothing spans then []
  else ((spans.foldl (Division.addSpan scope.dividers) {}).close).done.reverse

def plainText (word : List Mark) : String := String.ofList (word.map Prod.fst)

def segments : List Mark → List (List Mark)
  | [] => [[]]
  | mark :: rest =>
    match segments rest with
    | piece :: others =>
      if mark.1 = '/' then [] :: piece :: others else (mark :: piece) :: others
    | [] => [[mark]]

/-- The paths that parts match behind the start of a path, where `names` lists a directory. Hidden
names are matched only by a dot. -/
def matchPaths (names : String → List String) : List (List Mark) → String → List String
  | [], start => [start]
  | segment :: rest, start =>
    let text := plainText segment
    let next (name : String) : List String :=
      matchPaths names rest (start ++ name ++ if rest.isEmpty then "" else "/")
    if isGlob segment then
      let fits (name : String) : Bool :=
        (text.startsWith "." || !name.startsWith ".") && globMatches segment name.toList
      ((names start).filter fits).flatMap next
    else if rest.isEmpty && !text.isEmpty && !(names start).contains text then []
    else next text

def matchNames (names : String → List String) (word : List Mark) : List String :=
  let found := if isGlob word then matchPaths names (segments word) "" else []
  if found.isEmpty then [plainText word] else found

def expandWord? (names : String → List String) (scope : Scope) (word : Word) :
    Option (Scope × List String) := do
  let (scope, spans) ← expandPieces? false scope word
  some (scope, (divide scope spans).flatMap (matchNames names))

def expandWords? (names : String → List String) : Scope → List Word → Option (Scope × List String)
  | scope, [] => some (scope, [])
  | scope, word :: rest => do
    let (scope, first) ← expandWord? names scope word
    let (scope, others) ← expandWords? names scope rest
    some (scope, first ++ others)

/-- The text that a word expands to where no words are divided, and the scope after it. -/
def expandText? (scope : Scope) (word : Word) : Option (Scope × String) := do
  let (scope, spans) ← expandPieces? false scope word
  some (scope, joined spans)

def assignAll? : Scope → List (String × Word) → Option Scope
  | scope, [] => some scope
  | scope, (name, word) :: rest => do
    let (scope, value) ← expandText? scope word
    assignAll? (scope.set name value) rest

end CodeAtlas.Supervision.Shell
