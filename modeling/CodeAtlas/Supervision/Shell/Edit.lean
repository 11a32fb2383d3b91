import CodeAtlas.Supervision.Shell.Glob
import CodeAtlas.Text.Basic

/-!
# Searches and edits of lines

In a search pattern a star repeats the part before it, brackets stand for one of some characters, and
marks at the ends tie the pattern to the ends of the text. An edit script is done with each line of a
text: its commands print, delete or change the line, each for the lines that its address names.
-/

namespace CodeAtlas.Supervision.Shell

/-- A part of a search pattern that admits one character, and whether it may be repeated. -/
abbrev Repeatable := Atom × Bool

structure Search where
  fromStart : Bool := false
  toEnd : Bool := false
  parts : List Repeatable

namespace Search

def partsOf : (most : Nat) → List Char → List Repeatable
  | 0, _ => []
  | _ + 1, [] => []
  | most + 1, c :: rest =>
    let (atom, rest) : Atom × List Char := match c, rest with
      | '\\', d :: after => (.char d, after)
      | '.', _ => (.one, rest)
      | '[', _ =>
        let negated := rest.head? == some '^'
        let body := if negated then rest.tail else rest
        match Atom.readRanges? (body.length + 1) true (body.map fun d => (d, false)) with
        | some (ranges, after) => (.set negated ranges, after.map Prod.fst)
        | none => (.char c, rest)
      | _, _ => (.char c, rest)
    match rest with
    | '*' :: after => (atom, true) :: partsOf most after
    | _ => (atom, false) :: partsOf most rest

def ofText (text : List Char) : Search :=
  let fromStart := text.head? == some '^'
  let toEnd := text.getLast? == some '$'
  let body := if fromStart then text.tail else text
  let body := if toEnd then body.dropLast else body
  { fromStart, toEnd, parts := partsOf (body.length + 1) body }

def plain (text : List Char) : Search := { parts := text.map fun c => (.char c, false) }

/-- The first answer behind a run of characters that a part admits, the longest run first. -/
def behindRun? (atom : Atom) (next : List Char → Option (List Char)) :
    List Char → Option (List Char)
  | [] => next []
  | c :: rest =>
    (if atom.admits c then behindRun? atom next rest else none).or (next (c :: rest))

def behind? (toEnd : Bool) : List Repeatable → List Char → Option (List Char)
  | [], text => if toEnd && !text.isEmpty then none else some text
  | (atom, true) :: parts, text => behindRun? atom (behind? toEnd parts) text
  | (atom, false) :: parts, text =>
    match text with
    | [] => none
    | c :: rest => if atom.admits c then behind? toEnd parts rest else none

def isFound (search : Search) (text : List Char) : Bool :=
  let test (rest : List Char) : Bool := (behind? search.toEnd search.parts rest).isSome
  if search.fromStart then test text else Atom.anyEnd test text

/-- Replaces what a pattern finds, once or everywhere; the text has `most` places. -/
def replace (search : Search) (image : List Char → List Char) (everywhere : Bool) :
    (most : Nat) → (isStart : Bool) → List Char → List Char × Bool
  | 0, _, text => (text, false)
  | most + 1, isStart, text =>
    let found := if search.fromStart && !isStart then none
      else behind? search.toEnd search.parts text
    match found, text with
    | some rest, _ =>
      let matched := text.take (text.length - rest.length)
      if !everywhere then (image matched ++ rest, true)
      else
        match matched, rest with
        | [], c :: after => (image [] ++ c :: (replace search image true most false after).1, true)
        | [], [] => (image [], true)
        | _, [] => (image matched, true)
        | _, _ => (image matched ++ (replace search image true most false rest).1, true)
    | none, [] => ([], false)
    | none, c :: rest =>
      let (others, hasChanged) := replace search image everywhere most false rest
      (c :: others, hasChanged)

end Search

end CodeAtlas.Supervision.Shell

namespace CodeAtlas.Supervision.Shell.Edit

inductive Address where
  | line (number : Nat)
  | last
  | found (search : Search)

inductive Action where
  | print
  | delete
  | quit
  | change (search : Search) (image : List Char) (everywhere prints : Bool)

structure Command where
  start : Option Address := none
  stop : Option Address := none
  action : Action

/-- The text up to a mark and what follows the mark; a backslash keeps the mark in the text. -/
def upTo (mark : Char) : List Char → Option (List Char × List Char)
  | [] => none
  | '\\' :: c :: rest => (upTo mark rest).map fun (text, rest) =>
    (if c = mark then c :: text else '\\' :: c :: text, rest)
  | c :: rest =>
    if c = mark then some ([], rest) else (upTo mark rest).map fun (text, rest) => (c :: text, rest)

def address? : List Char → Option (Address × List Char)
  | '$' :: rest => some (.last, rest)
  | '/' :: rest => (upTo '/' rest).map fun (text, rest) => (.found (.ofText text), rest)
  | text => do
    let digits := text.takeWhile Char.isDigit
    some (.line (← Text.digitsValue? digits), text.drop digits.length)

def action? : List Char → Option (Action × List Char)
  | 'p' :: rest => some (.print, rest)
  | 'd' :: rest => some (.delete, rest)
  | 'q' :: rest => some (.quit, rest)
  | 's' :: mark :: rest => do
    let (pattern, rest) ← upTo mark rest
    let (image, rest) ← upTo mark rest
    let flags := rest.takeWhile fun c => c == 'g' || c == 'p'
    some (.change (.ofText pattern) image (flags.contains 'g') (flags.contains 'p'),
      rest.drop flags.length)
  | _ => none

def script? : (most : Nat) → List Char → Option (List Command)
  | 0, _ => none
  | most + 1, text =>
    match text.dropWhile fun c => c == ' ' || c == ';' || c == '\n' with
    | [] => some []
    | text => do
      let (start, rest) := match address? text with
        | some (address, rest) => (some address, rest)
        | none => (none, text)
      let (stop, rest) := match rest with
        | ',' :: after =>
          match address? after with
          | some (address, rest) => (some address, rest)
          | none => (none, rest)
        | _ => (none, rest)
      let (action, rest) ← action? (rest.dropWhile (· == ' '))
      match rest.dropWhile (· == ' ') with
      | [] => some [{ start, stop, action }]
      | ';' :: rest | '\n' :: rest => some ({ start, stop, action } :: (← script? most rest))
      | _ => none

def filled (found : List Char) : List Char → List Char
  | [] => []
  | '\\' :: 'n' :: rest => '\n' :: filled found rest
  | '\\' :: c :: rest => c :: filled found rest
  | '&' :: rest => found ++ filled found rest
  | c :: rest => c :: filled found rest

def Address.names (number : Nat) (isLast : Bool) (line : List Char) : Address → Bool
  | .line n => n == number
  | .last => isLast
  | .found search => search.isFound line

/-- Whether a command is for a line, and whether its range goes on behind the line. -/
def Command.concerns (command : Command) (isWithin : Bool) (number : Nat) (isLast : Bool)
    (line : List Char) : Bool × Bool :=
  match command.start, command.stop with
  | none, _ => (true, false)
  | some start, none => (start.names number isLast line, false)
  | some start, some stop =>
    if isWithin then (true, !stop.names number isLast line)
    else if start.names number isLast line then
      (true, match stop with
        | .line n => number < n
        | .last => !isLast
        | .found _ => true)
    else (false, false)

structure Outcome where
  printed : List (List Char) := []
  line : List Char
  isDeleted : Bool := false
  isFinal : Bool := false
  within : List Bool := []

def edited (number : Nat) (isLast : Bool) : List (Command × Bool) → Outcome → Outcome
  | [], outcome => outcome
  | (command, isWithin) :: rest, outcome =>
    if outcome.isDeleted || outcome.isFinal then
      edited number isLast rest { outcome with within := outcome.within ++ [isWithin] }
    else
      let (isMeant, goesOn) := command.concerns isWithin number isLast outcome.line
      let outcome := { outcome with within := outcome.within ++ [goesOn] }
      if !isMeant then edited number isLast rest outcome
      else
        let outcome := match command.action with
          | .print => { outcome with printed := outcome.printed ++ [outcome.line] }
          | .delete => { outcome with isDeleted := true }
          | .quit => { outcome with isFinal := true }
          | .change search image everywhere prints =>
            let (line, hasChanged) := search.replace (filled · image) everywhere
              (outcome.line.length + 1) true outcome.line
            { outcome with
              line
              printed := outcome.printed ++ if prints && hasChanged then [line] else [] }
        edited number isLast rest outcome

/-- Edits lines, the first of which has a number; `isQuiet` leaves printing to the script. -/
def lines (isQuiet : Bool) (script : List Command) :
    (within : List Bool) → (number : Nat) → List (List Char) → List (List Char)
  | _, _, [] => []
  | within, number, line :: rest =>
    let outcome := edited number rest.isEmpty (script.zip within) { line }
    outcome.printed ++ (if isQuiet || outcome.isDeleted then [] else [outcome.line]) ++
      if outcome.isFinal then [] else lines isQuiet script outcome.within (number + 1) rest

def run (isQuiet : Bool) (script : String) (input : List (List Char)) : Option (List (List Char)) :=
  (script? (script.length + 1) script.toList).map fun commands =>
    lines isQuiet commands (commands.map fun _ => false) 1 input

end CodeAtlas.Supervision.Shell.Edit
