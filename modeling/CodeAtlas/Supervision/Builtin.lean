import CodeAtlas.Supervision.Job
import CodeAtlas.Supervision.Shell.Format

/-!
# Commands of the shell itself

Commands that change only the process that does them: its variables, its arguments, what it has
left to do, and what it does about signals.
-/

namespace CodeAtlas.Supervision.Job

open Shell (Command)

def definition (word : String) : String × Option String :=
  let name := word.toList.takeWhile (· != '=')
  if name.length < word.length then
    (String.ofList name, some (String.ofList (word.toList.drop (name.length + 1))))
  else (word, none)

def define (change : Job → String → Job) (words : List String) (job : Job) : Job :=
  words.foldl (fun job word =>
    let (name, value) := definition word
    let job := change job name
    (value.map (job.assign name)).getD job) job

variable (job : Job)

def publish (name : String) : Job :=
  { job with exported := name :: job.exported.filter (· != name) }

def switched (letter : Char) (isOn was : Bool) (letters : List Char) : Bool :=
  if letters.contains letter then isOn else was

/-- Changes options and arguments; `none` if an option is not known. -/
def set? : List String → Job → Option Job
  | [], job => some job
  | "--" :: arguments, job => some { job with scope.arguments := arguments }
  | "-" :: first :: rest, job => some { job with scope.arguments := first :: rest }
  | [single], job =>
    if single = "-" then some job
    else
      match single.toList with
      | sign :: letters =>
        if (sign = '-' ∨ sign = '+') ∧ letters ≠ [] then
          if letters.all "abCefhImnuvx".toList.contains then some (change sign letters job)
          else none
        else some { job with scope.arguments := [single] }
      | [] => some { job with scope.arguments := [""] }
  | first :: second :: rest, job =>
    match first.toList with
    | sign :: letters =>
      if letters = ['o'] ∧ (sign = '-' ∨ sign = '+') then
        match [("errexit", 'e'), ("nounset", 'u'), ("noglob", 'f'), ("xtrace", 'x'),
          ("verbose", 'v'), ("noclobber", 'C'), ("allexport", 'a'), ("monitor", 'm'),
          ("notify", 'b')].lookup second with
        | some letter => set? rest (change sign [letter] job)
        | none => none
      else if (sign = '-' ∨ sign = '+') ∧ letters ≠ [] then
        if letters.all "abCefhImnuvx".toList.contains then
          set? (second :: rest) (change sign letters job)
        else none
      else some { job with scope.arguments := first :: second :: rest }
    | [] => some { job with scope.arguments := first :: second :: rest }
where
  change (sign : Char) (letters : List Char) (job : Job) : Job :=
    { job with
      stopsOnFailure := switched 'e' (sign == '-') job.stopsOnFailure letters
      scope.refusesUnset := switched 'u' (sign == '-') job.scope.refusesUnset letters }

/-- Decides what happens at a signal: the first word is the answer, unless there is no other. -/
def trap (arguments : List String) : Job :=
  let (action, names) : String × List String := match arguments with
    | "--" :: action :: names | action :: names =>
      if names.isEmpty then ("-", [action])
      else if action.toList.all Char.isDigit && !action.isEmpty then ("-", action :: names)
      else (action, names)
    | [] => ("-", [])
  match names.mapM Signal.number? with
  | none => job.complain "trap: bad trap" 1
  | some numbers =>
    let others := job.responses.filter fun (number, _) => !numbers.contains number
    let response : Option Response :=
      if action = "-" then none
      else if action = "" then some .ignore
      else some (.run (Shell.read action))
    let changed := match response with
      | some response => numbers.map fun number => (number, response)
      | none => []
    { job with responses := changed ++ others }.done 0

/-- How many loops a command concerns. -/
def levels? : List String → Option Nat
  | [] => some 1
  | first :: _ => (Text.digitsValue? first.toList).filter (0 < ·)

def unset : List String → Job
  | "-f" :: names =>
    { job with functions := job.functions.filter fun (name, _) => !names.contains name }
  | arguments =>
    let names := if arguments.head? = some "-v" then arguments.tail else arguments
    { job with
      scope.values := job.scope.values.filter fun (name, _) => !names.contains name
      exported := job.exported.filter fun name => !names.contains name }

def askedStatus? : List String → Option Nat
  | [] => some job.lastStatus
  | first :: _ => Text.digitsValue? first.toList

/-- Does a command of the shell that only its process notices. -/
def builtin? (name : String) (arguments : List String) : Option Job :=
  match name with
  | ":" | "true" => some (job.done 0)
  | "false" => some (job.done 1)
  | "echo" => some (job.say (Shell.Format.echo arguments) 0)
  | "printf" =>
    let (bytes, status) := Shell.Format.printf arguments
    some (job.say bytes status)
  | "exit" =>
    some (job.leave ((job.askedStatus? arguments).getD 2))
  | "return" =>
    match job.askedStatus? arguments with
    | some status => some (job.leaveCall status)
    | none => some (job.leave 2)
  | "break" =>
    match levels? arguments with
    | some levels => some ((job.done 0).breakLoops levels)
    | none => some (job.leave 2)
  | "continue" =>
    match levels? arguments with
    | some levels => some ((job.done 0).continueLoop levels)
    | none => some (job.leave 2)
  | "shift" =>
    match (arguments.head?.map fun text => Text.digitsValue? text.toList).getD (some 1) with
    | some n =>
      if n ≤ job.scope.arguments.length then
        some ({ job with scope.arguments := job.scope.arguments.drop n }.done 0)
      else some (job.leave 2)
    | none => some (job.leave 2)
  | "set" =>
    match set? arguments job with
    | some job => some (job.done 0)
    | none => some (job.leave 2)
  | "export" => some ((job.define publish arguments).done 0)
  | "readonly" =>
    let names := arguments.map fun word => (definition word).1
    let job := job.define (fun job _ => job) arguments
    some ({ job with fixed := names ++ job.fixed }.done 0)
  | "local" =>
    if job.frames.any isCall then some ((job.define localize arguments).done 0)
    else some (job.leave 2)
  | "unset" => some ((job.unset arguments).done 0)
  | "alias" | "hash" | "jobs" | "ulimit" | "umask" => some (job.done 0)
  | "trap" => some (job.trap arguments)
  | "eval" =>
    let command := Shell.read (" ".intercalate arguments)
    some { job with scope.status := 0, frames := .run command :: job.frames }
  | "read" =>
    let isRaw := arguments.head? = some "-r"
    let names := if isRaw then arguments.tail else arguments
    if names.isEmpty then some (job.complain "read: arg count" 2)
    else some { job with activity := .reading names isRaw }
  | _ => none

/-- Commands whose assignments stay, and whose failures end a script. -/
def isSpecial (name : String) : Bool :=
  [":", ".", "break", "continue", "eval", "exec", "exit", "export", "readonly", "return", "set",
    "shift", "times", "trap", "unset"].contains name

def nanoseconds? (text : String) : Option Nat := do
  let whole := text.toList.takeWhile Char.isDigit
  let (fraction, rest) : List Char × List Char := match text.toList.drop whole.length with
    | '.' :: rest => (rest.takeWhile Char.isDigit, rest.dropWhile Char.isDigit)
    | rest => ([], rest)
  let unit ← match rest with
    | [] | ['s'] => some 1
    | ['m'] => some 60
    | ['h'] => some 3600
    | ['d'] => some 86400
    | _ => none
  let places := fraction.take 9
  let digits := whole ++ places ++ List.replicate (9 - places.length) '0'
  if whole.isEmpty && fraction.isEmpty then none
  else some ((← Text.digitsValue? digits) * unit)

end CodeAtlas.Supervision.Job
