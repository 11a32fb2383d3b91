import CodeAtlas.Supervision.Family

/-!
# Execution of commands

`Family.start` starts a command of a job, and `Family.resume` goes on with what a job has left to
do. A command that holds captures is started when the output of each of them is there.
-/

namespace CodeAtlas.Supervision

open Shell (Command Piece Redirection Scope Word)

/-- Something with a command in it whose output belongs there. -/
abbrev Hole (α : Type) := Command × (String → α)

def firstHole? {α : Type} (hole? : α → Option (Hole α)) : List α → Option (Hole (List α))
  | [] => none
  | first :: rest =>
    match hole? first with
    | some (command, fill) => some (command, fun text => fill text :: rest)
    | none => (firstHole? hole? rest).map fun (command, fill) =>
      (command, fun text => first :: fill text)

mutual

/-- The first capture in a part of a word. -/
def pieceHole? : Piece → Option (Hole Piece)
  | .capture command quoted => some (command, fun text => .captured text quoted)
  | .parameter name form argument quoted =>
    (wordHole? argument).map fun (command, fill) =>
      (command, fun text => .parameter name form (fill text) quoted)
  | .arithmetic sum quoted =>
    (wordHole? sum).map fun (command, fill) => (command, fun text => .arithmetic (fill text) quoted)
  | .literal _ _ | .captured _ _ => none

def wordHole? : List Piece → Option (Hole (List Piece))
  | [] => none
  | piece :: rest =>
    match pieceHole? piece with
    | some (command, fill) => some (command, fun text => fill text :: rest)
    | none => (wordHole? rest).map fun (command, fill) =>
      (command, fun text => piece :: fill text)

end

def redirectionHole? : List Redirection → Option (Hole (List Redirection)) :=
  firstHole? fun (number, direction, word) =>
    (wordHole? word).map fun (command, fill) =>
      (command, fun text => (number, direction, fill text))

def commandHole? : Command → Option (Hole Command)
  | .simple assignments words redirections =>
    match firstHole? wordHole? words, redirectionHole? redirections,
      firstHole? (fun (name, word) => (wordHole? word).map fun (command, fill) =>
        (command, fun text => (name, fill text))) assignments with
    | some (command, fill), _, _ =>
      some (command, fun text => .simple assignments (fill text) redirections)
    | none, some (command, fill), _ =>
      some (command, fun text => .simple assignments words (fill text))
    | none, none, some (command, fill) =>
      some (command, fun text => .simple (fill text) words redirections)
    | none, none, none => none
  | .redirected inner redirections =>
    (redirectionHole? redirections).map fun (command, fill) =>
      (command, fun text => .redirected inner (fill text))
  | .each name words body =>
    (firstHole? wordHole? words).map fun (command, fill) =>
      (command, fun text => .each name (fill text) body)
  | .select word cases =>
    (wordHole? word).map fun (command, fill) => (command, fun text => .select (fill text) cases)
  | _ => none

def holdsOutput (word : Word) : Bool :=
  word.any fun piece =>
    match piece with
    | .captured _ _ => true
    | _ => false

namespace Family

variable (family : Family) (job : Job) (arguments : List String) (name : String)

/-- The job does a script of its own: it has the exported variables and no functions. -/
def asShell (script : String) (words : List String) : Job :=
  { job with
    frames := [.run (Shell.read script)]
    activity := .running
    scope := {
      values := ("PPID", toString (job.parent.getD (job.number - 1))) ::
        job.scope.values.filter fun (name, _) => name != "PPID" && job.exported.contains name
      arguments := words.tail
      name := words.headD "sh"
      number := job.number }
    functions := []
    responses := Job.kept job.responses
    asked := []
    isTested := false
    isReplaced := false
    stopsOnFailure := false }

def shell : Family :=
  let run (change : Job → Job) : Family :=
    if job.isReplaced then family.put (change job)
    else
      let (family, number) := family.spawn job .skip fun job => change job
      family.put { job with activity := .waiting [number] false true }
  match arguments with
  | "-c" :: script :: words => run fun job => asShell job script words
  | "-ec" :: script :: words | "-e" :: "-c" :: script :: words =>
    run fun job => { asShell job script words with stopsOnFailure := true }
  | [] => run fun job => { asShell job "" [] with frames := [.script []] }
  | path :: words =>
    match (family.seenBy job).read path with
    | .ok content => run fun job => asShell job ((text? content).getD "") (path :: words)
    | .error _ => family.put (job.done 2)

def contents (paths : List String) : Bytes × Bool :=
  paths.foldl (fun (bytes, isWhole) path =>
    match (family.seenBy job).read path with
    | .ok content => (bytes ++ content, isWhole)
    | .error _ => (bytes, false)) ([], true)

def catenate : Family :=
  let paths := (Shell.Tool.options arguments).2
  if paths.isEmpty || paths == ["-"] then family.put { job with activity := .copying [] }
  else
    let (found, isWhole) := family.contents job paths
    family.put (job.say found (if isWhole then 0 else 1))

/-- Does a tool that makes something of its input or of files. -/
def digest (paths : List String)
    (most : Option Nat) (finish : Bytes → Bool → Option (Bytes × Nat)) : Family :=
  if paths.isEmpty || paths == ["-"] then
    family.put { job with activity := .gathering [] most finish }
  else
    let (found, isWhole) := family.contents job paths
    match finish found true with
    | some (bytes, status) =>
      let label := octets (" " ++ paths.headD "" ++ "\n")
      let bytes := if name = "wc" then bytes.dropLast ++ label else bytes
      let missing := if name = "grep" || name = "sed" || name = "sort" then 2 else 1
      if isWhole then family.put (job.say bytes status)
      else family.put (job.say (if found.isEmpty then [] else bytes) missing)
    | none => family.put (job.done 1)

def copyTo : Family :=
  let (letters, paths) := Shell.Tool.options arguments
  let (family, streams) := paths.foldl (fun (family, streams) path =>
    match openToWrite? family job path (letters.contains 'a') with
    | some (family, stream) => (family, stream :: streams)
    | none => (family, streams)) (family, [])
  family.put { job with activity := .copying streams }

/-- Changes the files that a job sees; a change that fails has the status 1. -/
def change (paths : List String)
    (make : Files.FileTree Bytes → String → Except Files.Fault (Files.FileTree Bytes)) : Family :=
  let (tree, status) := paths.foldl (fun (tree, status) path =>
    match make tree path with
    | .ok tree => (tree, status)
    | .error _ => (tree, 1)) (family.seenBy job, 0)
  { family with tree := { tree with current := family.tree.current } }.put (job.done status)

def removeAll (isDeep isForced : Bool) (tree : Files.FileTree Bytes) (path : String) :
    Except Files.Fault (Files.FileTree Bytes) :=
  match tree.find path with
  | .ok (.found location .directory) =>
    if isDeep then
      .ok { tree with entries := tree.entries.filter fun (other, _) => !location.isPrefixOf other }
    else .error .isADirectory
  | .ok (.found location _) => .ok (tree.erase location)
  | .ok (.missing _ _) => if isForced then .ok tree else .error .notFound
  | .error fault => if isForced then .ok tree else .error fault

def kill : Family :=
  let (number, targets) : Option Nat × List String := match arguments with
    | "-s" :: name :: rest => (Signal.number? name, rest)
    | "--" :: rest => (some Signal.terminate, rest)
    | first :: rest =>
      if first.startsWith "-" then (Signal.number? (String.ofList first.toList.tail), rest)
      else (some Signal.terminate, arguments)
    | [] => (none, [])
  match number with
  | none => family.put (job.done 2)
  | some n =>
    let living (text : String) : Option Nat := do
      let number ← Text.digitsValue? text.toList
      if (← family.job? number).isAlive then some number else none
    let reached := targets.filterMap living
    let status := if targets.isEmpty then 2 else if reached.length = targets.length then 0 else 1
    let family := family.put (job.done status)
    { family with
      jobs := family.jobs.map fun job =>
        if reached.contains job.number then job.signal n else job }

/-- Waits for processes by number, or for all that the job has started. -/
def wait : Family :=
  let children := (family.jobs.filter (·.parent == some job.number)).map (·.number)
  match arguments with
  | [] => family.put { job with activity := .waiting children true false }
  | _ =>
    let asked := arguments.filterMap fun text => Text.digitsValue? text.toList
    if asked.length = arguments.length ∧ asked.all children.contains then
      family.put { job with activity := .waiting asked true true }
    else family.put (job.done 127)

def changeDirectory : Family :=
  let target := match arguments with
    | [] => (job.scope.get? "HOME").getD "/"
    | "-" :: _ => (job.scope.get? "OLDPWD").getD ""
    | "--" :: path :: _ | path :: _ => path
  let tree := family.seenBy job
  match tree.canonical target, tree.isDirectory target with
  | .ok location, true =>
    let moved := { job with directory := location }
    let moved := moved.assign "OLDPWD" (Files.pathOf job.directory)
    let moved := moved.assign "PWD" (Files.pathOf location)
    if arguments.head? = some "-" then
      family.put (moved.say (octets (Files.pathOf location) ++ [10]) 0)
    else family.put (moved.done 0)
  | _, _ => family.put (job.complain s!"cd: can't cd to {target}" 2)

def list : Family :=
  let paths := (Shell.Tool.options arguments).2
  let tree := family.seenBy job
  let listed := (if paths.isEmpty then ["."] else paths).map fun path =>
    match tree.find path with
    | .ok (.found location .directory) =>
      some ((family.namesIn location).filter fun name => !name.startsWith ".")
    | .ok (.found _ _) => some [path]
    | _ => none
  let names := (listed.filterMap id).flatten
  family.put (job.say (Shell.Tool.unlines (names.map octets))
    (if listed.all Option.isSome then 0 else 2))

def isBuiltin : Bool :=
  (job.builtin? name []).isSome ||
    ["cd", "command", "exec", "kill", "pwd", "test", "type", "wait", "[", "."].contains name

def locate (names : List String) : Family :=
  let place (name : String) : Option String :=
    if (job.functions.lookup name).isSome || isBuiltin job name then some name
    else if Shell.Tool.names.contains name then some ("/usr/bin/" ++ name)
    else none
  let places := names.filterMap place
  family.put (job.say (Shell.Tool.unlines (places.map octets))
    (if places.length = names.length then 0 else 127))

def locatePrograms (names : List String) : Family :=
  let places := (names.filter Shell.Tool.names.contains).map ("/usr/bin/" ++ ·)
  family.put (job.say (Shell.Tool.unlines (places.map octets))
    (if places.length = names.length then 0 else 1))

def moveFile (isKept : Bool) : Family :=
  let tree := family.seenBy job
  match (Shell.Tool.options arguments).2 with
  | [source, target] =>
    let name := (source.splitOn "/").getLastD source
    let target := if tree.isDirectory target then target ++ "/" ++ name else target
    let changed : Option (Files.FileTree Bytes) := do
      let content ← (tree.read source).toOption
      let location ← (tree.canonical source).toOption
      let written ← (tree.write target content).toOption
      return if isKept then written else written.erase location
    match changed with
    | some tree =>
      { family with tree := { tree with current := family.tree.current } }.put (job.done 0)
    | none => family.put (job.done 1)
  | _ => family.put (job.done 1)

def wordsOf (texts : List String) : List Word := texts.map fun text => [Piece.literal text true]

/-- Does a command for so long at most, and then sends it a signal. -/
def limit (signal : Nat) : List String → Family
  | time :: name :: arguments =>
    match Job.nanoseconds? time with
    | some time =>
      let (family, number) :=
        family.spawn job (.simple [] (wordsOf ("exec" :: name :: arguments)) []) id
      let activity := if time = 0 then .waiting [number] false true
        else .limiting number (family.clock + time) signal
      family.put { job with activity }
    | none => family.put (job.done 125)
  | _ => family.put (job.done 125)

/-- Does a command with words from its input behind its own. -/
def extend : Family :=
  let (size, words) : Option Nat × List String := match arguments with
    | "-n" :: size :: words => (Shell.Tool.amount? size, words)
    | first :: words =>
      if first.startsWith "-n" then
        (Shell.Tool.amount? (String.ofList (first.toList.drop 2)), words)
      else (none, arguments)
    | [] => (none, [])
  let words := if words.isEmpty then ["echo"] else words
  let rec parts : (most : Nat) → List String → List (List String)
    | 0, texts => [texts]
    | most + 1, texts =>
      match size with
      | some size =>
        if texts.length ≤ size then [texts]
        else texts.take size :: parts most (texts.drop size)
      | none => [texts]
  let command (text : String) : Command :=
    let texts := (text.toList.map fun c => if c.isWhitespace then ' ' else c)
    let texts := (String.ofList texts).splitOn " " |>.filter (· != "")
    .sequence ((parts texts.length texts).map fun part => .simple [] (wordsOf (words ++ part)) [])
  let (family, pipe) := family.addPipe { isBounded := false }
  let (family, number) :=
    family.spawn job (.simple [] (wordsOf ["cat"]) []) (·.withStream 1 (.sink pipe))
  family.put { job with activity := .collecting pipe number command }

def describe (names : List String) : Family :=
  let kind (name : String) : String × Nat :=
    if (job.functions.lookup name).isSome then (s!"{name} is a shell function", 0)
    else if Job.isSpecial name then (s!"{name} is a special shell builtin", 0)
    else if isBuiltin job name then (s!"{name} is a shell builtin", 0)
    else if Shell.Tool.names.contains name then (s!"{name} is /usr/bin/{name}", 0)
    else (s!"{name}: not found", 127)
  let kinds := names.map kind
  family.put (job.say (Shell.Tool.unlines (kinds.map fun (line, _) => octets line))
    ((kinds.map Prod.snd).foldl max 0))

def execute (arguments : List String) : Family :=
  match job.builtin? name arguments, Shell.Tool.refusal? name, arguments with
  | some job, _, _ => family.put job
  | none, some status, [] => family.put (job.done status)
  | none, _, _ =>
    match name with
    | "test" =>
      family.put (job.done (Shell.Condition.status (family.fileTest job) arguments))
    | "[" =>
      if arguments.getLast? = some "]" then
        family.put (job.done (Shell.Condition.status (family.fileTest job) arguments.dropLast))
      else family.put (job.complain "[: missing ]" 2)
    | "cd" => family.changeDirectory job arguments
    | "pwd" => family.put (job.say (octets (Files.pathOf job.directory) ++ [10]) 0)
    | "kill" => family.kill job arguments
    | "wait" => family.wait job arguments
    | "." =>
      match (family.seenBy job).read (arguments.headD "") with
      | .ok content =>
        let command := Shell.read ((text? content).getD "")
        family.put { job with scope.status := 0, frames := .run command :: job.frames }
      | .error _ => family.put (job.leave 2)
    | "sleep" =>
      match arguments.mapM Job.nanoseconds? with
      | some (first :: rest) =>
        family.put { job with activity := .sleeping (rest.foldl (· + ·) (family.clock + first)) }
      | _ => family.put (job.done 1)
    | "cat" => family.catenate job arguments
    | "tee" => family.copyTo job arguments
    | "head" =>
      let (options, paths) := Shell.Tool.divided name arguments
      family.digest job name paths (Shell.Tool.octetsAsked? options) fun input isComplete =>
        (Shell.Tool.head? options input isComplete).map (·, 0)
    | "dd" =>
      let most := Shell.Tool.copied? arguments
      let paths := (Shell.Tool.operand? "if" arguments).toList
      family.digest job name paths most fun input isComplete =>
        if isComplete || most.any (· ≤ input.length) then
          some ((most.map input.take).getD input, 0)
        else none
    | "mv" => family.moveFile job arguments false
    | "cp" => family.moveFile job arguments true
    | "which" => family.locatePrograms job arguments
    | "yes" =>
      let line := octets (if arguments.isEmpty then "y" else " ".intercalate arguments) ++ [10]
      family.put { job with activity := .repeating line }
    | "sh" | "dash" | "/bin/sh" => family.shell job arguments
    | "ls" => family.list job arguments
    | "mkdir" =>
      let (letters, paths) := Shell.Tool.options arguments
      if letters.contains 'p' then family.change job paths fun tree path => tree.makeDirectories path
      else family.change job paths fun tree path => tree.makeDirectory path
    | "rm" =>
      let (letters, paths) := Shell.Tool.options arguments
      family.change job paths
        (removeAll (letters.contains 'r' || letters.contains 'R') (letters.contains 'f'))
    | "rmdir" =>
      family.change job arguments fun tree path =>
        match tree.find path with
        | .ok (.found location .directory) =>
          if (tree.below location).isEmpty then .ok (tree.erase location) else .error .exists_
        | .ok (.found _ _) => .error .notADirectory
        | .ok (.missing _ _) => .error .notFound
        | .error fault => .error fault
    | "touch" =>
      family.change job arguments fun tree path =>
        if tree.exists_ path then .ok tree else tree.write path []
    | _ =>
      let (options, paths) := Shell.Tool.divided name arguments
      match Shell.Tool.immediate? name arguments, Shell.Tool.filter? name options with
      | some (bytes, status), _ => family.put (job.say bytes status)
      | none, some finish =>
        family.digest job name paths none fun input isComplete =>
          if isComplete then some (finish input) else none
      | none, none =>
        if name.toList.contains '/' && (family.seenBy job).exists_ name then
          family.put (job.complain s!"{name}: Permission denied" 126)
        else family.put (job.complain s!"{name}: not found" 127)

def perform (arguments : List String) : Family :=
  match Shell.Tool.program? name with
  | some "echo" => family.put (job.say (Shell.Format.plainEcho arguments) 0)
  | some "xargs" => family.extend job arguments
  | some "timeout" =>
    match arguments with
    | "-s" :: signal :: arguments =>
      match Signal.number? signal with
      | some signal => family.limit job signal arguments
      | none => family.put (job.done 125)
    | _ => family.limit job Signal.terminate arguments
  | some name => family.execute job name arguments
  | none =>
    let subject := if job.isReplaced then "exec: " ++ name else name
    if name.toList.contains '/' && (family.seenBy job).exists_ name then
      family.put (job.complain (subject ++ ": Permission denied") 126)
    else family.put (job.complain (subject ++ ": not found") 127)

/-- Does a program with other variables, or shows the variables that programs have. -/
def performWith : Family :=
  let isDefinition (word : String) : Bool := word.toList.contains '='
  let words := arguments.dropWhile isDefinition
  let names := (arguments.takeWhile isDefinition).map fun word => (Job.definition word).1
  let saved := names.map fun name => (name, job.scope.values.lookup name)
  let job := { job with frames := .values saved job.exported :: job.frames }
  let job := job.define Job.publish (arguments.takeWhile isDefinition)
  match words with
  | name :: arguments => family.perform job name arguments
  | [] =>
    let lines := (job.scope.values.filter fun (name, _) => job.exported.contains name).map
      fun (name, value) => octets s!"{name}={value}"
    family.put (job.say (Shell.Tool.unlines lines) 0)

def performAny (arguments : List String) : Family :=
  match Shell.Tool.program? name, arguments with
  | some "env", arguments => family.performWith job arguments
  | some "nice", "-n" :: _ :: name :: arguments => family.perform job name arguments
  | some "nice", name :: arguments | some "nohup", name :: arguments
  | some "setsid", name :: arguments => family.perform job name arguments
  | _, arguments => family.perform job name arguments

/-- Does a command that words name: one that has a job only to start others, a function, or any
other. -/
def invoke : (name : String) → (arguments : List String) → Family
  | "exec", ["printf"] | "exec", ["kill"] => family.put (job.replaced.done 1)
  | "exec", name :: arguments => family.performAny job.replaced name arguments
  | "exec", [] => family.put (job.done 0)
  | "command", "-v" :: names => family.locate job names
  | "type", names => family.describe job names
  | "command", name :: arguments => family.execute job name arguments
  | name, arguments =>
    match job.functions.lookup name with
    | some body =>
      family.put { job with
        frames := .run body :: .call job.scope.arguments [] :: job.frames
        scope.arguments := arguments }
    | none =>
      let isProgram := ["timeout", "xargs", "env", "nice", "nohup", "setsid"].contains name
      if isProgram || name.toList.contains '/' then family.performAny job name arguments
      else family.execute job name arguments

def startSimple (assignments : List (String × Word))
    (words : List Word) (redirections : List Redirection) : Family :=
  match Shell.expandWords? (family.namesSeen job) job.scope words with
  | none => family.put (job.leave 2)
  | some (scope, texts) =>
    let job := { job with scope }
    let name := texts.headD ""
    let staying := texts.isEmpty || Job.isSpecial name
    let saved := assignments.map fun (name, _) => (name, scope.values.lookup name)
    let framed := if texts == ["exec"] || (texts.isEmpty && redirections.isEmpty) then job
      else { job with
        frames := (if staying then [] else [.values saved job.exported]) ++
          (if redirections.isEmpty then [] else [.streams job.streams]) ++ job.frames }
    if assignments.any fun (name, _) => job.fixed.contains name then family.put (job.leave 2)
    else match redirectAll redirections (family, framed) with
    | .error .expansion => family.put (job.leave 2)
    | .error (.opening message) =>
      family.put (if Job.isSpecial name then job.leave 2 else job.complain message 2)
    | .ok (family, job) =>
      match Shell.assignAll? job.scope assignments with
      | none => family.put (job.leave 2)
      | some scope =>
        let job := { job with scope }
        let job := if staying then job
          else assignments.foldl (fun job (name, _) => job.publish name) job
        match texts with
        | [] =>
          family.put (job.done (if assignments.any (holdsOutput ·.2) then job.captureStatus else 0))
        | name :: arguments => family.invoke job name arguments

/-- Starts the stages of a pipeline, of which the first reads a stream. -/
def startStages (job : Job) : List Command → Stream → Family → Family × List Nat
  | [], _, family => (family, [])
  | [last], input, family =>
    let (family, number) := family.spawn job last (·.withStream 0 input)
    (family, [number])
  | stage :: rest, input, family =>
    let (family, pipe) := family.addPipe {}
    let (family, number) := family.spawn job stage fun job =>
      (job.withStream 0 input).withStream 1 (.sink pipe)
    let (family, others) := startStages job rest (.source pipe) family
    (family, number :: others)

def selected? (scope : Scope) (text : List Char) : List (List Word × Command) → Option Command
  | [] => none
  | (patterns, command) :: rest =>
    let fits := patterns.any fun pattern =>
      match Shell.expandPieces? false scope pattern with
      | some (_, spans) => Shell.globMatches (Shell.marks spans) text
      | none => false
    if fits then some command else selected? scope text rest

def start (command : Command) : Family :=
  match commandHole? command with
  | some (inner, fill) =>
    let (family, pipe) := family.addPipe { isBounded := false }
    let (family, number) := family.spawn job inner (·.withStream 1 (.sink pipe))
    family.put { job with activity := .collecting pipe number fill }
  | none =>
    let go (frames : List Frame) : Family := family.put { job with frames := frames ++ job.frames }
    match command with
    | .simple assignments words redirections =>
      family.startSimple job assignments words redirections
    | .redirected inner redirections =>
      let framed := { job with frames := .run inner :: .streams job.streams :: job.frames }
      match redirectAll redirections (family, framed) with
      | .error .expansion => family.put (job.leave 2)
      | .error (.opening message) => family.put (job.complain message 2)
      | .ok (family, job) => family.put job
    | .pipeline stages =>
      let (family, numbers) := startStages job stages (job.stream 0) family
      family.put { job with activity := .waiting numbers false true }
    | .sequence commands => go (commands.map Frame.run)
    | .background inner =>
      let (family, number) := family.spawn job inner (·.withStream 0 .nowhere)
      family.put ({ job with scope.background := some number }.done 0)
    | .subshell inner =>
      let (family, number) := family.spawn job inner id
      family.put { job with activity := .waiting [number] false true }
    | .loop whileTrue condition body => go [.run condition, .test whileTrue condition body 0]
    | .each name words body =>
      match Shell.expandWords? (family.namesSeen job) job.scope words with
      | none => family.put (job.leave 2)
      | some (scope, []) => family.put { job with scope := { scope with status := 0 } }
      | some (scope, first :: rest) =>
        let others := rest.map fun text => [Piece.literal text true]
        let next := if others.isEmpty then Command.skip else .each name others body
        family.put { job with
          scope := scope.set name first
          frames := .run body :: .again next :: job.frames }
    | .choose condition yes no => go [.run condition, .branch yes no]
    | .select word cases =>
      match Shell.expandText? job.scope word with
      | none => family.put (job.leave 2)
      | some (scope, text) =>
        let job := { job with scope }
        match selected? scope text.toList cases with
        | some command => family.put (job.goOn command)
        | none => family.put { job with scope.status := 0 }
    | .both first second => go [.run first, .onSuccess second]
    | .either first second => go [.run first, .onFailure second]
    | .invert inner => go [.run inner, .invert]
    | .define name body =>
      family.put ({ job with
        functions := (name, body) :: job.functions.filter (·.1 != name) }.done 0)

/-- Goes on with what a job has left to do. -/
def resume : Family :=
  match job.asked, job.frames with
  | number :: others, frames =>
    let job := { job with asked := others }
    match job.responses.lookup number with
    | some (.run command) =>
      family.put { job with frames := .run command :: .status job.scope.status :: frames }
    | _ => family.put job
  | [], [] => family.put (job.leave job.scope.status)
  | [], frame :: frames =>
    let job := { job with frames }
    let succeeded := job.scope.status == 0
    match frame with
    | .run command => family.start job command
    | .again (.loop whileTrue condition body) =>
      family.put { job with
        frames := .run condition :: .test whileTrue condition body job.scope.status :: frames }
    | .again loop => family.start job loop
    | .test whileTrue condition body last =>
      if succeeded == whileTrue then
        family.put { job with
          frames := .run body :: .again (.loop whileTrue condition body) :: frames }
      else family.put { job with scope.status := last }
    | .branch yes no =>
      if succeeded then family.put { job with frames := .run yes :: frames }
      else family.put (job.goOn no)
    | .onSuccess command => if succeeded then family.start job command else family.put job
    | .onFailure command => if succeeded then family.put job else family.start job command
    | .invert => family.put { job with scope.status := if succeeded then 1 else 0 }
    | .streams _ | .values _ _ | .call _ _ => family.put (job.undo frame)
    | .status number => family.put { job with scope.status := number }
    | .leave status => family.put (job.finish (.exit status))
    | .script text =>
      match Shell.readFirst ((text? text).getD "") with
      | .command commands rest =>
        family.put { job with frames := commands.map Frame.run ++ .script (octets rest) :: frames }
      | .unfinished => family.put { job with activity := .fetching text }
      | .unreadable => family.put (job.leave 2)

end Family

end CodeAtlas.Supervision
