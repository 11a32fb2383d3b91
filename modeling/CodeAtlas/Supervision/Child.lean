import CodeAtlas.Server.Provider
import CodeAtlas.Supervision.Progress

/-!
# Processes of servers

`launch` starts the program of a server in a workspace, and `Child.stop` ends it: it waits, then
asks the process to terminate, then kills it, and each step is taken only if the one before was
not enough. `stop_reaps` says that the process has ended whenever `stop` returns.
-/

namespace CodeAtlas.Supervision

open Client (Error)
open Files (Fault FileTree Location)
open Shell (Word)
open Time (Duration)

/-- What a process can be started on: files, and the programs of the search path. -/
structure Host where
  tree : FileTree Bytes
  programs : List String

namespace Host

def searchPath : List Location := [["bin"], ["usr", "bin"]]

/-- The places that every system has, beside those of programs. -/
def systemPlaces : List (Location × Files.Entry Bytes) :=
  let directories : List Location :=
    [["usr"], ["lib"], ["sbin"], ["etc"], ["dev"], ["tmp"], ["home"], ["root"], ["var"], ["proc"],
      ["sys"], ["opt"], ["usr", "lib"], ["usr", "local"], ["usr", "share"]]
  let files : List Location := [["etc", "passwd"], ["etc", "hosts"], ["dev", "null"]]
  (directories ++ searchPath).map (·, .directory) ++ files.map (·, .file [])

def usual (tree : FileTree Bytes) (programs : List String) : Host :=
  let places := searchPath.flatMap fun directory =>
    programs.map fun name => (directory ++ [.text name], Files.Entry.file [])
  { programs, tree := { tree with entries := tree.entries ++ places ++ systemPlaces } }

def isProgram (host : Host) (location : Location) : Bool :=
  searchPath.contains location.dropLast &&
    location.getLast?.any fun name => host.programs.contains name.shown

/-- Why a program cannot be run. A name with a slash is a path, seen from the workspace; a name
without one is looked for among the programs, where dots are the names of directories. No other
file may be run. -/
def fault? (host : Host) (workspace command : String) : Option Fault :=
  if command.toList.contains '\x00' then some .nulInData
  else if command.toList.contains '/' then
    let path := if Files.isAbsolute command then command else workspace ++ "/" ++ command
    match host.tree.find path with
    | .error fault => some fault
    | .ok (.missing _ _) => some .notFound
    | .ok (.found location (.file _)) =>
      if host.isProgram location then none else some .permissionDenied
    | .ok _ => some .permissionDenied
  else if command = "." ∨ command = ".." then some .permissionDenied
  else if host.programs.contains command then none
  else if Files.nameLimit < octetCount command then some .nameTooLong
  else some .notFound

def check (host : Host) (provider : Server.Provider) (workspace : String) : Except Error Unit :=
  if !host.tree.isDirectory workspace then
    .error (.invalidPath s!"workspace '{workspace}' is not a directory")
  else
    match host.fault? workspace provider.command with
    | none => .ok ()
    | some .notFound => .error (.notFound provider.command provider.hint)
    | some fault => .error (.spawnFailed provider.command fault)

end Host

inductive Outcome where
  | exited (status : Status)
  | terminated (status : Status)
  | killed
deriving DecidableEq

/-- A process that was started, with all that came from it. -/
structure Child where
  command : String
  family : Family
  hasOutput : Bool
  hasInput : Bool
  isReaped : Bool := false

/-- The first process of a program: a shell with a script, or a program in its place. -/
def programOf (provider : Server.Provider) (job : Job) : Job :=
  let word (text : String) : Word := [.literal text true]
  match (provider.command.splitOn "/").getLastD "", provider.arguments with
  | "sh", "-c" :: script :: words =>
    Family.asShell job script (if words.isEmpty then [provider.command] else words)
  | "sh", [] => { job with frames := [.script []] }
  | command, arguments =>
    { job with frames := [.run (.simple [] ((["exec", command] ++ arguments).map word) [])] }

/-- Starts the program of a server in a workspace. A server that is reached by a socket has no
streams. -/
def launch (host : Host) (provider : Server.Provider) (workspace : String) :
    Except Error Child := do
  host.check provider workspace
  let isPiped := provider.transport == .stdio
  let directory := match host.tree.canonical workspace with
    | .ok location => location
    | .error _ => host.tree.current
  let job : Job := {
    number := Family.firstNumber
    directory
    frames := []
    exported := ["PWD"]
    scope := {
      name := provider.command
      number := Family.firstNumber
      values := [("PWD", Files.pathOf directory)] }
    streams := (if isPiped then [(0, .source Family.inputPipe), (1, .sink Family.outputPipe)]
      else [(0, .nowhere), (1, .nowhere)]) ++ [(2, .nowhere)] }
  let family : Family := {
    jobs := [programOf provider job]
    pipes := [(Family.inputPipe, { isBounded := false }), (Family.outputPipe, {})]
    tree := host.tree
    nextJob := Family.firstNumber + 1
    nextPipe := 2
    isInputClosed := !isPiped }
  return { command := provider.command, family, hasOutput := isPiped, hasInput := isPiped }

namespace Child

variable (child : Child) (time : Duration)

/-- Whether the process has a number: until its end has been seen. -/
def hasId : Bool := !child.isReaped

/-- Takes the streams of the process, which can be done once. -/
def takeStreams : Except Error Unit × Child :=
  let rest := { child with hasOutput := false, hasInput := false }
  if child.hasOutput && child.hasInput then (.ok (), rest)
  else
    (.error (.unsupportedTransport s!"{child.command} was not started with piped stdio"), rest)

def sleep : Child :=
  { child with family := child.family.run (fun _ => false) time }

/-- Waits some time for the end of the process. An input that nobody took is closed first. -/
def wait : Option Status × Child :=
  let family := { child.family with
    isInputClosed := child.family.isInputClosed || child.hasInput }
  let family := family.run (·.status?.isSome) time
  (family.status?,
    { child with family, hasInput := false, isReaped := child.isReaped || family.status?.isSome })

def signal (child : Child) (number : Nat) : Child :=
  match child.family.job? Family.firstNumber with
  | some job => { child with family := child.family.put (job.signal number) }
  | none => child

def kill (child : Child) : Child :=
  { child.signal Signal.kill with isReaped := true }

/-- Stops the process: waits for its end, asks for it, and at last forces it. -/
def stop (graceful terminate : Duration) : Outcome × Child :=
  match child.wait graceful with
  | (some status, child) => (.exited status, child)
  | (none, child) =>
    match (child.signal Signal.terminate).wait terminate with
    | (some status, child) => (.terminated status, child)
    | (none, child) => (.killed, child.kill)

def write (bytes : Bytes) : Child :=
  let pipe := child.family.pipe Family.inputPipe
  { child with family := child.family.setPipe Family.inputPipe (pipe.push bytes) }

def patience : Duration := .ofSeconds 60

def isDrained (family : Family) : Bool := !family.hasWriter Family.outputPipe

def readLine : Bytes × Child :=
  let family := child.family.run (fun family =>
    (family.pipe Family.outputPipe).chunks.any (·.contains 10) || isDrained family) patience
  let pipe := family.pipe Family.outputPipe
  let line := pipe.content.takeWhile (· != 10)
  let rest := pipe.content.drop (line.length + 1)
  (line, { child with family := family.setPipe Family.outputPipe (pipe.withContent rest) })

def closeAndRead : Bytes × Child :=
  let pipe := child.family.pipe Family.outputPipe
  let family := child.family.setPipe Family.outputPipe { pipe with isBounded := false }
  let family := { family with isInputClosed := true }.run isDrained patience
  let content := (family.pipe Family.outputPipe).content
  (content, { child with family := family.setPipe Family.outputPipe {} })

/-- The end of a process is seen exactly when waiting for it gives a status or did before. -/
theorem isReaped_wait :
    (child.wait time).2.isReaped = (child.isReaped || (child.wait time).1.isSome) := rfl

/-- When a process was stopped its end has been seen. -/
theorem stop_reaps (graceful terminate : Duration) :
    (child.stop graceful terminate).2.isReaped := by
  unfold stop
  split
  · next status after h =>
    have := isReaped_wait child graceful
    rw [h] at this
    simpa using this
  · next first h =>
    split
    · next status after h' =>
      have := isReaped_wait (first.signal Signal.terminate) terminate
      rw [h'] at this
      simpa using this
    · simp [kill]

end Child

end CodeAtlas.Supervision
