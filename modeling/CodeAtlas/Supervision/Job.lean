import CodeAtlas.Files.FileTree
import CodeAtlas.Json.Value
import CodeAtlas.Supervision.Shell.Expansion

/-!
# Jobs

A job is a process that works off the commands of a script. What is left to do behind the running
command is a list of frames. A signal ends a job, unless it is ignored or answered by a command,
which then runs behind the command that is running.
-/

namespace CodeAtlas.Supervision

open Json (Value)

/-- How a process ended: with a code of its own, or by a signal. -/
structure Status where
  code : Option Nat
  signal : Option Nat
deriving DecidableEq

namespace Status

def exit (code : Nat) : Status := ⟨some (code % 256), none⟩

def signalled (signal : Nat) : Status := ⟨none, some signal⟩

/-- The end of a process as one number: its code, or 128 more than the signal. -/
def number (status : Status) : Nat :=
  match status.code, status.signal with
  | some code, _ => code
  | none, some signal => 128 + signal
  | none, none => 0

def toValue (status : Status) : Value :=
  let number (n : Option Nat) : Value := (n.map Value.nat).getD .null
  .object [("code", number status.code), ("signal", number status.signal)]

end Status

namespace Signal

def kill : Nat := 9

def brokenPipe : Nat := 13

def halts : List Nat := [19, 20, 21, 22]

def goOn : Nat := 18

def terminate : Nat := 15

def names : List (String × Nat) :=
  [("HUP", 1), ("INT", 2), ("QUIT", 3), ("ILL", 4), ("TRAP", 5), ("ABRT", 6), ("BUS", 7),
    ("FPE", 8), ("KILL", kill), ("USR1", 10), ("SEGV", 11), ("USR2", 12), ("PIPE", brokenPipe),
    ("ALRM", 14), ("TERM", terminate), ("STKFLT", 16), ("CHLD", 17), ("CONT", 18), ("STOP", 19),
    ("TSTP", 20), ("TTIN", 21), ("TTOU", 22), ("URG", 23), ("XCPU", 24), ("XFSZ", 25),
    ("VTALRM", 26), ("PROF", 27), ("WINCH", 28), ("POLL", 29), ("PWR", 30), ("SYS", 31)]

/-- The signals that a process does not notice unless it asks for them. -/
def unnoticed : List Nat := [0, 17, 18, 23, 28]

/-- The number of a signal by its name or its number; 0 is the end of a script. -/
def number? (name : String) : Option Nat :=
  let upper := String.ofList (name.toList.map Char.toUpper)
  let short := if upper.startsWith "SIG" then String.ofList (upper.toList.drop 3) else upper
  if name.toList.all Char.isDigit then name.toNat?.filter (· ≤ 64)
  else if short = "EXIT" then some 0
  else names.lookup short

end Signal

open Files (Location)
open Shell (Command Scope Word)

inductive Stream where
  | closed
  | nowhere
  /-- What is written to a pipe is read here. -/
  | source (pipe : Nat)
  /-- What is written here is read from a pipe. -/
  | sink (pipe : Nat)
  | file (location : Location)
deriving DecidableEq

abbrev Streams := List (Nat × Stream)

inductive Response where
  | ignore
  | run (command : Command)

abbrev Saved := List (String × Option String)

/-- What is left to do behind a command. -/
inductive Frame where
  | run (command : Command)
  /-- The condition of a loop has run, and its body had a status before. -/
  | test (whileTrue : Bool) (condition body : Command) (last : Nat)
  | again (loop : Command)
  | branch (yes no : Command)
  | onSuccess (command : Command)
  | onFailure (command : Command)
  | invert
  | streams (saved : Streams)
  | values (saved : Saved) (exported : List String)
  /-- A function ends, with its arguments and its own variables. -/
  | call (arguments : List String) (saved : Saved)
  | status (number : Nat)
  | leave (status : Nat)
  /-- More of a script comes from the input, behind what is already there. -/
  | script (text : Bytes)

inductive Activity where
  | running
  | sleeping (wake : Nat)
  | writing (stream : Stream) (bytes : Bytes) (status : Nat)
  /-- Copies its input to its output, and to other streams. -/
  | copying (others : List Stream)
  /-- Reads its input, and not more than it needs, until it knows what to write. -/
  | gathering (input : Bytes) (most : Option Nat) (finish : Bytes → Bool → Option (Bytes × Nat))
  | reading (names : List String) (isRaw : Bool)
  | fetching (text : Bytes)
  | waiting (numbers : List Nat) (isInterruptible answers : Bool)
  /-- Waits for another process, and sends it a signal if it takes too long. -/
  | limiting (number deadline signal : Nat)
  | expiring (number : Nat)
  /-- Waits for the output of a process, of which a command is made. -/
  | collecting (pipe number : Nat) (command : String → Command)
  | repeating (bytes : Bytes)
  | ended (status : Status)

structure Job where
  number : Nat
  parent : Option Nat := none
  directory : Location
  frames : List Frame
  activity : Activity := .running
  scope : Scope
  exported : List String := []
  /-- The variables that keep their values. -/
  fixed : List String := []
  functions : List (String × Command) := []
  streams : Streams := []
  responses : List (Nat × Response) := []
  /-- The signals whose answers have yet to run. -/
  asked : List Nat := []
  /-- The signals that reach it when it goes on, if it stands still. -/
  halted : Option (List Nat) := none
  /-- Whether its failure is a matter of course. -/
  isTested : Bool := false
  /-- Whether it ends with what it is doing. -/
  isReplaced : Bool := false
  stopsOnFailure : Bool := false
  captureStatus : Nat := 0

namespace Job

variable (job : Job) (number : Nat)

def status? : Option Status :=
  match job.activity with
  | .ended status => some status
  | _ => none

def isAlive : Bool := job.status?.isNone

def stream : Stream := (job.streams.lookup number).getD .closed

def withStream (stream : Stream) : Job :=
  { job with streams := (number, stream) :: job.streams.filter (·.1 != number) }

/-- All places that streams of a job lead to, now or later. -/
def held : Streams :=
  job.streams ++ job.frames.flatMap fun frame =>
    match frame with
    | .streams saved => saved
    | _ => []

def assign (name value : String) : Job :=
  { job with scope := job.scope.set name value }

def restore (saved : Saved) : Job :=
  saved.foldl (fun job (name, value) =>
    match value with
    | some value => job.assign name value
    | none =>
      { job with scope.values := job.scope.values.filter (·.1 != name) }) job

def finish (status : Status) : Job :=
  { job with activity := .ended status, frames := [] }

/-- The script ends, after what it has to do at its end. -/
def leave (job : Job) (status : Nat) : Job :=
  match job.responses.lookup 0 with
  | some (.run command) =>
    { job with
      responses := job.responses.filter (·.1 != 0)
      frames := [.run command, .leave status]
      activity := .running
      scope.status := status }
  | _ => job.finish (.exit status)

/-- Whether a failure decides what comes next. -/
def isInTest : Bool :=
  job.isTested || job.frames.any fun frame =>
    match frame with
    | .test _ _ _ _ | .branch _ _ | .onSuccess _ | .onFailure _ | .invert => true
    | _ => false

def done (status : Nat) : Job :=
  let job := { job with scope.status := status, activity := .running }
  if job.isReplaced then job.finish (.exit status)
  else if status ≠ 0 ∧ job.stopsOnFailure ∧ !job.isInTest then job.leave status
  else job

/-- The job goes on with a command; one that does nothing succeeds. -/
def goOn (command : Command) : Job :=
  match command with
  | .sequence [] => { job with scope.status := 0 }
  | _ => { job with frames := .run command :: job.frames }

def say (bytes : Bytes) (status : Nat) : Job :=
  { job with activity := .writing (job.stream 1) bytes status }

def complain (message : String) (status : Nat) : Job :=
  { job with activity := .writing (job.stream 2) (octets s!"sh: 1: {message}\n") status }

def answers : Bool :=
  match job.responses.lookup number with
  | some (.run _) => true
  | _ => false

def receive : Job :=
  if !job.isAlive then job
  else
    match job.responses.lookup number with
    | some .ignore => job
    | some (.run _) => { job with asked := job.asked.filter (· != number) ++ [number] }
    | none =>
      if Signal.halts.contains number then { job with halted := some [] }
      else if Signal.unnoticed.contains number then job
      else job.finish (.signalled number)

/-- A signal is sent to the process; one that stands still gets it when it goes on. -/
def signal : Job :=
  if !job.isAlive then job
  else if number = Signal.kill then job.finish (.signalled number)
  else
    match job.halted with
    | none => job.receive number
    | some waiting =>
      if number = Signal.goOn then waiting.foldl receive { job with halted := none }
      else { job with halted := some (waiting ++ [number]) }

/-- The responses that a new program keeps: what is ignored stays so. -/
def kept (responses : List (Nat × Response)) : List (Nat × Response) :=
  responses.filter fun (number, response) =>
    match response with
    | .ignore => number != 0
    | .run _ => false

/-- A process that does a command in the same surroundings. -/
def fork (command : Command) : Job :=
  { job with
    number
    parent := some job.number
    frames := [.run command]
    activity := .running
    responses := kept job.responses
    asked := []
    isTested := job.isInTest
    isReplaced := false }

def replaced : Job :=
  { job with isReplaced := true, frames := [], responses := kept job.responses, asked := [] }

/-- What a frame undoes when nothing is done behind it. -/
def undo : Frame → Job
  | .streams saved => { job with streams := saved }
  | .values saved exported => { job.restore saved with exported }
  | .call arguments saved => { job.restore saved with scope.arguments := arguments }
  | _ => job

/-- Drops what is left to do before a frame of a kind, and undoes it. -/
def unwind (isSought : Frame → Bool) : List Frame → Job → Option (Frame × Job)
  | [], _ => none
  | frame :: rest, job =>
    if isSought frame then some (frame, { job with frames := rest })
    else unwind isSought rest (job.undo frame)

/-- Whether a frame ends the body or the condition of a loop, or a function. -/
def endsLoop : Frame → Bool
  | .again _ | .test _ _ _ _ | .call _ _ => true
  | _ => false

/-- Leaves loops; what is left of the last of them is given to a function. -/
def leaveLoops (last : Frame → Job → Job) : (levels : Nat) → Job → Job
  | 0, job => job
  | levels + 1, job =>
    match unwind endsLoop job.frames job with
    | none | some (.call _ _, _) => job
    | some (frame, inner) =>
      let hasMore := inner.frames.any fun frame =>
        match frame with
        | .again _ | .test _ _ _ _ => true
        | _ => false
      if levels = 0 || !hasMore then last frame inner else leaveLoops last levels inner

def breakLoops (levels : Nat) : Job := job.leaveLoops (fun _ job => job) levels

def continueLoop (levels : Nat) : Job :=
  job.leaveLoops (fun frame job =>
    let next := match frame with
      | .test whileTrue condition body _ => .again (.loop whileTrue condition body)
      | frame => frame
    { job with frames := next :: job.frames }) levels

def isCall : Frame → Bool
  | .call _ _ => true
  | _ => false

def leaveCall (status : Nat) : Job :=
  match unwind isCall job.frames job with
  | some (frame, job) => (job.undo frame).done status
  | none => job.leave status

/-- Makes a variable one of the innermost function's own. -/
def localize (name : String) : Job :=
  let rec change : List Frame → List Frame
    | [] => []
    | .call arguments saved :: rest =>
      if (saved.lookup name).isSome then .call arguments saved :: rest
      else .call arguments ((name, job.scope.values.lookup name) :: saved) :: rest
    | frame :: rest => frame :: change rest
  { job with frames := change job.frames }

/-- The status that an answer to a signal or to an end does not change. -/
def lastStatus : Nat :=
  (job.frames.findSome? fun frame =>
    match frame with
    | .leave status | .status status => some status
    | _ => none).getD job.scope.status

end Job

end CodeAtlas.Supervision
