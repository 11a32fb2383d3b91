import CodeAtlas.Supervision.Builtin
import CodeAtlas.Supervision.Shell.Tool

/-!
# Families of processes

The processes that came from one, the pipes between them, the files they see and the time. Each
process is a job. `Family.start` starts a command of a job, in the job itself or in new ones.
-/

namespace CodeAtlas.Supervision

open Files (FileTree Location)
open Shell (Command Direction Piece Redirection Scope Word)

/-- What was written and not yet read, the newest first. -/
structure Pipe where
  chunks : List Bytes := []
  size : Nat := 0
  isBounded : Bool := true

namespace Pipe

def capacity : Nat := 65536

def content (pipe : Pipe) : Bytes := pipe.chunks.reverse.flatten

def ofContent (bytes : Bytes) : Pipe := ⟨[bytes], bytes.length, false⟩

def push (pipe : Pipe) (bytes : Bytes) : Pipe :=
  { pipe with chunks := bytes :: pipe.chunks, size := pipe.size + bytes.length }

def withContent (pipe : Pipe) (bytes : Bytes) : Pipe :=
  { pipe with chunks := [bytes], size := bytes.length }

def isFull (pipe : Pipe) : Bool := pipe.isBounded && decide (capacity ≤ pipe.size)

end Pipe

/-- The processes that came from one. Times are in nanoseconds. -/
structure Family where
  jobs : List Job
  pipes : List (Nat × Pipe)
  tree : FileTree Bytes
  clock : Nat := 0
  nextJob : Nat
  nextPipe : Nat
  isInputClosed : Bool := false

namespace Family

def inputPipe : Nat := 0

def outputPipe : Nat := 1

def firstNumber : Nat := 4711

variable (family : Family) (job : Job) (number : Nat) (path : String)

def job? : Option Job :=
  family.jobs.find? (·.number == number)

def put : Family :=
  { family with jobs := family.jobs.map fun other =>
      if other.number = job.number then job else other }

def status? (family : Family) : Option Status := (family.job? firstNumber).bind (·.status?)

def pipe : Pipe := (family.pipes.lookup number).getD {}

def setPipe (pipe : Pipe) : Family :=
  { family with pipes := (number, pipe) :: family.pipes.filter (·.1 != number) }

def addPipe (pipe : Pipe) : Family × Nat :=
  ({ family with
      pipes := (family.nextPipe, pipe) :: family.pipes
      nextPipe := family.nextPipe + 1 }, family.nextPipe)

def isHeld (stream : Stream) : Bool :=
  family.jobs.any fun job => job.isAlive && job.held.any fun (_, other) => other == stream

def hasWriter : Bool :=
  (number == inputPipe && !family.isInputClosed) || family.isHeld (.sink number)

def hasReader : Bool :=
  number == outputPipe || family.isHeld (.source number) ||
    family.jobs.any fun job =>
      match job.activity with
      | .collecting pipe _ _ => pipe == number
      | _ => false

def seenBy : FileTree Bytes :=
  { family.tree with current := job.directory }

def namesIn (location : Location) : List String :=
  let names := (family.tree.below location).filterMap fun (place, _) =>
    match place with
    | [name] => some name.shown
    | _ => none
  names.mergeSort fun a b => !decide (b < a)

def namesSeen : List String :=
  match (family.seenBy job).find (if path = "" then "." else path) with
  | .ok (.found location .directory) => family.namesIn location
  | _ => []

/-- Starts a process that does a command for a job, after a change of the new one. -/
def spawn (command : Command) (change : Job → Job) : Family × Nat :=
  let number := family.nextJob
  ({ family with
      jobs := family.jobs ++ [change (job.fork number command)]
      nextJob := number + 1 }, number)

def device? : Option Stream :=
  match path with
  | "/dev/null" => some .nowhere
  | "/dev/stdin" | "/dev/fd/0" => some (job.stream 0)
  | "/dev/stdout" | "/dev/fd/1" => some (job.stream 1)
  | "/dev/stderr" | "/dev/fd/2" => some (job.stream 2)
  | _ => none

def openToRead? : Option (Family × Stream) :=
  match device? job path, (family.seenBy job).read path with
  | some stream, _ => some (family, stream)
  | none, .ok content =>
    let (family, number) := family.addPipe (.ofContent content)
    some (family, .source number)
  | none, .error _ => none

def openToWrite? (isKept : Bool) : Option (Family × Stream) :=
  match device? job path with
  | some stream => some (family, stream)
  | none =>
    let tree := family.seenBy job
    let before : Bytes := match tree.read path with
      | .ok content => if isKept then content else []
      | .error _ => []
    match tree.write path before with
    | .error _ => none
    | .ok tree =>
      match tree.canonical path with
      | .ok location =>
        some ({ family with tree := { tree with current := family.tree.current } }, .file location)
      | .error _ => none

/-- Why streams cannot be changed. -/
inductive Refusal where
  | expansion
  | opening (message : String)

def redirect (redirection : Redirection) : Except Refusal (Family × Job) := do
  let (number, direction, word) := redirection
  match Shell.expandText? job.scope word with
  | none => .error .expansion
  | some (scope, text) =>
    let job := { job with scope }
    let opened : Option (Family × Stream) := match direction with
      | .read => family.openToRead? job text
      | .write => family.openToWrite? job text false
      | .append => family.openToWrite? job text true
      | .duplicate =>
        if text = "-" then some (family, .closed)
        else (Text.digitsValue? text.toList).bind fun other =>
          (job.streams.lookup other).map (family, ·)
      | .here =>
        let (family, pipe) := family.addPipe (.ofContent (octets text))
        some (family, .source pipe)
    match opened with
    | some (family, stream) => .ok (family, job.withStream number stream)
    | none =>
      .error (.opening (match direction with
        | .read => s!"cannot open {text}: No such file"
        | .duplicate | .here => s!"{text}: Bad file descriptor"
        | .write | .append => s!"cannot create {text}: Directory nonexistent"))

def redirectAll : List Redirection → Family × Job → Except Refusal (Family × Job)
  | [], state => .ok state
  | first :: rest, (family, job) => do redirectAll rest (← redirect family job first)

/-- What a file is asked in a condition. -/
def fileTest (letter : Char) (path : String) : Bool :=
  match (family.seenBy job).find path with
  | .ok (.found _ .directory) => "derwx".toList.contains letter
  | .ok (.found _ (.file content)) =>
    "efrw".toList.contains letter || (letter == 's' && !content.isEmpty)
  | _ => path == "/dev/null" && "cerw".toList.contains letter

def take (stream : Stream) : Family × Bytes × Bool :=
  match stream with
  | .source number =>
    let pipe := family.pipe number
    let bytes := pipe.content
    if bytes.isEmpty then (family, [], family.hasWriter number)
    else (family.setPipe number (pipe.withContent []), bytes, true)
  | _ => (family, [], false)

def takeAtMost (most : Option Nat) (stream : Stream) : Family × Bytes × Bool :=
  let (taken, bytes, isOpen) := family.take stream
  match most, stream with
  | some most, .source number =>
    if bytes.length ≤ most then (taken, bytes, isOpen)
    else (taken.setPipe number ((taken.pipe number).withContent (bytes.drop most)),
      bytes.take most, isOpen)
  | _, _ => (taken, bytes, isOpen)

inductive Written where
  | all (family : Family)
  | none
  /-- There is nobody to read them. -/
  | refused
  /-- There is nowhere to write to. -/
  | failed

def write (stream : Stream) (bytes : Bytes) : Written :=
  match stream with
  | .closed | .source _ => if bytes.isEmpty then .all family else .failed
  | .nowhere => .all family
  | .file location =>
    let before : Bytes := match family.tree.entry? location with
      | some (.file content) => content
      | _ => []
    .all { family with tree := family.tree.set location (.file (before ++ bytes)) }
  | .sink number =>
    if bytes.isEmpty then .all family
    else if !family.hasReader number then .refused
    else
      let pipe := family.pipe number
      if pipe.isFull then .none else .all (family.setPipe number (pipe.push bytes))

end Family

end CodeAtlas.Supervision
