import CodeAtlas.Client.Task
import CodeAtlas.Logging.Filter
import CodeAtlas.Server.Provider

/-!
# The client

A `Machine` is a client with its tasks, its connections and a clock. This module has the changes
that single steps are made of: state changes, the table of pending requests, locks, the queue of
tasks that can run, and what is done with the messages that are read.
-/

namespace CodeAtlas.Client

open Json (Value)
open Logging (Event)
open Rpc (Message RequestId)
open Time (Duration)

/-- A request that has not been answered, and the task that waits for the answer. -/
structure Pending where
  id : RequestId
  owner : TaskId
deriving DecidableEq

/-- What is done with the notifications of a method. -/
inductive Handler where
  | forward
  | record (tag : Value)
deriving DecidableEq

/-- What comes of starting the server. -/
inductive Launch where
  | fails (error : Error)
  /-- The process runs, and cannot be reached. -/
  | unreachable (error : Error)
  | connects (connection : ConnectionId)
deriving DecidableEq

/-- What a client is made with, and what it finds when it starts a session. -/
structure Setup where
  provider : Server.Provider
  options : Options
  workspace : String
  /-- The URI of the workspace, or why it has none. -/
  folder : Except Error Uri
  launch : Launch

/-- A client: what its calls share, its tasks, and what has come of them. -/
structure Machine extends Setup where
  state : State := .disconnected
  /-- Every change of the state, from the first one on. -/
  changes : List (State × State) := []
  /-- The number of the next request. A counter of 64 bits shows it until `2 ^ 63` are taken. -/
  nextId : Int := 1
  pending : List Pending := []
  handlers : List (String × Handler) := [("window/logMessage", .forward)]
  folders : Value := .null
  capabilities : Option Value := none
  writer : Option ConnectionId := none
  reader : Option TaskId := none
  hasProcess : Bool := false
  sessionLock : Lock := {}
  writerLock : Lock := {}
  tasks : List Task := []
  queue : List TaskId := []
  connections : List Connection := []
  clock : Duration := ⟨0⟩
  returned : List (TaskId × Outcome) := []
  notified : List (Value × Option Value) := []
  log : List Event := []

namespace Machine

variable (m : Machine) (t : TaskId) (id : RequestId)

/-- Reports something. -/
def note (level : Logging.Level) (text : String) (fields : List (String × String)) : Machine :=
  { m with log := m.log ++ [⟨level, text, fields⟩] }

/-- Changes a task. -/
def setTask (change : Task → Task) : Machine :=
  { m with tasks := m.tasks.modify t change }

/-- Changes a connection. -/
def setConnection (c : ConnectionId) (change : Connection → Connection) : Machine :=
  { m with connections := m.connections.modify c change }

/-- Puts a task into the queue unless it is there or has finished. -/
def wake : Machine :=
  match m.tasks[t]? with
  | some { isQueued := false, phase, .. } =>
    match phase with
    | .finished => m
    | _ => { m.setTask t fun task => { task with isQueued := true } with queue := m.queue ++ [t] }
  | _ => m

/-- Wakes a task, if there is one. -/
def wakeAny : Option TaskId → Machine
  | some t => m.wake t
  | none => m

/-- Adds a task that can run. -/
def spawn (phase : Phase) : Machine :=
  { m with tasks := m.tasks ++ [{ phase }], queue := m.queue ++ [m.tasks.length] }

/-- Lets a task go on with a phase. -/
def goTo (phase : Phase) : Machine :=
  m.setTask t fun task => { task with phase }

/-- Ends a task; whoever waits for its end is woken. -/
def finish : Machine :=
  match m.tasks[t]? with
  | some task => (m.goTo t .finished).wakeAny task.joiner
  | none => m

/-- Ends a call with what it returns. -/
def return_ (outcome : Outcome) : Machine :=
  { m.finish t with returned := m.returned ++ [(t, outcome)] }

/-- Asks for the lock of the lifecycle. -/
def askSession (call : Call) : Machine :=
  { m.goTo t (.lockSession call) with sessionLock := m.sessionLock.ask t }

/-- Passes the lock of the lifecycle on. -/
def passSession : Machine :=
  let lock := m.sessionLock.pass
  { m with sessionLock := lock }.wakeAny lock.owner

/-- Asks for the writer. -/
def askWriter (job : Job) : Machine :=
  { m.goTo t (.lockWriter job) with writerLock := m.writerLock.ask t }

/-- Passes the writer on. -/
def passWriter : Machine :=
  let lock := m.writerLock.pass
  { m with writerLock := lock }.wakeAny lock.owner

/-- Goes to a state, whether that is legal or not. -/
def force (target : State) : Machine :=
  { m with state := target, changes := m.changes ++ m.state.changeTo target }

/-- Goes to a state if that is legal. -/
def transition (target : State) : Except Error Machine :=
  if m.state.canBecome target then .ok (m.force target)
  else .error (.invalidTransition m.state target)

/-- Leaves an outcome with a task that has none, and wakes it. -/
def deliver (outcome : Outcome) : Machine :=
  (m.setTask t fun task =>
    match task.inbox with
    | .empty => { task with inbox := .delivered outcome }
    | _ => task).wake t

/-- Takes the entry of an id out of the table and delivers an outcome to its owner. -/
def resolve (outcome : Outcome) : Machine :=
  match m.pending.find? fun entry => entry.id == id with
  | some entry =>
    { m with pending := m.pending.filter fun other => other.id != id }.deliver entry.owner outcome
  | none => m

/-- Delivers outcomes to the owners of entries. -/
def deliverAll (outcome : RequestId → Outcome) : List Pending → Machine → Machine
  | [], m => m
  | entry :: rest, m => deliverAll outcome rest (m.deliver entry.owner (outcome entry.id))

/-- Empties the table and delivers an outcome to every owner. -/
def resolveAll (outcome : RequestId → Outcome) : Machine :=
  deliverAll outcome m.pending { m with pending := [] }

/-- Takes the entry of an id out of the table when a request of a task ends. Another owner that
waited under the same id gets nothing any more. -/
def unregister : Machine :=
  match m.pending.find? fun entry => entry.id == id with
  | none => m
  | some entry =>
    let m := { m with pending := m.pending.filter fun other => other.id != id }
    if entry.owner = t then m
    else
      (m.setTask entry.owner fun task =>
        match task.inbox with
        | .empty => { task with inbox := .abandoned }
        | _ => task).wake entry.owner

/-- Marks the session as failed: every pending request is told that the server is gone. -/
def failSession : Machine :=
  (m.force m.state.failed).resolveAll fun _ => .error .serverExited

/-- Marks the session as failed if an error means that the connection is lost. -/
def failOn (e : Error) : Machine := if e.isTransport then m.failSession else m

/-- Adds a request of a task to the table. -/
def register : Machine :=
  { m.setTask t fun task => { task with inbox := .empty } with pending := m.pending ++ [⟨id, t⟩] }

/-- Whether a request of an id is in the table. -/
def isPending : Bool :=
  m.pending.any fun entry => entry.id == id

/-- Sends a request for a task: under an id of its own, or under the next one of the client. -/
def dispatch (method : String) (params : Option Value)
    (id : Option RequestId) (after : Duration) (purpose : Purpose) : Machine :=
  let (id, m) :=
    match id with
    | some id => (id, m)
    | none => (.number m.nextId, { m with nextId := m.nextId + 1 })
  let d : Dispatch := ⟨id, method, after, purpose⟩
  if m.isPending id then m.goTo t (.answered d (.error (.duplicateId id)))
  else (m.register t id).goTo t (.registered (.request id method params) d)

/-- The connection of an id. -/
def connection? (c : ConnectionId) : Option Connection := m.connections[c]?

end Machine

open Json (Decoder Fields Value)
open Rpc (Message RequestId ResponseError)

/-- The requests of a server that are answered with null. -/
def acknowledged : List String :=
  ["window/workDoneProgress/create", "client/registerCapability", "client/unregisterCapability",
    "window/showMessageRequest"]

/-- How many items a server asks for. -/
def itemCount (params : Option Value) : Nat :=
  (((params.bind fun value => value.member? "items").bind Value.elements?).map List.length).getD 0

/-- What a request of the server is answered with. -/
def answerTo (folders : Value) (id : RequestId) (method : String) (params : Option Value) :
    Message :=
  if method = "workspace/configuration" then
    .success id (.arr (List.replicate (itemCount params) .null))
  else if method = "workspace/workspaceFolders" then .success id folders
  else if acknowledged.contains method then .success id .null
  else .failure id (.methodNotFound method)

/-- Reads a message that a server has for the log: its type and its text. -/
def decodeLogMessage : Decoder (Int × String) :=
  (Prod.mk <$> Fields.required "type" .int32 <*> Fields.required "message" .text).record
    "LogMessageParams"

namespace Machine

variable (m : Machine)

/-- Reports a message that the server has for the log. -/
def forward (params : Option Value) : Machine :=
  match params.map decodeLogMessage with
  | some (.ok (1, text)) => m.note .warn "language server error" [("message", text)]
  | some (.ok (2, text)) => m.note .debug "language server warning" [("message", text)]
  | some (.ok (_, text)) => m.note .trace "language server log" [("message", text)]
  | _ => m

/-- Does with a notification what its method is handled with. -/
def handleNotification (method : String) (params : Option Value) : Machine :=
  match m.handlers.lookup method with
  | some .forward => m.forward params
  | some (.record tag) => { m with notified := m.notified ++ [(tag, params)] }
  | none => m

/-- What a response means to the call that waits for it. -/
def outcomeOf (result : Option Value) (error : Option ResponseError) : Outcome :=
  match Rpc.outcome result error with
  | .ok value => .ok value
  | .error e => .error (.serverError e.code e.message)

/-- Handles one message of the server. -/
def handle (value : Value) : Machine :=
  match Message.ofValue value with
  | .error e =>
    m.note .warn "dropping JSON-RPC message" [("error", (Error.message e).text)]
  | .ok (.response id result error) => m.resolve id (outcomeOf result error)
  | .ok (.request id method params) =>
    m.spawn (.reply (answerTo m.folders id method params) method)
  | .ok (.notification method params) => m.handleNotification method params

/-- Handles frames in their order; what is no frame is reported. -/
def handleAll (m : Machine) : List (Except Wire.FrameError Value) → Machine
  | [] => m
  | .ok value :: rest => (m.handle value).handleAll rest
  | .error e :: rest =>
    (m.note .warn "skipping malformed LSP frame" [("error", (Error.frame e).text)]).handleAll rest

/-- Marks the connection as lost, by a fault or by its end. A session that is ending expects that.
-/
def loseConnection (fault : Option String) : Machine :=
  match m.state with
  | .shuttingDown => m
  | .disconnected => m
  | state =>
    let m := match fault with
      | some text =>
        m.note .warn "lost connection to language server"
          [("state", state.name), ("error", text)]
      | none => m.note .warn "language server closed its output stream" [("state", state.name)]
    m.failSession

end Machine

end CodeAtlas.Client
