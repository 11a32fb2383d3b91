import CodeAtlas.Client.Schedule

/-!
# Runs of a client and their histories

An `Occurrence` is one thing that can happen to a client: a task takes a turn, a call is made or
dropped, something arrives, time passes. `Machine.run` performs occurrences in any order, so a
statement about all runs is one about every interleaving; the runs of the scheduler are among them
(`settle_eq_run`). A chunk of octets is handled in one turn, and since octets may arrive in pieces
of any size, other tasks can take turns between any two frames.

A `Deed` is what an occurrence does to requests: one is made, answered, cancelled, settled or
dropped. `Machine.history` lists the deeds of a run.
-/

namespace CodeAtlas.Client

open Json (Value)
open Rpc (Message RequestId)
open Time (Duration)

/-- One thing that can happen to a client. -/
inductive Occurrence where
  | call (call : Call)
  | turn (task : TaskId)
  | dequeue
  | drop (task : TaskId)
  | connect
  | relaunch (launch : Launch)
  /-- The workspace has another URI now, or has none. -/
  | relocate (folder : Except Error Uri)
  | arrive (connection : ConnectionId) (arrival : Arrival)
  | endStream (connection : ConnectionId)
  | setMode (connection : ConnectionId) (mode : WriteMode)
  | passTime (duration : Duration)
  | onNotification (method : String) (handler : Handler)

/-- The id that a user has chosen. -/
def Traffic.suppliedId? : Traffic → Option RequestId
  | .request _ _ id _ _ => id
  | .notification _ _ => none

/-- The id that the caller has chosen. -/
def Call.suppliedId? (call : Call) : Option RequestId := call.traffic?.bind Traffic.suppliedId?

/-- The id that comes with a call. -/
def Occurrence.suppliedId? : Occurrence → Option RequestId
  | .call made => made.suppliedId?
  | _ => none

/-- Whether a call waits in this phase, so that its caller can drop it. Answers to the server are
nobody's calls. -/
def Phase.isSuspended : Phase → Bool
  | .lockWriter (.send _ (.reply _)) => false
  | .writing _ (.reply _) => false
  | .ready _ => true
  | .lockSession _ => true
  | .lockWriter _ => true
  | .writing _ _ => true
  | .awaiting _ _ => true
  | .joining _ _ => true
  | .shutting _ _ => true
  | .closed _ => true
  | _ => false

namespace Machine

variable (m : Machine)

/-- A client that has not been used. -/
def unused (setup : Setup) : Machine := { setup with }

/-- Whether a task is a call that waits. -/
def isSuspended (t : TaskId) : Bool :=
  (m.tasks[t]?).any fun task => task.phase.isSuspended

/-- Takes the first task out of the queue. -/
def dequeue : Machine :=
  match m.queue with
  | [] => m
  | t :: queue => { m with queue }.setTask t fun task => { task with isQueued := false }

/-- The client after something has happened. -/
def perform : Occurrence → Machine
  | .call call => m.call call
  | .turn t => (m.step t).getD m
  | .dequeue => m.dequeue
  | .drop t => if m.isSuspended t then m.drop t else m
  | .connect => m.connect
  | .relaunch launch => { m with launch }
  | .relocate folder => { m with folder }
  | .arrive c arrival => m.arrive c arrival
  | .endStream c => m.endStream c
  | .setMode c mode => m.setMode c mode
  | .passTime duration => m.passTime duration
  | .onNotification method handler => m.onNotification method handler

/-- The client after a run. -/
def run (occurrences : List Occurrence) : Machine := occurrences.foldl perform m

theorem run_append (first second : List Occurrence) :
    m.run (first ++ second) = (m.run first).run second :=
  List.foldl_append

theorem run_task_eq_run (t : TaskId) (most : Nat) (m : Machine) :
    ∃ turns, runTask t most m = m.run (List.replicate turns (.turn t)) := by
  induction most generalizing m with
  | zero => exact ⟨0, rfl⟩
  | succ most ih =>
    cases hstep : m.step t with
    | none => exact ⟨0, by simp only [runTask, hstep, List.replicate_zero, run, List.foldl_nil]⟩
    | some next =>
      obtain ⟨turns, hturns⟩ := ih next
      refine ⟨turns + 1, ?_⟩
      simp only [runTask, hstep, hturns, List.replicate_succ, run, List.foldl_cons, perform,
        Option.getD_some]

theorem run_queue_eq_run (most : Nat) (m : Machine) :
    ∃ occurrences, runQueue most m = m.run occurrences := by
  induction most generalizing m with
  | zero => exact ⟨[], rfl⟩
  | succ most ih =>
    cases hqueue : m.queue with
    | nil => exact ⟨[], by simp only [runQueue, hqueue, run, List.foldl_nil]⟩
    | cons t queue =>
      have hdequeue : m.perform .dequeue =
          { m with queue }.setTask t fun task => { task with isQueued := false } := by
        simp only [perform, dequeue, hqueue]
      obtain ⟨turns, hturns⟩ := run_task_eq_run t
        (stepLimit + (m.perform .dequeue).readsLeft) (m.perform .dequeue)
      obtain ⟨rest, hrest⟩ := ih ((m.perform .dequeue).run (List.replicate turns (.turn t)))
      refine ⟨.dequeue :: (List.replicate turns (.turn t) ++ rest), ?_⟩
      rw [hdequeue] at hturns hrest
      rw [run, List.foldl_cons, ← run, run_append, hdequeue, ← hrest, ← hturns]
      simp only [runQueue, hqueue]

/-- What the scheduler does until everything waits is a run. -/
theorem settle_eq_run : ∃ occurrences, m.settle = m.run occurrences :=
  run_queue_eq_run _ m

end Machine

/-- Whether a message is sent for a call of a user that only an initialized session takes. -/
def Errand.isTraffic : Errand → Bool
  | .request ⟨_, _, _, .user _⟩ => true
  | .notification => true
  | _ => false

/-- Whether a call of a user has been admitted in this phase and has not got to the writer. -/
def Phase.isAdmitted : Phase → Bool
  | .admitted _ => true
  | .registered _ d => (Errand.request d).isTraffic
  | _ => false

/-- Whether an occurrence is a turn of a task. -/
def Occurrence.isTurn (t : TaskId) : Occurrence → Bool
  | .turn u => t = u
  | _ => false

namespace Machine

variable (m : Machine)

/-- Whether a task is a call that has been admitted. -/
def isAdmitted (t : TaskId) : Bool :=
  (m.tasks[t]?).any fun task => task.phase.isAdmitted

/-- Whether a call was admitted, and others have left the client in another state since then. -/
def isOvertaken (t : TaskId) : Bool := m.isAdmitted t && m.state != .initialized

/-- The call that goes on with an occurrence although it was overtaken. -/
def overtakenBy : Occurrence → List TaskId
  | .turn t => if m.isOvertaken t then [t] else []
  | _ => []

/-- The calls that go on in a run although they were overtaken. -/
def overtaken (m : Machine) : List Occurrence → List TaskId
  | [] => []
  | occurrence :: rest => m.overtakenBy occurrence ++ (m.perform occurrence).overtaken rest

/-- Whether each call that is admitted in a run goes on before anything else happens. -/
def isPrompt (m : Machine) : List Occurrence → Bool
  | [] => true
  | occurrence :: rest =>
    (List.range m.tasks.length).all (fun t => !m.isAdmitted t || occurrence.isTurn t) &&
      (m.perform occurrence).isPrompt rest

end Machine

/-- How far a task is with the request that it makes. -/
inductive Stage where
  /-- It may still make one, under an id that its caller has supplied if there is one. -/
  | before (supplied : Option RequestId)
  | making (dispatch : Dispatch)
  /-- Its request has an outcome, and has not given up its place in the table. -/
  | leaving (dispatch : Dispatch) (outcome : Outcome)
  | made (dispatch : Dispatch) (outcome : Outcome)
  | after

/-- The stage of a phase. A request that could not be sent has its outcome. -/
def Phase.stage : Phase → Stage
  | .ready call => .before call.suppliedId?
  | .admitted traffic => .before traffic.suppliedId?
  | .lockSession _ => .before none
  | .lockWriter (.install _) => .before none
  | .opened _ => .before none
  | .registered _ d => .making d
  | .lockWriter (.send _ (.request d)) => .making d
  | .writing _ (.request d) => .making d
  | .sent (.request d) (.ok ()) => .making d
  | .awaiting d _ => .making d
  | .sent (.request d) (.error e) => .leaving d (.error e)
  | .leaving d outcome => .leaving d outcome
  | .answered d outcome => .made d outcome
  | _ => .after

/-- What is done to requests. -/
inductive Deed where
  | dispatched (task : TaskId) (id : RequestId)
  | refused (task : TaskId) (id : RequestId)
  /-- A response is read; it is expected if its id is pending then. -/
  | response (id : RequestId) (outcome : Outcome) (isExpected : Bool)
  | cancelled (id : RequestId)
  | failed
  /-- The request of a task gives up its place in the table and has this outcome. -/
  | settled (task : TaskId) (id : RequestId) (outcome : Outcome)
  | dropped (task : TaskId) (id : RequestId)

/-- The request that is in the table, or was put there and has not been taken out. -/
def Stage.request? : Stage → Option Dispatch
  | .making d => some d
  | .leaving d _ => some d
  | _ => none

/-- The deeds that show in the stages of a task before and after a turn. -/
def Stage.deeds (t : TaskId) (stage : Stage) : Stage → List Deed
  | .made d outcome =>
    match stage with
    | .made _ _ => []
    | .making _ => [.settled t d.id outcome]
    | .leaving _ _ => [.settled t d.id outcome]
    | _ => [.refused t d.id]
  | next =>
    match next.request? with
    | some d => if stage.request? = some d then [] else [.dispatched t d.id]
    | none => []

/-- Whether the failure to send a message for this reason fails the session. -/
def Errand.failsSession : Errand → Bool
  | .exit => false
  | .reply _ => false
  | _ => true

/-- Whether the end of the connection is unexpected in this state. -/
def State.isLive : State → Bool
  | .shuttingDown => false
  | .disconnected => false
  | _ => true

namespace Machine

variable (m : Machine)

/-- The stage of a task. -/
def stageOf (t : TaskId) : Stage :=
  ((m.tasks[t]?).map fun task => task.phase.stage).getD .after

/-- The deeds of reading a frame. -/
def deedsOfFrame : Except Wire.FrameError Value → List Deed
  | .ok value =>
    match Message.ofValue value with
    | .ok (.response id result error) =>
      [.response id (outcomeOf result error) (m.isPending id)]
    | _ => []
  | .error _ => []

/-- The deeds of reading frames. -/
def deedsOfFrames (m : Machine) : List (Except Wire.FrameError Value) → List Deed
  | [] => []
  | frame :: rest => m.deedsOfFrame frame ++ (m.handleAll [frame]).deedsOfFrames rest

/-- The deeds of one read from a connection. -/
def deedsOfReading (c : ConnectionId) (buffer : Wire.Buffer) : List Deed :=
  match (m.connection? c).bind Connection.read with
  | none => []
  | some (.octets bytes, connection) =>
    (m.setConnection c fun _ => connection).deedsOfFrames (buffer.extend bytes).drain.1
  | some _ => if m.state.isLive then [.failed] else []

/-- The deeds of a turn in a phase that concern requests of other tasks. -/
def deedsOfPhase : Phase → List Deed
  | .ready (.cancel id) => [.cancelled id]
  | .sent errand (.error e) => if errand.failsSession && e.isTransport then [.failed] else []
  | .closed _ => [.failed]
  | .reading c buffer => m.deedsOfReading c buffer
  | _ => []

/-- The deeds of a turn that concern requests of other tasks. -/
def deedsOfTurn (t : TaskId) : List Deed :=
  match m.tasks[t]? with
  | none => []
  | some task => if task.isAborted then [] else m.deedsOfPhase task.phase

/-- The deeds of an occurrence. -/
def deeds : Occurrence → List Deed
  | .turn t => m.deedsOfTurn t ++ (m.stageOf t).deeds t ((m.perform (.turn t)).stageOf t)
  | .drop t =>
    match m.isSuspended t, m.stageOf t with
    | true, .making d => [.dropped t d.id]
    | _, _ => []
  | _ => []

/-- The deeds of a run, first to last. -/
def history (m : Machine) : List Occurrence → List Deed
  | [] => []
  | occurrence :: rest => m.deeds occurrence ++ (m.perform occurrence).history rest

/-- A client of a server that needs no capabilities, before it is used. -/
def sampleClient : Machine := unused
  { provider := { name := "sample", command := "sample", required := [] }
    options := {}
    workspace := "workspace"
    folder := .ok ⟨"file:///workspace", rfl⟩
    launch := .fails .serverExited }

/-- A response to the request of an id arrives on the first connection. -/
def respond (id : RequestId) (result : Value) : Occurrence :=
  .arrive 0 (.octets (Wire.encode (Message.success id result).toValue))

/-- The handshake of a session: task 0 makes it, and task 1 reads from then on. -/
def handshake : List Occurrence :=
  [.connect, .call (.attach 0)] ++ List.replicate 8 (.turn 0) ++
    [respond (.number 1) (.object [("capabilities", .object [])]), .turn 1] ++
    List.replicate 6 (.turn 0)

end Machine

end CodeAtlas.Client
