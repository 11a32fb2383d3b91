import CodeAtlas.Client.Step

/-!
# Runs

Tasks run in the order of the queue, each until it has to wait. Between the runs something happens
from outside: a call is made, something arrives from the server, time passes, or a call is
dropped.
-/

namespace CodeAtlas.Client

open Time (Duration)

/-- How many reads something that arrived takes at most. -/
def Arrival.size : Arrival → Nat
  | .octets bytes => bytes.length + 1
  | .fault _ => 1

namespace Machine

variable (m : Machine) (c : ConnectionId)

/-- How many reads there are at most until nothing is left. -/
def readsLeft : Nat :=
  (m.connections.flatMap fun c => c.arrivals).foldl (fun n arrival => n + arrival.size) 0

/-- Lets a task run until it has to wait, for at most `most` steps. -/
def runTask (t : TaskId) : (most : Nat) → Machine → Machine
  | 0, m => m
  | most + 1, m =>
    match m.step t with
    | some m => runTask t most m
    | none => m

/-- A task takes fewer steps than this between two waits, reads aside. -/
def stepLimit : Nat := 64

/-- Lets tasks run in the order of the queue, at most `most` of them. -/
def runQueue : (most : Nat) → Machine → Machine
  | 0, m => m
  | most + 1, m =>
    match m.queue with
    | [] => m
    | t :: queue =>
      let m := { m with queue }.setTask t fun task => { task with isQueued := false }
      runQueue most (runTask t (stepLimit + m.readsLeft) m)

/-- Lets everything happen that can happen. A task is woken only a few times, and a reading loop
starts at most one task for each octet. -/
def settle : Machine :=
  runQueue (stepLimit * (m.tasks.length + m.readsLeft + 1)) m

/-- Makes a call. -/
def call (c : Call) : Machine := m.spawn (.ready c)

/-- Adds a connection. -/
def connect : Machine := { m with connections := m.connections ++ [{}] }

/-- The tasks whose phases pass a test. -/
def tasksWhere (test : Phase → Bool) : List TaskId :=
  (List.range m.tasks.length).filter fun t => (m.tasks[t]?).any fun task => test task.phase

/-- Wakes tasks in order. -/
def wakeAll (ts : List TaskId) : Machine := ts.foldl wake m

/-- Whether a task reads from a connection. -/
def Phase.readsFrom : Phase → Bool
  | .reading d _ => c = d
  | _ => false

/-- Something arrives from the server. -/
def arrive (a : Arrival) : Machine :=
  let m := m.setConnection c fun connection =>
    { connection with arrivals := connection.arrivals ++ [a] }
  m.wakeAll (m.tasksWhere (Phase.readsFrom c))

/-- The server ends its stream. -/
def endStream : Machine :=
  let m := m.setConnection c fun connection => { connection with isEnded := true }
  m.wakeAll (m.tasksWhere (Phase.readsFrom c))

/-- Whether a task is about to write. -/
def Phase.isWriting : Phase → Bool
  | .writing _ _ => true
  | _ => false

/-- Changes what the far end does with what is written. -/
def setMode (mode : WriteMode) : Machine :=
  let m := m.setConnection c fun connection => { connection with mode }
  m.wakeAll (m.tasksWhere Phase.isWriting)

/-- When a task gives up waiting. -/
def Phase.deadline? : Phase → Option Duration
  | .awaiting _ deadline => some deadline
  | _ => none

/-- When a task gives up waiting, zero if it does not. -/
def deadlineOf (t : TaskId) : Nat :=
  (((m.tasks[t]?).bind fun task => Phase.deadline? task.phase).map Duration.nanoseconds).getD 0

/-- Time passes; tasks whose time is over are woken, the earliest first. -/
def passTime (d : Duration) : Machine :=
  let m := { m with clock := ⟨m.clock.nanoseconds + d.nanoseconds⟩ }
  let late := m.tasksWhere fun phase =>
    (Phase.deadline? phase).any fun deadline =>
      decide (deadline.nanoseconds ≤ m.clock.nanoseconds)
  m.wakeAll (late.mergeSort fun a b => decide (m.deadlineOf a ≤ m.deadlineOf b))

/-- The request that a call gives up when it is dropped. -/
def Phase.dispatch? : Phase → Option Dispatch
  | .lockWriter (.send _ (.request d)) => some d
  | .writing _ (.request d) => some d
  | .awaiting d _ => some d
  | _ => none

/-- Drops a call wherever it is: its request is forgotten and its locks are passed on. -/
def drop (t : TaskId) : Machine :=
  match m.tasks[t]? with
  | none => m
  | some task =>
    let m := m.goTo t .finished
    let holdsWriter := m.writerLock.owner = some t
    let m := { m with writerLock := m.writerLock.leave t }
    let m := if holdsWriter then m.wakeAny m.writerLock.owner else m
    let m := match Phase.dispatch? task.phase with
      | some d => m.unregister t d.id
      | none => m
    let holdsSession := m.sessionLock.owner = some t
    let m := { m with sessionLock := m.sessionLock.leave t }
    if holdsSession then m.wakeAny m.sessionLock.owner else m

/-- Handles the notifications of a method in another way from now on. -/
def onNotification (method : String) (handler : Handler) : Machine :=
  { m with handlers := (method, handler) :: m.handlers }

end Machine

end CodeAtlas.Client
