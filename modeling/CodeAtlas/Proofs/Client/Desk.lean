import CodeAtlas.Proofs.Client.Line
import CodeAtlas.Proofs.Client.Moves

/-!
# The writer and the tasks that use it

The `Desk` of a client is its writer with the lock on it, what each task does next, and what each
connection has accepted. `Desk.Turn` lists the changes of a desk that a turn of a task can make: a
task asks for the writer, gets it when all who asked before have had it, uses it for the one thing
that it asked for, and passes it on. Each change says what the stream of the session has to hold for
it (`Phase.need`). `Machine.desk` commutes with the changes that steps are made of.
-/

namespace CodeAtlas.Client

open Json (Value)
open Rpc (Message RequestId)

/-- Whether a task in this phase is at the writer: it waits for the writer, or has it. -/
def Phase.isAtWriter : Phase → Bool
  | .lockWriter _ => true
  | .writing _ _ => true
  | .shutting _ _ => true
  | _ => false

/-- Whether a task in this phase is at the writer for a call of a user that only an initialized
session takes. -/
def Phase.isTraffic : Phase → Bool
  | .lockWriter (.send _ errand) => errand.isTraffic
  | .writing _ errand => errand.isTraffic
  | _ => false

/-- How much of the handshake must be in the stream of the session before a message is written:
nothing, its request (1), or also the message that confirms it (2). -/
def Errand.need : Errand → Nat
  | .initialized => 1
  | errand => if errand.isTraffic then 2 else 0

/-- How much of the handshake is in the stream once a request has been written. -/
def Purpose.gain : Purpose → Nat
  | .handshake => 1
  | _ => 0

def Errand.gain : Errand → Nat
  | .request d => d.purpose.gain
  | .initialized => 2
  | _ => 0

/-- How much of the handshake must be in the stream of the session in a phase. -/
def Phase.need : Phase → Nat
  | .lockWriter (.send _ errand) => errand.need
  | .writing _ errand => errand.need
  | .sent errand (.ok ()) => errand.gain
  | .awaiting d _ => d.purpose.gain
  | .leaving d (.ok _) => d.purpose.gain
  | .answered d (.ok _) => d.purpose.gain
  | _ => 0

def Errand.Means (message : Message) : Errand → Prop
  | .request d => d.purpose = .handshake → ∃ id params, message = .request id "initialize" params
  | .initialized => message = initializedMessage
  | _ => True

/-- The messages that a task in this phase writes are what they should be. -/
def Phase.IsMeant : Phase → Prop
  | .registered message d => (Errand.request d).Means message
  | .lockWriter (.send message errand) => errand.Means message
  | .writing message errand => errand.Means message
  | _ => True

/-- The writer of a client and the tasks that use it. -/
structure Desk where
  phases : List Phase
  lock : Lock
  writer : Option ConnectionId
  /-- The messages that each connection has accepted. -/
  sent : List (List Message)

namespace Desk

variable (d : Desk)

def setPhase (t : TaskId) (phase : Phase) : Desk :=
  { d with phases := d.phases.set t phase }

def spawn (phases : List Phase) : Desk := { d with phases := d.phases ++ phases }

def ask (t : TaskId) (job : Job) : Desk :=
  { d.setPhase t (.lockWriter job) with lock := d.lock.ask t }

def pass : Desk := { d with lock := d.lock.pass }

def accept (c : ConnectionId) (message : Message) : Desk :=
  { d with sent := d.sent.modify c (· ++ [message]) }

/-- The changes of a desk that a turn of a task can make. Calls of users get to the writer only if
the session is open. -/
inductive Turn (isOpen : Prop) (d : Desk) (t : TaskId) : Desk → Prop where
  | stay : Turn isOpen d t d
  | move {old new : Phase} {spawned : List Phase} (hold : d.phases[t]? = some old)
      (hleaves : old.isAtWriter = false) (hstays : new.isAtWriter = false)
      (hneed : new.need ≤ old.need) (hmeant : new.IsMeant)
      (hspawned : ∀ phase ∈ spawned, phase.isAtWriter = false ∧ phase.need = 0 ∧ phase.IsMeant) :
      Turn isOpen d t ((d.spawn spawned).setPhase t new)
  | ask {old : Phase} {job : Job} (hold : d.phases[t]? = some old)
      (hleaves : old.isAtWriter = false) (hmeant : old.IsMeant → (Phase.lockWriter job).IsMeant)
      (hneed : (Phase.lockWriter job).isTraffic = false ∧
        (Phase.lockWriter job).need ≤ old.need ∨
        (Phase.lockWriter job).isTraffic = true ∧ isOpen) :
      Turn isOpen d t (d.ask t job)
  | take {message : Message} {errand : Errand} (howner : d.lock.owner = some t)
      (hold : d.phases[t]? = some (.lockWriter (.send message errand))) :
      Turn isOpen d t (d.setPhase t (.writing message errand))
  | install {c : ConnectionId} (howner : d.lock.owner = some t)
      (hold : d.phases[t]? = some (.lockWriter (.install c))) :
      Turn isOpen d t ({ d with writer := some c }.pass.setPhase t (.opened c))
  /-- The writer is taken away, and its connection has to be shut. -/
  | close {c : ConnectionId} {ending : Ending} (howner : d.lock.owner = some t)
      (hold : d.phases[t]? = some (.lockWriter (.close ending))) :
      Turn isOpen d t ({ d with writer := none }.setPhase t (.shutting c ending))
  | skip {ending : Ending} (howner : d.lock.owner = some t)
      (hold : d.phases[t]? = some (.lockWriter (.close ending))) :
      Turn isOpen d t (d.pass.setPhase t (.closed ending))
  | write {c : ConnectionId} {message : Message} {errand : Errand}
      (hold : d.phases[t]? = some (.writing message errand)) (hwriter : d.writer = some c)
      (hconnection : c < d.sent.length) :
      Turn isOpen d t ((d.accept c message).pass.setPhase t (.sent errand (.ok ())))
  | balk {message : Message} {errand : Errand} {e : Error}
      (hold : d.phases[t]? = some (.writing message errand)) :
      Turn isOpen d t (d.pass.setPhase t (.sent errand (.error e)))
  | shut {c : ConnectionId} {ending : Ending} (hold : d.phases[t]? = some (.shutting c ending)) :
      Turn isOpen d t (d.pass.setPhase t (.closed ending))

/-- The changes of a desk when a call is dropped. -/
inductive Drop (d : Desk) (t : TaskId) : Desk → Prop where
  | stay : Drop d t d
  | leave {old : Phase} (hold : d.phases[t]? = some old) (hsuspended : old.isSuspended = true) :
      Drop d t ({ d with lock := d.lock.leave t }.setPhase t .finished)

/-- The changes of a desk by what can happen. -/
inductive Step (isOpen : Prop) (d : Desk) : Occurrence → Desk → Prop where
  | turn {t : TaskId} {next : Desk} (h : d.Turn isOpen t next) : Step isOpen d (.turn t) next
  | drop {t : TaskId} {next : Desk} (h : d.Drop t next) : Step isOpen d (.drop t) next
  | call (call : Call) : Step isOpen d (.call call) (d.spawn [.ready call])
  | connect : Step isOpen d .connect { d with sent := d.sent ++ [[]] }
  | pass {occurrence : Occurrence} : Step isOpen d occurrence d

variable {isOpen : Prop} {d next : Desk} {t : TaskId}

theorem Step.turn_of (h : d.Step isOpen (.turn t) next) : d.Turn isOpen t next := by
  cases h with
  | turn h => exact h
  | pass => exact .stay

theorem phase_set {old new : Phase} (hold : d.phases[t]? = some old) :
    (d.phases.set t new)[t]? = some new := by
  obtain ⟨hlength, -⟩ := List.getElem?_eq_some_iff.mp hold
  rw [List.getElem?_set_self hlength]

theorem phase_spawn {old : Phase} {spawned : List Phase} (hold : d.phases[t]? = some old) :
    (d.spawn spawned).phases[t]? = some old :=
  item_kept hold spawned

@[simp]
theorem spawn_nil (d : Desk) : d.spawn [] = d := by
  rw [spawn, List.append_nil]

theorem Turn.go_on {old new : Phase} (hold : d.phases[t]? = some old)
    (hleaves : old.isAtWriter = false) (hstays : new.isAtWriter = false)
    (hneed : new.need ≤ old.need) (hmeant : new.IsMeant) :
    d.Turn isOpen t (d.setPhase t new) := by
  have hmove : d.Turn isOpen t ((d.spawn []).setPhase t new) :=
    .move hold hleaves hstays hneed hmeant (List.forall_mem_nil _)
  rwa [spawn_nil] at hmove

end Desk

def Ledger.phases (L : Ledger) : List Phase := L.seats.map Seat.phase

namespace Machine

variable (m : Machine) (t : TaskId)

def desk : Desk :=
  { phases := m.ledger.phases, lock := m.writerLock, writer := m.view.writer, sent := m.view.sent }

theorem desk_parts : m.desk = ⟨m.tasks.map Task.phase, m.writerLock, m.writer,
    m.connections.map Connection.sent⟩ := by
  have hphases : (m.tasks.map Task.seat).map Seat.phase = m.tasks.map Task.phase := List.map_map
  rw [desk, Ledger.phases, ledger, hphases]
  rfl

theorem desk_set_connection {m : Machine} {c : ConnectionId} {change : Connection → Connection}
    (h : (m.setConnection c change).view = m.view) : (m.setConnection c change).desk = m.desk := by
  rw [desk, desk, h]
  rfl

theorem desk_phase {m : Machine} {t : TaskId} {task : Task} (htask : m.tasks[t]? = some task) :
    m.desk.phases[t]? = some task.phase := by
  rw [desk_parts, List.getElem?_map, htask, Option.map_some]

theorem task_of_phase {m : Machine} {t : TaskId} {phase : Phase}
    (h : m.desk.phases[t]? = some phase) :
    ∃ task, m.tasks[t]? = some task ∧ task.phase = phase := by
  rw [desk_parts, List.getElem?_map] at h
  exact Option.map_eq_some_iff.mp h

theorem desk_duty {m : Machine} {t : TaskId} {phase : Phase}
    (h : m.desk.phases[t]? = some phase) : m.view.duty? t = some phase.duty := by
  obtain ⟨task, htask, rfl⟩ := task_of_phase h
  exact view_duty htask

theorem desk_set_task {m : Machine} {t : TaskId} {change : Task → Task}
    (h : ∀ task, (change task).phase = task.phase) : (m.setTask t change).desk = m.desk := by
  rw [desk_parts, desk_parts, setTask, map_modify id fun task _ => h task, List.modify_id]

theorem deaf_desk : IsDeaf desk where
  dull m _ _ _ := desk_set_task (m := m) fun _ => rfl
  pending _ _ := rfl
  inbox _ _ _ h := desk_set_task fun task => by
    obtain ⟨_, heq⟩ := h task
    rw [heq]

/-! ## The desk after the changes that steps are made of -/

@[simp]
theorem desk_go_to (phase : Phase) : (m.goTo t phase).desk = m.desk.setPhase t phase := by
  rw [desk_parts, desk_parts, goTo, setTask, map_modify (fun _ => phase) fun _ _ => rfl,
    @List.modify_eq_set _ ⟨phase⟩]
  rfl

@[simp]
theorem desk_wake : (m.wake t).desk = m.desk := deaf_desk.dull.wake m t

@[simp]
theorem desk_wake_all (ts : List TaskId) : (m.wakeAll ts).desk = m.desk :=
  deaf_desk.dull.wake_all m ts

@[simp]
theorem desk_ask_writer (job : Job) : (m.askWriter t job).desk = m.desk.ask t job :=
  congrArg (fun d : Desk => { d with lock := m.writerLock.ask t }) (desk_go_to m t (.lockWriter job))

@[simp]
theorem desk_ask_session (call : Call) :
    (m.askSession t call).desk = m.desk.setPhase t (.lockSession call) :=
  desk_go_to m t (.lockSession call)

@[simp]
theorem desk_pass_writer : m.passWriter.desk = m.desk.pass := deaf_desk.dull.wake_any _ _

@[simp]
theorem desk_pass_session : m.passSession.desk = m.desk := deaf_desk.dull.wake_any _ _

@[simp]
theorem desk_finish : (m.finish t).desk = m.desk.setPhase t .finished :=
  (deaf_desk.dull.finish m t).trans (desk_go_to m t _)

@[simp]
theorem desk_return (outcome : Outcome) :
    (m.return_ t outcome).desk = m.desk.setPhase t .finished :=
  desk_finish m t

@[simp]
theorem desk_spawn (phase : Phase) : (m.spawn phase).desk = m.desk.spawn [phase] := by
  rw [desk_parts, desk_parts, spawn, List.map_append]
  rfl

@[simp]
theorem desk_resolve (id : RequestId) (outcome : Outcome) : (m.resolve id outcome).desk = m.desk :=
  deaf_desk.resolve m id outcome

@[simp]
theorem desk_resolve_all (outcome : RequestId → Outcome) : (m.resolveAll outcome).desk = m.desk :=
  deaf_desk.resolve_all m outcome

@[simp]
theorem desk_unregister (id : RequestId) : (m.unregister t id).desk = m.desk :=
  deaf_desk.unregister m t id

@[simp]
theorem desk_register (id : RequestId) : (m.register t id).desk = m.desk :=
  deaf_desk.register m t id

@[simp]
theorem desk_fail_session : m.failSession.desk = m.desk := desk_resolve_all _ _

@[simp]
theorem desk_fail_on (e : Error) : (m.failOn e).desk = m.desk := by
  unfold failOn
  split
  · exact desk_fail_session m
  · rfl

@[simp]
theorem desk_lose_connection (fault : Option String) : (m.loseConnection fault).desk = m.desk := by
  unfold loseConnection
  split
  · rfl
  · rfl
  · rw [desk_fail_session]
    cases fault <;> rfl

@[simp]
theorem desk_fail_startup (e : Error) :
    (m.failStartup t e).desk = m.desk.setPhase t (.tearDown (.failed e)) :=
  desk_go_to _ _ _

variable {m t}

/-- A request is refused, or it is to be sent under the id that was supplied if there is one. -/
theorem desk_dispatch (m : Machine) (t : TaskId) (method : String) (params : Option Value)
    (id : Option RequestId) (after : Time.Duration) (purpose : Purpose) :
    ∃ number, (∀ supplied, id = some supplied → number = supplied) ∧
      ((m.dispatch t method params id after purpose).desk =
          m.desk.setPhase t (.answered ⟨number, method, after, purpose⟩
            (.error (.duplicateId number))) ∨
        (m.dispatch t method params id after purpose).desk =
          m.desk.setPhase t (.registered (.request number method params)
            ⟨number, method, after, purpose⟩)) := by
  refine ⟨id.getD (.number m.nextId), fun _ hid => by rw [hid]; rfl, ?_⟩
  cases id <;>
  · simp only [dispatch]
    split
    · exact .inl (desk_go_to _ _ _)
    · rw [desk_go_to, desk_register]
      exact .inr rfl

end Machine

end CodeAtlas.Client
