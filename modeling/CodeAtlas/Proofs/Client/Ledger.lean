import CodeAtlas.Proofs.Client.Steps

/-!
# The ledger of requests

The `Ledger` of a client is what matters for its requests: the id that it gives out next, the table
of pending requests, and for every task its phase and what has come for it. Locks, connections, the
queue and the log are left out. Every change that steps are made of is a change of the ledger, and
most of them are none at all: `Machine.ledger` commutes with each of them.
-/

namespace CodeAtlas.Client

open Json (Value)
open Rpc (RequestId)

/-- What a task does next, and what has come for it. -/
structure Seat where
  phase : Phase
  inbox : Inbox

/-- How far a seat is with its request. -/
def Seat.stage (seat : Seat) : Stage := seat.phase.stage

/-- Puts something into an empty inbox. -/
def Seat.put (inbox : Inbox) (seat : Seat) : Seat :=
  match seat.inbox with
  | .empty => { seat with inbox }
  | _ => seat

@[simp]
theorem Seat.stage_put (inbox : Inbox) (seat : Seat) : (seat.put inbox).stage = seat.stage := by
  unfold Seat.put
  split <;> rfl

/-- The part of a task that concerns requests. -/
def Task.seat (task : Task) : Seat := ⟨task.phase, task.inbox⟩

/-- The part of a client that concerns requests. -/
structure Ledger where
  nextId : Int
  pending : List Pending
  seats : List Seat

namespace Ledger

variable (L : Ledger) (t : TaskId) (id : RequestId)

/-- Lets a task go on with a phase. -/
def setPhase (phase : Phase) : Ledger :=
  { L with seats := L.seats.modify t fun seat => { seat with phase } }

/-- Puts something into the inbox of a task. -/
def give (inbox : Inbox) : Ledger :=
  { L with seats := L.seats.modify t (Seat.put inbox) }

/-- Adds a task. -/
def spawn (phase : Phase) : Ledger := { L with seats := L.seats ++ [⟨phase, .empty⟩] }

/-- Takes the entries of an id out of the table. -/
def strike : Ledger :=
  { L with pending := L.pending.filter fun entry => entry.id != id }

/-- The entry of an id. -/
def registered? : Option Pending :=
  L.pending.find? fun entry => entry.id == id

/-- Whether there is an entry of an id. -/
def isPending : Bool := L.pending.any fun entry => entry.id == id

/-- Takes the entry of an id out and gives an outcome to its owner. -/
def resolve (outcome : Outcome) : Ledger :=
  match L.registered? id with
  | some entry => (L.strike id).give entry.owner (.delivered outcome)
  | none => L

/-- Gives outcomes to the owners of entries. -/
def giveAll (outcome : RequestId → Outcome) (L : Ledger) (entries : List Pending) : Ledger :=
  entries.foldl (fun L entry => L.give entry.owner (.delivered (outcome entry.id))) L

/-- Empties the table and gives an outcome to every owner. -/
def resolveAll (outcome : RequestId → Outcome) : Ledger :=
  giveAll outcome { L with pending := [] } L.pending

/-- Takes the entry of an id out when a request of a task ends. -/
def unregister : Ledger :=
  match L.registered? id with
  | none => L
  | some entry =>
    if entry.owner = t then L.strike id else (L.strike id).give entry.owner .abandoned

/-- Adds a request of a task to the table, with nothing come for it. -/
def register : Ledger :=
  { L with
    seats := L.seats.modify t fun seat => { seat with inbox := .empty }
    pending := L.pending ++ [⟨id, t⟩] }

/-- Gives out the next id unless one is supplied. -/
def number : Option RequestId → RequestId × Ledger
  | some id => (id, L)
  | none => (.number L.nextId, { L with nextId := L.nextId + 1 })

theorem number_pending (supplied : Option RequestId) :
    (L.number supplied).2.pending = L.pending := by
  cases supplied <;> rfl

theorem seat_set_phase (u : TaskId) (phase : Phase) :
    (L.setPhase t phase).seats[u]? =
      (L.seats[u]?).map fun seat => if t = u then { seat with phase } else seat := by
  simp only [setPhase, List.getElem?_modify, Option.map_eq_map]

theorem seat_give (u : TaskId) (inbox : Inbox) :
    (L.give t inbox).seats[u]? =
      (L.seats[u]?).map fun seat => if t = u then seat.put inbox else seat := by
  simp only [give, List.getElem?_modify, Option.map_eq_map]

variable {L t id} {seat : Seat} {phase : Phase}

theorem seat_moved {u : TaskId} (h : (L.setPhase t phase).seats[u]? = some seat) :
    t ≠ u ∧ L.seats[u]? = some seat ∨
      t = u ∧ ∃ old, L.seats[u]? = some old ∧ seat = { old with phase } :=
  item_modified h

theorem seat_given {u : TaskId} {inbox : Inbox} (h : (L.give t inbox).seats[u]? = some seat) :
    t ≠ u ∧ L.seats[u]? = some seat ∨
      t = u ∧ ∃ old, L.seats[u]? = some old ∧ seat = old.put inbox :=
  item_modified h

theorem mem_of_entry {entry : Pending} (h : L.registered? id = some entry) :
    entry ∈ L.pending ∧ entry.id = id := by
  have hid : (entry.id == id) = true :=
    List.find?_some (p := fun entry : Pending => entry.id == id) h
  exact ⟨List.mem_of_find?_eq_some h, eq_of_beq hid⟩

theorem entry_of_pending (h : L.isPending id = true) : ∃ entry, L.registered? id = some entry :=
  Option.isSome_iff_exists.mp (List.find?_isSome.trans List.any_eq_true.symm |>.mpr h)

theorem strike_eq_self (h : L.registered? id = none) : L.strike id = L := by
  have hfilter : L.pending.filter (fun entry => entry.id != id) = L.pending := by
    rw [List.filter_eq_self]
    intro entry hmem
    have hne := List.find?_eq_none.mp h entry hmem
    exact bne_iff_ne.mpr fun heq => hne (beq_iff_eq.mpr heq)
  rw [strike, hfilter]

theorem resolve_pending (L : Ledger) (id : RequestId) (outcome : Outcome) :
    (L.resolve id outcome).pending = (L.strike id).pending := by
  cases hentry : L.registered? id with
  | none => simp only [resolve, hentry, strike_eq_self hentry]
  | some entry =>
    simp only [resolve, hentry]
    rfl

theorem unregister_pending (L : Ledger) (t : TaskId) (id : RequestId) :
    (L.unregister t id).pending = (L.strike id).pending := by
  cases hentry : L.registered? id with
  | none => simp only [unregister, hentry, strike_eq_self hentry]
  | some entry =>
    simp only [unregister, hentry]
    split <;> rfl

theorem unregister_alone (h : ∀ entry ∈ L.pending, entry.id = id → entry.owner = t) :
    L.unregister t id = L.strike id := by
  cases hentry : L.registered? id with
  | none => simp only [unregister, hentry, strike_eq_self hentry]
  | some entry =>
    obtain ⟨hmem, hid⟩ := mem_of_entry hentry
    simp only [unregister, hentry, if_pos (h entry hmem hid)]

theorem mem_strike {entry : Pending} :
    entry ∈ (L.strike id).pending ↔ entry ∈ L.pending ∧ entry.id ≠ id := by
  simp only [strike, List.mem_filter, bne_iff_ne]

theorem seat_spawn {u : TaskId} (h : (L.spawn phase).seats[u]? = some seat) :
    L.seats[u]? = some seat ∨ u = L.seats.length ∧ seat = ⟨phase, .empty⟩ :=
  item_pushed h

theorem seat_register (L : Ledger) (t u : TaskId) (id : RequestId) :
    (L.register t id).seats[u]? =
      (L.seats[u]?).map fun seat => if t = u then { seat with inbox := .empty } else seat := by
  simp only [register, List.getElem?_modify, Option.map_eq_map]

/-- The seats after a request is registered and its task goes on with sending it. -/
theorem seat_registered {u : TaskId}
    (h : ((L.register t id).setPhase t phase).seats[u]? = some seat) :
    t ≠ u ∧ L.seats[u]? = some seat ∨ t = u ∧ seat = ⟨phase, .empty⟩ := by
  rcases seat_moved h with ⟨hne, hold⟩ | ⟨rfl, old, hold, rfl⟩
  · rcases item_modified hold with ⟨-, hfirst⟩ | ⟨heq, -⟩
    · exact .inl ⟨hne, hfirst⟩
    · exact absurd heq hne
  · rcases item_modified hold with ⟨hne, -⟩ | ⟨-, first, -, rfl⟩
    · exact absurd rfl hne
    · exact .inr ⟨rfl, rfl⟩

end Ledger

namespace Machine

/-- What matters of a client for its requests. -/
def ledger (m : Machine) : Ledger := ⟨m.nextId, m.pending, m.tasks.map Task.seat⟩

variable {m : Machine} {t : TaskId} {change : Task → Task}

theorem ledger_seat {task : Task} (htask : m.tasks[t]? = some task) :
    m.ledger.seats[t]? = some task.seat := by
  simp only [ledger, List.getElem?_map, htask, Option.map_some]

theorem ledger_set_task (onSeat : Seat → Seat) (h : ∀ task, (change task).seat = onSeat task.seat) :
    (m.setTask t change).ledger = { m.ledger with seats := m.ledger.seats.modify t onSeat } := by
  rw [ledger, setTask, map_modify onSeat fun task _ => h task]
  rfl

theorem ledger_set_task_eq (h : ∀ task, (change task).seat = task.seat) :
    (m.setTask t change).ledger = m.ledger := by
  rw [ledger_set_task id h]
  simp

theorem dull_ledger : IsDull ledger := fun m _ _ _ => ledger_set_task_eq (m := m) fun _ => rfl

/-! ## The ledger after the changes that steps are made of -/

variable (m t) (id : RequestId) (phase : Phase) (outcome : Outcome)

@[simp]
theorem ledger_wake : (m.wake t).ledger = m.ledger := dull_ledger.wake m t

@[simp]
theorem ledger_wake_any (t : Option TaskId) : (m.wakeAny t).ledger = m.ledger :=
  dull_ledger.wake_any m t

@[simp]
theorem ledger_wake_all (ts : List TaskId) : (m.wakeAll ts).ledger = m.ledger :=
  dull_ledger.wake_all m ts

@[simp]
theorem ledger_go_to : (m.goTo t phase).ledger = m.ledger.setPhase t phase :=
  ledger_set_task (fun seat => { seat with phase }) fun _ => rfl

@[simp]
theorem ledger_finish : (m.finish t).ledger = m.ledger.setPhase t .finished :=
  (dull_ledger.finish m t).trans (ledger_go_to m t _)

@[simp]
theorem ledger_return : (m.return_ t outcome).ledger = m.ledger.setPhase t .finished :=
  ledger_finish m t

@[simp]
theorem ledger_ask_session (call : Call) :
    (m.askSession t call).ledger = m.ledger.setPhase t (.lockSession call) :=
  ledger_go_to m t _

@[simp]
theorem ledger_ask_writer (job : Job) :
    (m.askWriter t job).ledger = m.ledger.setPhase t (.lockWriter job) :=
  ledger_go_to m t _

@[simp]
theorem ledger_pass_session : m.passSession.ledger = m.ledger :=
  ledger_wake_any _ _

@[simp]
theorem ledger_pass_writer : m.passWriter.ledger = m.ledger :=
  ledger_wake_any _ _

@[simp]
theorem ledger_spawn : (m.spawn phase).ledger = m.ledger.spawn phase := by
  simp only [spawn, ledger, Ledger.spawn, List.map_append, List.map_cons, List.map_nil, Task.seat]

@[simp]
theorem ledger_deliver : (m.deliver t outcome).ledger = m.ledger.give t (.delivered outcome) := by
  rw [deliver, ledger_wake]
  refine ledger_set_task (Seat.put (.delivered outcome)) fun task => ?_
  cases hinbox : task.inbox <;> simp [Task.seat, Seat.put, hinbox]

@[simp]
theorem ledger_resolve : (m.resolve id outcome).ledger = m.ledger.resolve id outcome := by
  cases hfind : m.pending.find? fun entry => entry.id == id with
  | none =>
    have hentry : m.ledger.registered? id = none := hfind
    simp only [resolve, hfind, Ledger.resolve, hentry]
  | some entry =>
    have hentry : m.ledger.registered? id = some entry := hfind
    simp only [resolve, hfind, Ledger.resolve, hentry, ledger_deliver]
    rfl

theorem ledger_deliver_all (outcome : RequestId → Outcome) (entries : List Pending) (m : Machine) :
    (deliverAll outcome entries m).ledger = m.ledger.giveAll outcome entries := by
  induction entries generalizing m with
  | nil => rfl
  | cons entry rest ih =>
    rw [deliverAll, ih, ledger_deliver]
    rfl

@[simp]
theorem ledger_resolve_all (outcome : RequestId → Outcome) :
    (m.resolveAll outcome).ledger = m.ledger.resolveAll outcome :=
  ledger_deliver_all outcome m.pending _

@[simp]
theorem ledger_unregister : (m.unregister t id).ledger = m.ledger.unregister t id := by
  cases hfind : m.pending.find? fun entry => entry.id == id with
  | none =>
    have hentry : m.ledger.registered? id = none := hfind
    simp only [unregister, hfind, Ledger.unregister, hentry]
  | some entry =>
    have hentry : m.ledger.registered? id = some entry := hfind
    simp only [unregister, hfind, Ledger.unregister, hentry]
    split
    · rfl
    · rw [ledger_wake]
      refine ledger_set_task (Seat.put .abandoned) fun task => ?_
      cases hinbox : task.inbox <;> simp [Task.seat, Seat.put, hinbox]

@[simp]
theorem ledger_register : (m.register t id).ledger = m.ledger.register t id := by
  have hseats : (m.setTask t fun task => { task with inbox := .empty }).ledger = _ :=
    ledger_set_task (fun seat => { seat with inbox := .empty }) fun _ => rfl
  exact congrArg (fun L : Ledger => { L with pending := m.pending ++ [Pending.mk id t] }) hseats

@[simp]
theorem ledger_fail_session :
    m.failSession.ledger = m.ledger.resolveAll fun _ => .error .serverExited :=
  ledger_resolve_all _ _

end Machine

end CodeAtlas.Client
