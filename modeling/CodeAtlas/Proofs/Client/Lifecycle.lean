import CodeAtlas.Proofs.Client.Steps

/-!
# What a session is made of, and how it changes

A `View` is the part of a client that its session is made of: what the client was made with, the
state and the changes that led to it, the lifecycle lock, the writer, the reading loop, the process,
the capabilities, what each task has to do for the session (its `Duty`) and what each connection has
accepted. `View.Turn` lists the changes of a view that a turn of a task can make, `View.Step` those
of any occurrence, and `perform_step` says that there are no others. A step describes more than can
happen: who holds the lock, and in which state a duty is done, is left to invariants.
-/

namespace CodeAtlas.Client

open Json (Value)
open Rpc (Message)

/-- What a task has to do for the session. -/
inductive Duty where
  /-- Nothing: it is a call of a user, or answers the server. -/
  | idle
  /-- Has to ask for the lifecycle lock, to stop a session or to start one. -/
  | asking (isStop : Bool)
  /-- Waits for the lifecycle lock, to stop a session or to start one. -/
  | waiting (isStop : Bool)
  | reading (connection : ConnectionId)
  | opening (connection : ConnectionId)
  | opened (connection : ConnectionId)
  /-- Makes the handshake, and has not had a valid answer or has failed to confirm it. -/
  | greeting
  | confirming (message : Message)
  | confirmed
  | parting
  | quitting
  | tearing (ending : Ending)
  | releasing (ending : Ending)
  | closed (ending : Ending)
  /-- Nothing any more: it has returned or was dropped. -/
  | finished
deriving DecidableEq

/-- What a call has to do for the session. -/
def Call.duty : Call → Duty
  | .start => .asking false
  | .attach _ => .asking false
  | .stop => .asking true
  | _ => .idle

/-- What a call that has asked for the lifecycle lock has to do. -/
def Call.dutyAfter : Call → Duty
  | .start => .waiting false
  | .attach _ => .waiting false
  | .stop => .waiting true
  | _ => .idle

/-- What is left to do with a request. -/
def Purpose.duty : Purpose → Duty
  | .user _ => .idle
  | .handshake => .greeting
  | .shutdown => .parting

/-- What is left to do with a message that has not been sent. -/
def Errand.duty (message : Message) : Errand → Duty
  | .request d => d.purpose.duty
  | .initialized => .confirming message
  | .exit => .quitting
  | _ => .idle

/-- What is left to do after a message was sent or could not be sent. -/
def Errand.dutyAfter : Errand → Except Error Unit → Duty
  | .request d, _ => d.purpose.duty
  | .initialized, .ok () => .confirmed
  | .initialized, .error _ => .greeting
  | .exit, _ => .quitting
  | _, _ => .idle

/-- What is left to do with a job. -/
def Job.duty : Job → Duty
  | .install connection => .opening connection
  | .send message errand => errand.duty message
  | .close ending => .releasing ending

/-- What a task in a phase has to do for the session. -/
def Phase.duty : Phase → Duty
  | .ready call => call.duty
  | .admitted _ => .idle
  | .registered _ d => d.purpose.duty
  | .revoked _ => .idle
  | .reply _ _ => .idle
  | .lockSession call => call.dutyAfter
  | .lockWriter job => job.duty
  | .writing message errand => errand.duty message
  | .sent errand result => errand.dutyAfter result
  | .awaiting d _ => d.purpose.duty
  | .leaving d _ => d.purpose.duty
  | .answered d _ => d.purpose.duty
  | .opened connection => .opened connection
  | .tearDown ending => .tearing ending
  | .joining _ ending => .releasing ending
  | .shutting _ ending => .closed ending
  | .closed ending => .closed ending
  | .reading connection _ => .reading connection
  | .finished => .finished

/-- Whether this duty is that of a reading loop, of a task that has closed the writer to end a
session, or of one that has ended. -/
def Duty.isLast : Duty → Bool
  | .reading _ => true
  | .closed _ => true
  | .finished => true
  | _ => false

/-- Whether a task in this phase reads, has closed the writer to end a session, or has ended. -/
def Phase.isLast : Phase → Bool
  | .reading _ _ => true
  | .shutting _ _ => true
  | .closed _ => true
  | .finished => true
  | _ => false

/-- Tasks that send messages or wait for responses have other duties. -/
theorem Phase.duty_is_last (phase : Phase) : phase.duty.isLast = phase.isLast := by
  have hpurpose (purpose : Purpose) : purpose.duty.isLast = false := by cases purpose <;> rfl
  have herrand (message : Message) (errand : Errand) : (errand.duty message).isLast = false := by
    cases errand with
    | request d => exact hpurpose d.purpose
    | notification | cancellation | initialized | exit | reply => rfl
  cases phase with
  | ready call | lockSession call => cases call <;> rfl
  | lockWriter job =>
    cases job with
    | send message errand => exact herrand message errand
    | install | close => rfl
  | writing message errand => exact herrand message errand
  | sent errand result =>
    cases errand with
    | request d => exact hpurpose d.purpose
    | initialized => cases result <;> rfl
    | notification | cancellation | exit | reply => rfl
  | registered _ d | awaiting d | leaving d | answered d => exact hpurpose d.purpose
  | _ => rfl

variable {c : ConnectionId} {duty : Duty} {errand : Errand}

theorem reading_of_duty {phase : Phase} (h : phase.duty = .reading c) :
    ∃ buffer, phase = .reading c buffer := by
  have hlast := phase.duty_is_last
  rw [h] at hlast
  cases phase with
  | reading c buffer =>
    cases h
    exact ⟨buffer, rfl⟩
  | shutting | closed | finished => cases h
  | _ => cases hlast

/-- What a task is to the session. -/
structure Post where
  duty : Duty
  isAborted : Bool
deriving DecidableEq

/-- What a task is to the session. -/
def Task.post (task : Task) : Post := ⟨task.phase.duty, task.isAborted⟩

/-- The part of a client that its session is made of. -/
structure View where
  provider : Server.Provider
  options : Options
  workspace : String
  folder : Except Error Uri
  folders : Value
  state : State
  changes : List (State × State)
  lock : Lock
  writer : Option ConnectionId
  reader : Option TaskId
  hasProcess : Bool
  capabilities : Option Value
  posts : List Post
  sent : List (List Message)

namespace View

variable (v : View) (t : TaskId)

/-- The task that has the lifecycle lock. -/
def owner : Option TaskId := v.lock.owner

/-- Gives a task another duty. -/
def setDuty (duty : Duty) : View :=
  { v with posts := v.posts.modify t fun post => { post with duty } }

/-- Adds tasks. -/
def spawn (duties : List Duty) : View :=
  { v with posts := v.posts ++ duties.map fun duty => ⟨duty, false⟩ }

/-- Tells a task to end. -/
def abort : View :=
  { v with posts := v.posts.modify t fun post => { post with isAborted := true } }

/-- A connection takes a message. -/
def accept (c : ConnectionId) (message : Message) : View :=
  { v with sent := v.sent.modify c (· ++ [message]) }

/-- Goes to a state, whether that is legal or not. -/
def force (target : State) : View :=
  { v with state := target, changes := v.changes ++ v.state.changeTo target }

/-- Marks the session as failed. -/
def fail : View := v.force v.state.failed

/-- The duty of a task. -/
def duty? : Option Duty := (v.posts[t]?).map Post.duty

theorem duty_set_duty (u : TaskId) (duty : Duty) :
    (v.setDuty t duty).duty? u = if t = u then (v.duty? u).map fun _ => duty else v.duty? u := by
  simp only [duty?, setDuty, List.getElem?_modify, Option.map_eq_map, Option.map_map]
  split <;> rfl

@[simp]
theorem spawn_nil : v.spawn [] = v := by
  simp only [spawn, List.map_nil, List.append_nil]

theorem spawn_append (first more : List Duty) :
    (v.spawn first).spawn more = v.spawn (first ++ more) := by
  simp only [spawn, List.map_append, List.append_assoc]

theorem duty_abort (u : TaskId) : (v.abort t).duty? u = v.duty? u := by
  simp only [duty?, abort, List.getElem?_modify, Option.map_eq_map, Option.map_map]
  congr 1
  funext post
  simp only [Function.comp_apply]
  split <;> rfl

variable {v t}

theorem duty_set_duty_self {old : Duty} (h : v.duty? t = some old) :
    (v.setDuty t duty).duty? t = some duty := by
  rw [duty_set_duty, if_pos rfl, h, Option.map_some]

theorem duty_set_duty_ne {u : TaskId} (h : t ≠ u) : (v.setDuty t duty).duty? u = v.duty? u := by
  rw [duty_set_duty, if_neg h]

theorem duty_of_set_duty {u : TaskId} {d : Duty} (h : (v.setDuty t duty).duty? u = some d) :
    t = u ∧ d = duty ∨ t ≠ u ∧ v.duty? u = some d := by
  by_cases htu : t = u
  · rw [duty_set_duty, if_pos htu] at h
    obtain ⟨_, -, rfl⟩ := Option.map_eq_some_iff.mp h
    exact .inl ⟨htu, rfl⟩
  · exact .inr ⟨htu, duty_set_duty_ne htu ▸ h⟩

theorem set_duty_eq_self (h : v.duty? t = some duty) : v.setDuty t duty = v := by
  obtain ⟨post, hpost, rfl⟩ := Option.map_eq_some_iff.mp h
  have hposts : (v.posts.modify t fun old => { old with duty := post.duty }) = v.posts := by
    apply List.ext_getElem?
    intro u
    rw [List.getElem?_modify]
    split
    · next htu => rw [← htu, hpost]; rfl
    · exact id_map _
  rw [setDuty, hposts]

theorem duty_spawn_of_some {duties : List Duty} (h : v.duty? t = some duty) :
    (v.spawn duties).duty? t = some duty := by
  obtain ⟨post, hpost, rfl⟩ := Option.map_eq_some_iff.mp h
  rw [duty?, spawn, item_kept hpost, Option.map_some]

theorem duty_spawn {duties : List Duty} (h : (v.spawn duties).duty? t = some duty) :
    v.duty? t = some duty ∨ duty ∈ duties := by
  obtain ⟨post, hpost, rfl⟩ := Option.map_eq_some_iff.mp h
  rcases item_appended hpost with hold | ⟨-, hnew⟩
  · exact .inl (by rw [duty?, hold, Option.map_some])
  · obtain ⟨duty, hmem, rfl⟩ := List.mem_map.mp hnew
    exact .inr hmem

/-- The changes of a view that a turn of a task can make. -/
inductive Turn (v : View) (t : TaskId) : View → Prop where
  | stay : v.Turn t v
  | answer (n : Nat) : v.Turn t (v.spawn (List.replicate n .idle))
  | finish (hduty : v.duty? t = some .idle) : v.Turn t (v.setDuty t .finished)
  | abort {post : Post} (hpost : v.posts[t]? = some post) (haborted : post.isAborted = true) :
      v.Turn t (v.setDuty t .finished)
  | write {c : ConnectionId} {message : Message} {errand : Errand} (hwriter : v.writer = some c)
      (hconnection : c < v.sent.length) (hduty : v.duty? t = some (errand.duty message)) :
      v.Turn t ((v.accept c message).setDuty t (errand.dutyAfter (.ok ())))
  | balk {message : Message} (hduty : v.duty? t = some (.confirming message)) :
      v.Turn t (v.setDuty t .greeting)
  | fail : v.Turn t v.fail
  | lose {duty : Duty} (hduty : v.duty? t = some duty)
      (hfree : duty = .idle ∨ ∃ c, duty = .reading c) : v.Turn t (v.fail.setDuty t .finished)
  | ask {isStop : Bool} (hduty : v.duty? t = some (.asking isStop)) :
      v.Turn t ({ v with lock := v.lock.ask t }.setDuty t (.waiting isStop))
  /-- A call gives the lifecycle lock back: there is nothing to stop, or no session can be
  started. -/
  | refuse {isStop : Bool} (howner : v.owner = some t) (hduty : v.duty? t = some (.waiting isStop))
      (hstate : isStop = true ↔ v.state = .disconnected) :
      v.Turn t ({ v with lock := v.lock.pass }.setDuty t .finished)
  /-- A call that has no use for the lifecycle lock gives it back. -/
  | stray (howner : v.owner = some t) (hduty : v.duty? t = some .idle) :
      v.Turn t ({ v with lock := v.lock.pass }.setDuty t .finished)
  | begin {c : ConnectionId} {hasProcess : Bool} (howner : v.owner = some t)
      (hduty : v.duty? t = some (.waiting false)) (hstate : v.state = .disconnected) :
      v.Turn t ({ v.force .connecting with hasProcess }.setDuty t (.opening c))
  /-- The server cannot be launched. -/
  | misfire {e : Error} {hasProcess : Bool} (howner : v.owner = some t)
      (hduty : v.duty? t = some (.waiting false)) (hstate : v.state = .disconnected) :
      v.Turn t ({ (v.force .connecting).force .error with hasProcess }.setDuty t
        (.tearing (.failed e)))
  | part (howner : v.owner = some t) (hduty : v.duty? t = some (.waiting true))
      (hstate : v.state = .connected ∨ v.state = .initialized) : v.Turn t (v.setDuty t .parting)
  | halt (howner : v.owner = some t) (hduty : v.duty? t = some (.waiting true))
      (hstate : v.state ≠ .disconnected ∧ v.state ≠ .connected ∧ v.state ≠ .initialized) :
      v.Turn t ((v.force .shuttingDown).setDuty t (.tearing .stopped))
  | install {c : ConnectionId} (hduty : v.duty? t = some (.opening c)) :
      v.Turn t ({ v with writer := some c }.setDuty t (.opened c))
  | greet {c : ConnectionId} {root : Uri} (hduty : v.duty? t = some (.opened c))
      (hstate : v.state = .connecting) (hfolder : v.folder = .ok root) :
      v.Turn t (({ (v.force .connected).force .initializing with
        reader := some v.posts.length
        folders := foldersValue root v.workspace }.spawn [.reading c]).setDuty t .greeting)
  /-- The reading loop is started, and the workspace has no name to greet with. -/
  | stumble {c : ConnectionId} {e : Error} (hduty : v.duty? t = some (.opened c))
      (hstate : v.state = .connecting) (hfolder : v.folder = .error e) :
      v.Turn t (({ (v.force .connected).force .error with
        reader := some v.posts.length }.spawn [.reading c]).setDuty t (.tearing (.failed e)))
  /-- A session that has a writer cannot be started further. -/
  | giveUp {duty : Duty} {e : Error} (hduty : v.duty? t = some duty)
      (hstage : (∃ c, duty = .opened c) ∨ duty = .greeting ∨ duty = .confirmed) :
      v.Turn t ((v.force .error).setDuty t (.tearing (.failed e)))
  | approve {result : Value} (hduty : v.duty? t = some .greeting)
      (hvalid : v.provider.validate result = .ok ()) :
      v.Turn t ({ v with capabilities := result.member? "capabilities" }.setDuty t
        (.confirming initializedMessage))
  | complete (hduty : v.duty? t = some .confirmed) (hstate : v.state = .initializing) :
      v.Turn t ({ v.force .initialized with lock := v.lock.pass }.setDuty t .finished)
  | dismiss (hduty : v.duty? t = some .parting) :
      v.Turn t ((v.force .shuttingDown).setDuty t .quitting)
  | quit (hduty : v.duty? t = some .quitting) :
      v.Turn t ((v.force .shuttingDown).setDuty t (.tearing .stopped))
  | unread {r : TaskId} {ending : Ending} (hduty : v.duty? t = some (.tearing ending))
      (hreader : v.reader = some r) :
      v.Turn t (({ v with reader := none }.abort r).setDuty t (.releasing ending))
  | forgo {ending : Ending} (hduty : v.duty? t = some (.tearing ending))
      (hreader : v.reader = none) : v.Turn t (v.setDuty t (.releasing ending))
  | release {ending : Ending} (hduty : v.duty? t = some (.releasing ending)) :
      v.Turn t ({ v with writer := none }.setDuty t (.closed ending))
  /-- A session that could not be started ends. -/
  | concede {e : Error} (hduty : v.duty? t = some (.closed (.failed e))) :
      v.Turn t ({ v with hasProcess := false, capabilities := none, lock := v.lock.pass }.setDuty t
        .finished)
  | conclude (hduty : v.duty? t = some (.closed .stopped)) :
      v.Turn t ({ v.force .disconnected with
        hasProcess := false, capabilities := none, lock := v.lock.pass }.setDuty t .finished)

/-- The changes of a view when a call is dropped. -/
inductive Drop (v : View) (t : TaskId) : View → Prop where
  /-- The task is no call that waits. -/
  | stay : v.Drop t v
  /-- The call ends where it waits; the lifecycle lock is passed on if it is the call's. -/
  | leave {post : Post} (hpost : v.posts[t]? = some post) (hreading : ∀ c, post.duty ≠ .reading c) :
      v.Drop t ({ v with lock := v.lock.leave t }.setDuty t .finished)

/-- The changes of a view by what can happen. -/
inductive Step (v : View) : Occurrence → View → Prop where
  | turn {t : TaskId} {next : View} (h : v.Turn t next) : v.Step (.turn t) next
  | drop {t : TaskId} {next : View} (h : v.Drop t next) : v.Step (.drop t) next
  | call (call : Call) : v.Step (.call call) (v.spawn [call.duty])
  | connect : v.Step .connect { v with sent := v.sent ++ [[]] }
  | relocate (folder : Except Error Uri) : v.Step (.relocate folder) { v with folder }
  | pass {occurrence : Occurrence} : v.Step occurrence v

variable {v next : View} {t : TaskId} {duty : Duty}

theorem Step.turn_of (h : v.Step (.turn t) next) : v.Turn t next := by
  cases h with
  | turn h => exact h
  | pass => exact .stay

theorem Step.state_eq {occurrence : Occurrence} (h : v.Step occurrence next)
    (hturn : ∀ t, occurrence ≠ .turn t) : next.state = v.state := by
  cases h with
  | turn => exact absurd rfl (hturn _)
  | drop hdrop => cases hdrop <;> rfl
  | call | connect | relocate | pass => rfl

theorem Turn.then_keep (hturn : v.Turn t next) (h : next.duty? t = some duty) :
    v.Turn t (next.setDuty t duty) := by
  rw [set_duty_eq_self h]
  exact hturn

theorem Turn.keep (h : v.duty? t = some duty) : v.Turn t (v.setDuty t duty) :=
  Turn.stay.then_keep h

/-- A message that is accepted leaves its task with what it had to do, unless it confirms a
handshake. -/
theorem set_duty_accept {message : Message} (hduty : v.duty? t = some (errand.duty message))
    (hother : errand ≠ .initialized) :
    (v.accept c message).setDuty t (errand.dutyAfter (.ok ())) = v.accept c message := by
  have hsame : errand.dutyAfter (.ok ()) = errand.duty message := by
    cases errand with
    | initialized => exact absurd rfl hother
    | request | notification | cancellation | exit | reply => rfl
  rw [hsame]
  exact set_duty_eq_self hduty

theorem force_state (v : View) : v.force v.state = v := by
  simp only [force, State.changeTo, ↓reduceIte, List.append_nil]

/-- A startup that fails after the session has failed does not show the failure. -/
theorem fail_force_error (v : View) : v.fail.force .error = v.force .error := by
  have hchanges : v.state.changeTo v.state.failed ++ v.state.failed.changeTo .error =
      v.state.changeTo .error := by
    cases v.state <;> rfl
  simp only [fail, force, List.append_assoc, hchanges]

end View

namespace Machine

/-- What the session of a client is made of. -/
def view (m : Machine) : View :=
  { provider := m.provider
    options := m.options
    workspace := m.workspace
    folder := m.folder
    folders := m.folders
    state := m.state
    changes := m.changes
    lock := m.sessionLock
    writer := m.writer
    reader := m.reader
    hasProcess := m.hasProcess
    capabilities := m.capabilities
    posts := m.tasks.map Task.post
    sent := m.connections.map Connection.sent }

variable {m next : Machine} {t : TaskId} {change : Connection → Connection} {task : Task}

theorem view_post (htask : m.tasks[t]? = some task) : m.view.posts[t]? = some task.post := by
  simp only [view, List.getElem?_map, htask, Option.map_some]

theorem view_duty (htask : m.tasks[t]? = some task) : m.view.duty? t = some task.phase.duty := by
  rw [View.duty?, view_post htask]
  rfl

theorem task_of_duty (h : m.view.duty? t = some duty) :
    ∃ task, m.tasks[t]? = some task ∧ task.phase.duty = duty := by
  obtain ⟨post, hpost, rfl⟩ := Option.map_eq_some_iff.mp h
  simp only [view, List.getElem?_map] at hpost
  obtain ⟨task, htask, rfl⟩ := Option.map_eq_some_iff.mp hpost
  exact ⟨task, htask, rfl⟩

theorem view_set_task {change : Task → Task} (onPost : Post → Post)
    (h : ∀ task, (change task).post = onPost task.post) :
    (m.setTask t change).view = { m.view with posts := m.view.posts.modify t onPost } := by
  rw [view, setTask, map_modify onPost fun task _ => h task]
  rfl

theorem view_set_task_eq {change : Task → Task} (h : ∀ task, (change task).post = task.post) :
    (m.setTask t change).view = m.view := by
  rw [view_set_task id h]
  simp

theorem view_set_connection (onSent : List Message → List Message)
    (h : ∀ connection, m.connections[c]? = some connection →
      (change connection).sent = onSent connection.sent) :
    (m.setConnection c change).view = { m.view with sent := m.view.sent.modify c onSent } := by
  rw [view, setConnection, map_modify onSent h]
  rfl

theorem view_set_connection_eq (h : ∀ connection, m.connections[c]? = some connection →
      (change connection).sent = connection.sent) : (m.setConnection c change).view = m.view := by
  rw [view_set_connection id h]
  simp

theorem deaf_view : IsDeaf view where
  dull m _ _ _ := view_set_task_eq (m := m) fun _ => rfl
  pending _ _ := rfl
  inbox _ _ _ h := view_set_task_eq fun task => by
    obtain ⟨_, heq⟩ := h task
    rw [heq]
    rfl

/-! ## The view after the changes that steps are made of -/

variable (m t) (phase : Phase) (outcome : Outcome) (id : Rpc.RequestId)

@[simp]
theorem view_wake : (m.wake t).view = m.view := deaf_view.dull.wake m t

@[simp]
theorem view_wake_all (ts : List TaskId) : (m.wakeAll ts).view = m.view :=
  deaf_view.dull.wake_all m ts

@[simp]
theorem view_go_to : (m.goTo t phase).view = m.view.setDuty t phase.duty :=
  view_set_task (fun post => { post with duty := phase.duty }) fun _ => rfl

@[simp]
theorem view_finish : (m.finish t).view = m.view.setDuty t .finished :=
  (deaf_view.dull.finish m t).trans (view_go_to m t _)

@[simp]
theorem view_return : (m.return_ t outcome).view = m.view.setDuty t .finished :=
  view_finish m t

@[simp]
theorem view_ask_session (call : Call) :
    (m.askSession t call).view =
      { m.view with lock := m.view.lock.ask t }.setDuty t call.dutyAfter :=
  congrArg (fun v : View => { v with lock := v.lock.ask t }) (view_go_to m t (.lockSession call))

@[simp]
theorem view_ask_writer (job : Job) : (m.askWriter t job).view = m.view.setDuty t job.duty :=
  view_go_to m t (.lockWriter job)

@[simp]
theorem view_pass_session : m.passSession.view = { m.view with lock := m.view.lock.pass } :=
  deaf_view.dull.wake_any _ _

@[simp]
theorem view_pass_writer : m.passWriter.view = m.view := deaf_view.dull.wake_any _ _

@[simp]
theorem view_spawn : (m.spawn phase).view = m.view.spawn [phase.duty] := by
  simp only [spawn, view, View.spawn, List.map_append, List.map_cons, List.map_nil, Task.post]

theorem view_spawn_reader (reader : Option TaskId) :
    { m.spawn phase with reader }.view = { m.view with reader }.spawn [phase.duty] :=
  congrArg (fun v : View => { v with reader }) (view_spawn m phase)

@[simp]
theorem view_resolve : (m.resolve id outcome).view = m.view :=
  deaf_view.resolve m id outcome

@[simp]
theorem view_resolve_all (outcome : Rpc.RequestId → Outcome) :
    (m.resolveAll outcome).view = m.view :=
  deaf_view.resolve_all m outcome

@[simp]
theorem view_unregister : (m.unregister t id).view = m.view :=
  deaf_view.unregister m t id

@[simp]
theorem view_register : (m.register t id).view = m.view :=
  deaf_view.register m t id

@[simp]
theorem view_fail_session : m.failSession.view = m.view.fail :=
  view_resolve_all _ _

@[simp]
theorem view_fail_on (e : Error) :
    (m.failOn e).view = if e.isTransport then m.view.fail else m.view := by
  unfold failOn
  split
  · exact view_fail_session m
  · rfl

@[simp]
theorem view_dispatch (method : String) (params : Option Value) (id : Option Rpc.RequestId)
    (after : Time.Duration) (purpose : Purpose) :
    (m.dispatch t method params id after purpose).view = m.view.setDuty t purpose.duty := by
  cases id <;>
  · simp only [dispatch]
    split
    · exact view_go_to _ _ _
    · rw [view_go_to, view_register]
      rfl

@[simp]
theorem view_fail_startup (e : Error) :
    (m.failStartup t e).view = (m.view.force .error).setDuty t (.tearing (.failed e)) :=
  view_go_to _ _ _

variable {m t}

/-- The end of a connection fails a session, unless it is ending anyway. -/
@[simp]
theorem view_lose_connection (m : Machine) (fault : Option String) :
    (m.loseConnection fault).view = m.view.fail := by
  have hstay (h : m.view.state.failed = m.view.state) : m.view = m.view.fail := by
    rw [View.fail, h, View.force_state]
  unfold loseConnection
  split
  · next h => exact hstay (by rw [show m.view.state = .shuttingDown from h]; rfl)
  · next h => exact hstay (by rw [show m.view.state = .disconnected from h]; rfl)
  · rw [view_fail_session]
    split <;> rfl

theorem view_handle (m : Machine) (value : Value) :
    ∃ n, (m.handle value).view = m.view.spawn (List.replicate n .idle) := by
  have hstay {next : Machine} (h : next.view = m.view) :
      ∃ n, next.view = m.view.spawn (List.replicate n .idle) :=
    ⟨0, by rw [h, List.replicate_zero, View.spawn_nil]⟩
  unfold handle
  split
  · exact hstay rfl
  · exact hstay (view_resolve m _ _)
  · exact ⟨1, view_spawn m _⟩
  · obtain ⟨_, _, heq⟩ := handle_notification_eq m _ _
    exact hstay (by rw [heq]; rfl)

theorem view_handle_all (frames : List (Except Wire.FrameError Value)) (m : Machine) :
    ∃ n, (m.handleAll frames).view = m.view.spawn (List.replicate n .idle) := by
  induction frames generalizing m with
  | nil => exact ⟨0, (View.spawn_nil m.view).symm⟩
  | cons frame rest ih =>
    cases frame with
    | error e => exact ih _
    | ok value =>
      obtain ⟨first, hfirst⟩ := view_handle m value
      obtain ⟨more, hmore⟩ := ih (m.handle value)
      refine ⟨first + more, ?_⟩
      rw [handleAll, hmore, hfirst, View.spawn_append, List.replicate_append_replicate]

theorem sent_of_read {connection next : Connection} {reading : Reading}
    (h : connection.read = some (reading, next)) : next.sent = connection.sent := by
  revert h
  fun_cases Connection.read <;> rintro ⟨⟩ <;> rfl

theorem view_read {reading : Reading} {connection : Connection}
    (h : (m.connection? c).bind Connection.read = some (reading, connection)) :
    (m.setConnection c fun _ => connection).view = m.view := by
  refine view_set_connection_eq fun old hold => ?_
  rw [connection?, hold, Option.bind_some] at h
  exact sent_of_read h

theorem view_conclude (ending : Ending) :
    (m.conclude t ending).view =
      { match ending with
        | .failed _ => m.view
        | .stopped => m.view.force .disconnected with
        hasProcess := false, capabilities := none,
        lock := m.view.lock.pass }.setDuty t .finished := by
  have hclean := congrArg (fun v : View => { v with capabilities := none })
    (view_resolve_all { m with hasProcess := false } fun id => .error (.cancelled id))
  cases ending with
  | failed e =>
    refine (view_return _ t _).trans ?_
    rw [view_pass_session]
    exact congrArg (fun v : View => { v with lock := v.lock.pass }.setDuty t .finished) hclean
  | stopped =>
    refine (view_return _ t _).trans ?_
    rw [view_pass_session]
    exact congrArg (fun v : View =>
      { v.force .disconnected with lock := v.lock.pass }.setDuty t .finished) hclean

/-- What a task does with a step is a turn of the view. -/
theorem Steps.turn {phase : Phase} (h : m.Steps t phase next)
    (hduty : m.view.duty? t = some phase.duty) : m.view.Turn t next.view := by
  cases h <;> simp only [Machine.leave, Machine.shut, sayGoodbye, view_ask_session,
    view_ask_writer, view_conclude, view_dispatch, view_fail_on, view_fail_startup, view_finish,
    view_go_to, view_lose_connection, view_pass_session, view_pass_writer, view_resolve,
    view_return, view_spawn_reader, view_unregister, view_wake]
  case cancel | request | notify | send | tell | reply | take | wait | accept | lapse | leave |
      join =>
    exact .keep hduty
  case miss | replied => exact .finish hduty
  case ask call hcall =>
    cases call with
    | start | attach | stop => exact .ask hduty
    | request | ask | notify | cancel => rcases hcall with h | h <;> cases h
  case refuse call _ hcall =>
    cases call with
    | request | ask | notify => exact .finish hduty
    | _ => cases hcall
  case allow call _ hcall _ =>
    cases call with
    | request | ask | notify => exact .keep hduty
    | _ => cases hcall
  case decline call _ howner hstate =>
    rcases hstate with ⟨rfl, hstate⟩ | ⟨hcall, hstate⟩
    · exact .refuse howner hduty (iff_of_true rfl hstate)
    · cases call with
      | start | attach => exact .refuse howner hduty (iff_of_false nofun hstate)
      | _ => cases hcall
  case part howner hstate => exact .part howner hduty hstate
  case halt howner hstate => exact .halt howner hduty hstate
  case launch call _ _ howner hcall hstate =>
    cases call with
    | start | attach => exact .begin howner hduty hstate
    | _ => cases hcall
  case misfire howner hstate => exact .misfire howner hduty hstate
  case stray call howner hcall =>
    cases call with
    | request | ask | notify | cancel => exact .stray howner hduty
    | start | attach => cases hcall.1
    | stop => exact absurd rfl hcall.2
  case install => exact .install hduty
  case close => exact .release hduty
  case skip hwriter =>
    have hrelease := View.Turn.release hduty
    rwa [← show m.view.writer = none from hwriter] at hrelease
  case write c _ message _ hwriter hconnection =>
    have hlength : c < m.view.sent.length := by
      rw [view, List.length_map]
      exact (List.getElem?_eq_some_iff.mp hconnection).1
    rw [view_set_connection (· ++ [message]) fun _ _ => rfl]
    exact .write hwriter hlength hduty
  case balk errand _ _ =>
    cases errand with
    | initialized => exact .balk hduty
    | request | notification | cancellation | exit | reply => exact .keep hduty
  case unsent =>
    split
    · exact View.Turn.fail.then_keep hduty
    · exact .keep hduty
  case told herrand => rcases herrand with rfl | rfl <;> exact .finish hduty
  case untold herrand =>
    have hidle : m.view.duty? t = some .idle := by rcases herrand with rfl | rfl <;> exact hduty
    split
    · exact .lose hidle (.inl rfl)
    · exact .finish hidle
  case complete hstate => exact .complete hduty hstate
  case late => exact .giveUp hduty (.inr (.inr rfl))
  case unconfirmed e =>
    -- Giving up absorbs the failure that a lost connection records.
    have hgive := View.Turn.giveUp (e := e) hduty (.inr (.inl rfl))
    split
    · rw [View.fail_force_error]
      exact hgive
    · exact hgive
  case quit => exact .quit hduty
  case answer hpurpose =>
    rw [Phase.duty, hpurpose] at hduty
    exact .finish hduty
  case rebuff hpurpose =>
    rw [Phase.duty, hpurpose] at hduty
    exact .giveUp hduty (.inr (.inl rfl))
  case approve hpurpose hvalid =>
    rw [Phase.duty, hpurpose] at hduty
    exact .approve hduty hvalid
  case dismiss hpurpose =>
    rw [Phase.duty, hpurpose] at hduty
    exact .dismiss hduty
  case giveUp c _ => exact .giveUp hduty (.inl ⟨c, rfl⟩)
  case stumble hstate hfolder =>
    rw [← List.length_map (f := Task.post)]
    exact .stumble hduty hstate hfolder
  case greet c root _ _ hstate hfolder =>
    have hspawn := view_spawn_reader (m.force .connected)
      (.reading c { limit := m.options.maxBody }) (some m.view.posts.length)
    rw [← List.length_map (f := Task.post)]
    refine (congrArg (m.view.Turn t) ?_).mp (.greet hduty hstate hfolder)
    exact congrArg (fun v : View => ({ v with
      folders := foldersValue root m.workspace }.force .initializing).setDuty t .greeting)
      hspawn.symm
  case forgo hreader => exact .forgo hduty hreader
  case unread hreader =>
    rw [view_set_task (fun post => { post with isAborted := true }) fun _ => rfl]
    exact .unread hduty hreader
  case shut =>
    rw [view_set_connection_eq]
    · exact .keep hduty
    · exact fun _ _ => rfl
  case conclude ending =>
    cases ending with
    | failed => exact .concede hduty
    | stopped => exact .conclude hduty
  case lose c _ _ _ _ hread _ =>
    rw [view_read hread]
    exact .lose hduty (.inr ⟨c, rfl⟩)
  case read buffer bytes connection hread =>
    obtain ⟨n, hn⟩ := view_handle_all (buffer.extend bytes).drain.1
      (m.setConnection _ fun _ => connection)
    rw [hn, view_read hread]
    exact (View.Turn.answer n).then_keep (View.duty_spawn_of_some hduty)

/-- Every step is a turn of the view. -/
theorem step_turn (h : m.step t = some next) : m.view.Turn t next.view := by
  obtain ⟨task, htask, ⟨haborted, rfl⟩ | ⟨-, hsteps⟩⟩ := step_cases h
  · rw [view_finish]
    exact .abort (view_post htask) haborted
  · exact hsteps.turn (view_duty htask)

/-- A dropped call has nothing to do any more, and keeps the lifecycle lock from nobody. -/
theorem view_drop (htask : m.tasks[t]? = some task) :
    (m.drop t).view = { m.view with lock := m.view.lock.leave t }.setDuty t .finished := by
  -- The machine when all but the lifecycle lock has been given back.
  have hlock {next : Machine} (hnext : next.view = m.view.setDuty t .finished) :
      { next with sessionLock := next.sessionLock.leave t }.view =
        { m.view with lock := m.view.lock.leave t }.setDuty t .finished :=
    congrArg (fun v : View => { v with lock := v.lock.leave t }) hnext
  simp only [drop, htask]
  rw [deaf_view.dull.wake_if]
  refine hlock ?_
  cases Phase.dispatch? task.phase with
  | none => exact deaf_view.dull.wake_if.trans (view_go_to m t _)
  | some d =>
    exact (view_unregister _ t d.id).trans (deaf_view.dull.wake_if.trans (view_go_to m t _))

theorem step_drop (h : m.isSuspended t = true) : m.view.Drop t (m.drop t).view := by
  obtain ⟨task, htask, hsuspended⟩ := (Option.any_eq_true _ _).mp h
  rw [view_drop htask]
  refine .leave (view_post htask) fun c (hduty : task.phase.duty = _) => ?_
  obtain ⟨buffer, hreading⟩ := reading_of_duty hduty
  rw [hreading] at hsuspended
  cases hsuspended

/-- Whatever happens to a client is a change of its view that is among the listed ones. -/
theorem perform_step (m : Machine) (occurrence : Occurrence) :
    m.view.Step occurrence (m.perform occurrence).view := by
  have hpass {next : Machine} (h : next.view = m.view) : m.view.Step occurrence next.view :=
    h ▸ .pass
  cases occurrence with
  | call call =>
    rw [perform, Machine.call, view_spawn]
    exact .call call
  | turn t =>
    rw [perform]
    cases hstep : m.step t with
    | none => exact .pass
    | some next => exact .turn (step_turn hstep)
  | dequeue => exact hpass (deaf_view.dull.dequeue m)
  | drop t =>
    rw [perform]
    split
    · next h => exact .drop (step_drop h)
    · exact .pass
  | connect =>
    have hview : m.connect.view = { m.view with sent := m.view.sent ++ [[]] } := by
      simp only [connect, view, List.map_append, List.map_cons, List.map_nil]
    rw [perform, hview]
    exact .connect
  | relocate folder => exact .relocate folder
  | relaunch | onNotification => exact hpass rfl
  | arrive | endStream | setMode =>
    exact hpass ((view_wake_all _ _).trans (view_set_connection_eq fun _ _ => rfl))
  | passTime => exact hpass (view_wake_all _ _)

end Machine

end CodeAtlas.Client
