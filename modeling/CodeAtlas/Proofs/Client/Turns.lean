import CodeAtlas.Proofs.Client.Desk

/-!
# What a turn leads to

A task that is not at the writer goes on to another phase with its turn, or asks for the writer.
`Machine.Asks` lists the phases in which tasks ask, with what they ask for, and `Machine.Registers`
those in which they register requests, with what is known of the client then; `Machine.Goes` lists
all that a turn can lead to, with the tasks that it starts, and `turn_goes` says that there is
nothing else. With the turns of the tasks at the writer that makes
every occurrence one of the listed changes of the desk (`perform_desk`).
-/

namespace CodeAtlas.Client

open Json (Value)
open Rpc (Message RequestId)

/-- Whether a task in this phase is not at the writer, has no message for it and does not read. -/
def Phase.isPlain : Phase → Bool
  | .registered _ _ => false
  | .revoked _ => false
  | .reply _ _ => false
  | .reading _ _ => false
  | phase => !phase.isAtWriter

/-- Whether a task in this phase has registered a request and has not asked for the writer. -/
def Phase.isRegistered : Phase → Bool
  | .registered _ _ => true
  | _ => false

theorem Phase.of_plain {phase : Phase} (h : phase.isPlain = true) :
    phase.isAtWriter = false ∧ phase.IsMeant ∧ phase.isRegistered = false := by
  cases phase with
  | registered | lockWriter | writing | shutting => cases h
  | _ => exact ⟨rfl, trivial, rfl⟩

/-- A request of the server. -/
structure Inquiry where
  id : RequestId
  method : String
  params : Option Value

/-- The request of the server that a frame is, if it is one. -/
def inquiry? : Except Wire.FrameError Value → Option Inquiry
  | .error _ => none
  | .ok value =>
    match Message.ofValue value with
    | .ok (.request id method params) => some ⟨id, method, params⟩
    | _ => none

/-- What the task does first that is started to answer a request of the server. -/
def Inquiry.reply (folders : Value) (inquiry : Inquiry) : Phase :=
  .reply (answerTo folders inquiry.id inquiry.method inquiry.params) inquiry.method

/-- Octets that a reading loop takes in with a turn, the frames that are complete then, and the
folders that the client knows at that time. -/
structure Intake where
  reader : TaskId
  octets : Bytes
  frames : List (Except Wire.FrameError Value)
  folders : Value

/-- How the stage of a request that is being made goes on: it waits, it gets an outcome, and it
keeps the outcome that it has got. -/
inductive Stage.Continues : Stage → Stage → Prop where
  | wait (d : Dispatch) : Continues (.making d) (.making d)
  | take (d : Dispatch) (outcome : Outcome) : Continues (.making d) (.leaving d outcome)
  | keep (d : Dispatch) (outcome : Outcome) : Continues (.leaving d outcome) (.leaving d outcome)

/-- How the stage of a task goes on that is not at the writer. -/
inductive Stage.Moves : Stage → Stage → Prop where
  | rest {old new : Stage} (hold : old.request? = none) (hnew : new.request? = none) :
      Moves old new
  | go_on {old new : Stage} (h : old.Continues new) : Moves old new
  | settle {d : Dispatch} {outcome : Outcome} : Moves (.leaving d outcome) (.made d outcome)

namespace Machine

variable {m next : Machine} {t : TaskId} {old : Phase} {job : Job} {isOpen : Prop}

/-- A value from the server starts a task if it is a request. -/
theorem desk_handle (m : Machine) (value : Value) :
    (m.handle value).desk =
        m.desk.spawn ((inquiry? (.ok value)).toList.map (Inquiry.reply m.folders)) ∧
      (m.handle value).folders = m.folders := by
  simp only [handle, inquiry?]
  cases Message.ofValue value with
  | error e => exact ⟨(Desk.spawn_nil _).symm, rfl⟩
  | ok message =>
    cases message with
    | request id method params => exact ⟨desk_spawn m _, rfl⟩
    | response id result error =>
      have hdeaf : IsDeaf folders := ⟨fun _ _ _ _ => rfl, fun _ _ => rfl, fun _ _ _ _ => rfl⟩
      exact ⟨(desk_resolve m _ _).trans (Desk.spawn_nil _).symm, hdeaf.resolve m _ _⟩
    | notification method params =>
      obtain ⟨_, _, heq⟩ := handle_notification_eq m method params
      dsimp only
      rw [heq]
      exact ⟨(Desk.spawn_nil _).symm, rfl⟩

/-- Frames from the server start tasks for the requests among them, in their order. -/
theorem desk_handle_all (frames : List (Except Wire.FrameError Value)) (m : Machine) :
    (m.handleAll frames).desk =
        m.desk.spawn ((frames.filterMap inquiry?).map (Inquiry.reply m.folders)) ∧
      (m.handleAll frames).folders = m.folders := by
  induction frames generalizing m with
  | nil => exact ⟨(Desk.spawn_nil m.desk).symm, rfl⟩
  | cons frame rest ih =>
    cases frame with
    | error e => exact ih _
    | ok value =>
      obtain ⟨hdesk, hfolders⟩ := desk_handle m value
      obtain ⟨hrest, hlast⟩ := ih (m.handle value)
      refine ⟨?_, hlast.trans hfolders⟩
      rw [handleAll, hrest, hdesk, hfolders, List.filterMap_cons]
      cases inquiry? (.ok value) <;> simp [Desk.spawn]

/-- What a task takes in with its next turn, if it is a reading loop and there is something. -/
def intake? (m : Machine) (t : TaskId) : Option Intake :=
  match m.tasks[t]? with
  | some ⟨.reading c buffer, _, _, false, _⟩ =>
    match (m.connection? c).bind Connection.read with
    | some (.octets bytes, _) => some ⟨t, bytes, (buffer.extend bytes).drain.1, m.folders⟩
    | _ => none
  | _ => none

/-- Whether a call of a user may get to the writer with an occurrence: the session is open, or the
call is overtaken. -/
def lets (m : Machine) : Occurrence → Prop
  | .turn t => m.state = .initialized ∨ t ∈ m.overtakenBy (.turn t)
  | _ => False

theorem lets_of_admitted (h : m.desk.phases[t]? = some old) (hold : old.isAdmitted = true) :
    m.lets (.turn t) := by
  refine Decidable.or_iff_not_imp_left.mpr fun hstate => ?_
  obtain ⟨task, htask, rfl⟩ := task_of_phase h
  have hadmitted : m.isAdmitted t = true := by
    rw [isAdmitted, htask, Option.any_some, hold]
  rw [overtakenBy, isOvertaken, hadmitted, Bool.true_and, if_pos (bne_iff_ne.mpr hstate)]
  exact List.mem_singleton_self t

/-- How a task in a phase can get a request with its next turn. -/
inductive Registers (m : Machine) (t : TaskId) : Phase → Message → Dispatch → Prop where
  | traffic {method : String} {params : Option Value} {id : Option RequestId}
      {timeout : Option Time.Duration} {question : Option Protocol.Question} {number : RequestId}
      {after : Time.Duration} (hsupplied : ∀ supplied, id = some supplied → number = supplied) :
      m.Registers t (.admitted (.request method params id timeout question))
        (.request number method params) ⟨number, method, after, .user question⟩
  | part {id : RequestId} {after : Time.Duration} (howner : m.sessionLock.owner = some t)
      (hstate : m.state = .connected ∨ m.state = .initialized) :
      m.Registers t (.lockSession .stop) (.request id "shutdown" none)
        ⟨id, "shutdown", after, .shutdown⟩
  | greet {c : ConnectionId} {id : RequestId} {params : Option Value} {after : Time.Duration}
      (hstate : m.state = .connecting) :
      m.Registers t (.opened c) (.request id "initialize" params)
        ⟨id, "initialize", after, .handshake⟩

/-- What a task in a phase can ask the writer for with its next turn. -/
inductive Asks : Phase → Job → Prop where
  | send {message : Message} {d : Dispatch} :
      Asks (.registered message d) (.send message (.request d))
  | tell {message : Message} : Asks (.revoked message) (.send message .cancellation)
  | notify {method : String} {params : Option Value} :
      Asks (.admitted (.notification method params))
        (.send (.notification method params) .notification)
  | reply {message : Message} {method : String} :
      Asks (.reply message method) (.send message (.reply method))
  | install {call : Call} {c : ConnectionId} : Asks (.lockSession call) (.install c)
  | confirm {d : Dispatch} {result : Value} (hpurpose : d.purpose = .handshake) :
      Asks (.answered d (.ok result)) (.send initializedMessage .initialized)
  /-- The server is told to exit, whatever has become of the request to shut down. -/
  | quit {d : Dispatch} {outcome : Outcome} (hpurpose : d.purpose = .shutdown) :
      Asks (.answered d outcome) (.send (.notification "exit" none) .exit)
  | close {old : Phase} {ending : Ending}
      (hold : old.isPlain = true ∧ old.stage.request? = none) : Asks old (.close ending)

variable {message : Message} {d : Dispatch}

theorem Registers.not_requested (h : m.Registers t old message d) : old.stage.request? = none := by
  cases h <;> rfl

theorem Registers.is_meant (h : m.Registers t old message d) :
    (Phase.registered message d).IsMeant := by
  cases h with
  | traffic | part => exact fun hother => by cases hother
  | greet => exact fun _ => ⟨_, _, rfl⟩

/-- A task that asks for the writer keeps the request that it has. -/
theorem Asks.request_eq (h : Asks old job) :
    (Phase.lockWriter job).stage.request? = old.stage.request? := by
  cases h with
  | close hold => exact hold.2.symm
  | _ => rfl

theorem Asks.is_meant (h : Asks old job) (hold : old.IsMeant) : (Phase.lockWriter job).IsMeant := by
  cases h with
  | send => exact hold
  | confirm => rfl
  | _ => trivial

/-- Only calls of users need more than what is in the stream. Unless they are overtaken, the session
is open. -/
theorem Asks.need (h : Asks old job) (hold : m.desk.phases[t]? = some old) :
    (Phase.lockWriter job).isTraffic = false ∧ (Phase.lockWriter job).need ≤ old.need ∨
      (Phase.lockWriter job).isTraffic = true ∧ m.lets (.turn t) := by
  cases h with
  | @send message d =>
    obtain ⟨id, method, after, purpose⟩ := d
    cases purpose with
    | user => exact .inr ⟨rfl, lets_of_admitted hold rfl⟩
    | handshake | shutdown => exact .inl ⟨rfl, Nat.zero_le _⟩
  | notify => exact .inr ⟨rfl, lets_of_admitted hold rfl⟩
  | tell | reply | install | quit | close => exact .inl ⟨rfl, Nat.zero_le _⟩
  | @confirm d result hpurpose =>
    refine .inl ⟨rfl, ?_⟩
    show 1 ≤ d.purpose.gain
    rw [hpurpose]
    exact Nat.le_refl _

/-- What a turn of a task that is not at the writer can lead to, apart from waiting. -/
inductive Goes (m : Machine) (t : TaskId) : Phase → Desk → Prop where
  | moves {old new : Phase} (hold : old.isPlain = true) (hnew : new.isPlain = true)
      (hneed : new.need ≤ old.need) (hstage : old.stage.Moves new.stage) :
      m.Goes t old (m.desk.setPhase t new)
  | registers {old : Phase} {message : Message} {d : Dispatch}
      (hregisters : m.Registers t old message d) :
      m.Goes t old (m.desk.setPhase t (.registered message d))
  | revokes {id : RequestId} {message : Message} :
      m.Goes t (.ready (.cancel id)) (m.desk.setPhase t (.revoked message))
  | asks {old : Phase} {job : Job} (hasks : Asks old job) : m.Goes t old (m.desk.ask t job)
  | opens {c : ConnectionId} {new : Phase} (hnew : new.isPlain = true) (hneed : new.need = 0)
      (hstage : new.stage.request? = none) :
      m.Goes t (.opened c)
        ((m.desk.spawn [.reading c { limit := m.options.maxBody }]).setPhase t new)
  | greets {c : ConnectionId} {message : Message} {d : Dispatch}
      (hregisters : m.Registers t (.opened c) message d) :
      m.Goes t (.opened c) ((m.desk.spawn [.reading c { limit := m.options.maxBody }]).setPhase t
        (.registered message d))
  /-- The reading loop takes something in, and starts tasks that answer the requests in it. -/
  | reads {c : ConnectionId} {buffer : Wire.Buffer} {bytes : Bytes}
      (hintake : m.intake? t = some ⟨t, bytes, (buffer.extend bytes).drain.1, m.folders⟩) :
      m.Goes t (.reading c buffer)
        ((m.desk.spawn (((buffer.extend bytes).drain.1.filterMap inquiry?).map
          (Inquiry.reply m.folders))).setPhase t (.reading c (buffer.extend bytes).drain.2))
  | leaves {c : ConnectionId} {buffer : Wire.Buffer} (hintake : m.intake? t = none) :
      m.Goes t (.reading c buffer) (m.desk.setPhase t .finished)

/-- What such a turn leads to is a listed change of the desk. -/
theorem Goes.turn {d : Desk} (h : m.Goes t old d) (hold : m.desk.phases[t]? = some old)
    (haway : old.isAtWriter = false) : m.desk.Turn (m.lets (.turn t)) t d := by
  have hreading (c : ConnectionId) (buffer : Wire.Buffer) : ∀ phase ∈ [Phase.reading c buffer],
      phase.isAtWriter = false ∧ phase.need = 0 ∧ phase.IsMeant := by
    intro phase hphase
    rw [List.mem_singleton.mp hphase]
    exact ⟨rfl, rfl, trivial⟩
  cases h with
  | moves _ hnew hneed _ =>
    obtain ⟨hstays, hmeant, -⟩ := Phase.of_plain hnew
    exact .go_on hold haway hstays hneed hmeant
  | registers hregisters => exact .go_on hold haway rfl (Nat.zero_le _) hregisters.is_meant
  | revokes => exact .go_on hold haway rfl (Nat.zero_le _) trivial
  | asks hasks => exact .ask hold haway hasks.is_meant (hasks.need hold)
  | opens hnew hneed _ =>
    obtain ⟨hstays, hmeant, -⟩ := Phase.of_plain hnew
    exact .move hold haway hstays (hneed ▸ Nat.zero_le _) hmeant (hreading _ _)
  | greets hregisters =>
    exact .move hold haway rfl (Nat.zero_le _) hregisters.is_meant (hreading _ _)
  | reads =>
    refine .move hold haway rfl (Nat.zero_le _) trivial ?_
    intro phase hphase
    obtain ⟨inquiry, -, rfl⟩ := List.mem_map.mp hphase
    exact ⟨rfl, rfl, trivial⟩
  | leaves => exact .go_on hold haway rfl (Nat.zero_le _) trivial

/-- A task gets to the writer by asking for it, and gets a request by registering it. -/
theorem Goes.phase {d : Desk} (h : m.Goes t old d) (hold : m.desk.phases[t]? = some old) :
    ∃ new, d.phases[t]? = some new ∧ ((∃ job, new = .lockWriter job ∧ Asks old job) ∨
      (∃ message d, new = .registered message d ∧ m.Registers t old message d) ∨
      new.isAtWriter = false ∧ new.isRegistered = false ∧
        (old.stage.request? = none → new.stage.request? = none)) := by
  have hspawned (spawned : List Phase) : (m.desk.spawn spawned).phases[t]? = some old :=
    Desk.phase_spawn hold
  cases h with
  | @moves _ new _ hnew _ hmoves =>
    obtain ⟨haway, -, hother⟩ := Phase.of_plain hnew
    refine ⟨new, Desk.phase_set hold, .inr (.inr ⟨haway, hother, fun hnone => ?_⟩)⟩
    generalize old.stage = stage, new.stage = later at hnone hmoves ⊢
    cases hmoves with
    | rest _ hlater => exact hlater
    | go_on hcontinues => cases hcontinues <;> cases hnone
    | settle => cases hnone
  | registers hregisters =>
    exact ⟨_, Desk.phase_set hold, .inr (.inl ⟨_, _, rfl, hregisters⟩)⟩
  | asks hasks => exact ⟨_, Desk.phase_set hold, .inl ⟨_, rfl, hasks⟩⟩
  | opens hnew _ hstage =>
    obtain ⟨haway, -, hother⟩ := Phase.of_plain hnew
    exact ⟨_, Desk.phase_set (hspawned _), .inr (.inr ⟨haway, hother, fun _ => hstage⟩)⟩
  | greets hregisters =>
    exact ⟨_, Desk.phase_set (hspawned _), .inr (.inl ⟨_, _, rfl, hregisters⟩)⟩
  | reads => exact ⟨_, Desk.phase_set (hspawned _), .inr (.inr ⟨rfl, rfl, fun _ => rfl⟩)⟩
  | revokes | leaves => exact ⟨_, Desk.phase_set hold, .inr (.inr ⟨rfl, rfl, fun _ => rfl⟩)⟩

theorem Goes.rests {d : Desk} {new : Phase} (hd : d = m.desk.setPhase t new)
    (hold : old.isPlain = true ∧ old.stage.request? = none)
    (hnew : new.isPlain = true ∧ new.need = 0 ∧ new.stage.request? = none) : m.Goes t old d :=
  hd ▸ .moves hold.1 hnew.1 (hnew.2.1 ▸ Nat.zero_le _) (.rest hold.2 hnew.2.2)

theorem dispatch_goes (method : String) (params : Option Value) (id : Option RequestId)
    (after : Time.Duration) (purpose : Purpose)
    (hold : old.isPlain = true ∧ old.stage.request? = none)
    (hregisters : ∀ number, (∀ supplied, id = some supplied → number = supplied) →
      m.Registers t old (.request number method params) ⟨number, method, after, purpose⟩) :
    m.Goes t old (m.dispatch t method params id after purpose).desk := by
  obtain ⟨number, hnumber, hrefused | hregistered⟩ :=
    desk_dispatch m t method params id after purpose
  · exact .rests hrefused hold ⟨rfl, rfl, rfl⟩
  · rw [hregistered]
    exact .registers (hregisters number hnumber)

theorem desk_conclude (ending : Ending) :
    (m.conclude t ending).desk = m.desk.setPhase t .finished := by
  have hresolve := desk_resolve_all { m with hasProcess := false } fun id => .error (.cancelled id)
  unfold conclude
  split <;>
  · rw [desk_return, desk_pass_session]
    exact congrArg (Desk.setPhase · t .finished) hresolve

/-- A step of a task that is not at the writer leads on in one of the listed ways. -/
theorem Steps.goes {task : Task} (h : m.Steps t old next) (htask : m.tasks[t]? = some task)
    (hold : task.phase = old) (haborted : task.isAborted = false)
    (haway : old.isAtWriter = false) : m.Goes t old next.desk := by
  obtain ⟨phase, inbox, isQueued, isAborted, joiner⟩ := task
  cases haborted
  cases hold
  cases h <;> try simp only [sayGoodbye, desk_ask_session, desk_ask_writer, desk_conclude,
    desk_fail_on, desk_fail_startup, desk_finish, desk_go_to, desk_lose_connection,
    desk_pass_session, desk_resolve, desk_return, desk_wake]
  case install | take | close | skip | write | balk | shut => cases haway
  case ask | miss | refuse | allow | decline | halt | misfire | stray | complete | late | unconfirmed |
      quit | replied | answer | rebuff | giveUp | conclude =>
    exact .rests rfl ⟨rfl, rfl⟩ ⟨rfl, rfl, rfl⟩
  case told herrand | untold herrand =>
    rcases herrand with rfl | rfl <;> exact .rests rfl ⟨rfl, rfl⟩ ⟨rfl, rfl, rfl⟩
  case cancel => exact .revokes
  case request => exact dispatch_goes _ _ _ _ _ ⟨rfl, rfl⟩ fun _ => .traffic
  case notify => exact .asks .notify
  case send => exact .asks .send
  case tell => exact .asks .tell
  case reply => exact .asks .reply
  case part howner hstate =>
    exact dispatch_goes _ _ _ _ _ ⟨rfl, rfl⟩ fun _ _ => .part howner hstate
  case launch => exact .asks .install
  case wait d _ => exact .moves rfl rfl (Nat.le_refl _) (.go_on (.wait d))
  case unsent d _ _ => exact .moves rfl rfl (Nat.zero_le _) (.go_on (.keep d _))
  case accept d _ outcome _ _ _ | lapse d _ outcome _ _ =>
    refine .moves rfl rfl ?_ (.go_on (.take d outcome))
    cases outcome with
    | ok => exact Nat.le_refl _
    | error => exact Nat.zero_le _
  case leave outcome =>
    rw [Machine.leave, desk_go_to, desk_unregister]
    refine .moves rfl rfl ?_ .settle
    cases outcome with
    | ok => exact Nat.le_refl _
    | error => exact Nat.zero_le _
  case approve hpurpose _ => exact .asks (.confirm hpurpose)
  case dismiss hpurpose => exact .asks (.quit hpurpose)
  case stumble c _ _ _ =>
    -- The session opens with a reader, a phase more on the desk.
    have hspawn := desk_spawn m (.reading c { limit := m.options.maxBody })
    exact (congrArg (m.Goes t _ ∘ (Desk.setPhase · t _)) hspawn).mpr (.opens rfl rfl rfl)
  case greet c _ _ _ hstate _ =>
    have hspawn := desk_spawn m (.reading c { limit := m.options.maxBody })
    obtain ⟨number, -, hrefused | hregistered⟩ := desk_dispatch _ t "initialize" _ none _ .handshake
    · rw [hrefused]
      exact (congrArg (m.Goes t _ ∘ (Desk.setPhase · t _)) hspawn).mpr (.opens rfl rfl rfl)
    · rw [hregistered]
      exact (congrArg (m.Goes t _ ∘ (Desk.setPhase · t _)) hspawn).mpr (.greets (.greet hstate))
  case forgo | join => exact .asks (.close ⟨rfl, rfl⟩)
  case unread =>
    rw [desk_set_task]
    · exact .rests rfl ⟨rfl, rfl⟩ ⟨rfl, rfl, rfl⟩
    · exact fun _ => rfl
  case lose reading _ _ hread hreading =>
    rw [desk_set_connection (view_read hread)]
    refine .leaves ?_
    cases reading with
    | octets bytes => exact absurd rfl (hreading bytes)
    | ended | fault => simp only [intake?, htask, hread]
  case read hread =>
    rw [(desk_handle_all _ _).1, desk_set_connection (view_read hread)]
    exact .reads (by simp only [intake?, htask, hread])

/-- A task that is not at the writer goes on in one of the listed ways. -/
theorem turn_goes {task : Task} (htidy : m.view.IsTidy) (htask : m.tasks[t]? = some task)
    (haway : task.phase.isAtWriter = false) (h : m.step t = some next) :
    m.Goes t task.phase next.desk := by
  obtain ⟨_, hsame, ⟨haborted, rfl⟩ | ⟨haborted, hsteps⟩⟩ := step_cases h
  all_goals cases htask.symm.trans hsame
  · -- Only reading loops are aborted.
    cases hphase : task.phase with
    | finished => simp [step, htask, hphase] at h
    | reading c buffer =>
      rw [desk_finish]
      refine .leaves ?_
      obtain ⟨phase, inbox, isQueued, isAborted, joiner⟩ := task
      cases haborted
      cases hphase
      simp only [intake?, htask]
    | _ =>
      rw [not_aborted htidy htask (by rw [hphase]; rfl)] at haborted
      cases haborted
  · exact hsteps.goes htask rfl haborted haway

theorem Steps.desk_turn (h : m.Steps t old next) (hold : m.desk.phases[t]? = some old)
    (hat : old.isAtWriter = true) : m.desk.Turn isOpen t next.desk := by
  cases h <;> try simp only [Machine.shut, desk_go_to, desk_pass_writer]
  case install howner => exact .install howner hold
  case take howner => exact .take howner hold
  case close howner => exact .close howner hold
  case skip howner _ => exact .skip howner hold
  case write c _ message _ hwriter hconnection =>
    have hlength : c < m.desk.sent.length := by
      rw [desk_parts, List.length_map]
      exact (List.getElem?_eq_some_iff.mp hconnection).1
    have hdesk : (m.setConnection c fun old =>
        { old with sent := old.sent ++ [message] }).desk = m.desk.accept c message := by
      rw [desk, view_set_connection (· ++ [message]) fun _ _ => rfl]
      rfl
    rw [hdesk]
    exact .write hold hwriter hlength
  case balk => exact .balk hold
  case shut =>
    rw [desk_set_connection]
    · exact .shut hold
    · exact view_set_connection_eq fun _ _ => rfl
  all_goals cases hat

/-- A task that gets to the writer with its turn has asked for it in one of the listed ways. -/
theorem asks_of_turn (htidy : m.view.IsTidy) (hold : m.desk.phases[t]? = some old)
    (haway : old.isAtWriter = false)
    (hnew : (m.perform (.turn t)).desk.phases[t]? = some (.lockWriter job)) :
    Asks old job := by
  obtain ⟨task, htask, rfl⟩ := task_of_phase hold
  cases hstep : m.step t with
  | none =>
    rw [perform, hstep, Option.getD_none, hold] at hnew
    rw [Option.some.inj hnew] at haway
    cases haway
  | some next =>
    rw [perform, hstep, Option.getD_some] at hnew
    obtain ⟨new, hlast, ⟨job, rfl, hasks⟩ | ⟨_, _, rfl, -⟩ | ⟨hother, -⟩⟩ :=
      (turn_goes htidy htask haway hstep).phase hold
    all_goals cases hlast.symm.trans hnew
    · exact hasks
    · cases hother

/-- A task that takes its next step changes the desk in a way that is among the listed ones. -/
theorem desk_turn (htidy : m.view.IsTidy) (h : m.step t = some next) :
    m.desk.Turn (m.lets (.turn t)) t next.desk := by
  obtain ⟨task, htask, hcase⟩ := step_cases h
  cases haway : task.phase.isAtWriter with
  | false => exact (turn_goes htidy htask haway h).turn (desk_phase htask) haway
  | true =>
    rcases hcase with ⟨haborted, -⟩ | ⟨-, hsteps⟩
    · have hreader : task.phase.isReader = false := by
        cases hphase : task.phase with
        | lockWriter | writing | shutting => rfl
        | _ =>
          rw [hphase] at haway
          cases haway
      cases (not_aborted htidy htask hreader).symm.trans haborted
    · exact hsteps.desk_turn (desk_phase htask) haway

theorem desk_drop {task : Task} (htask : m.tasks[t]? = some task) :
    (m.drop t).desk = { m.desk with lock := m.desk.lock.leave t }.setPhase t .finished := by
  have hleave := congrArg (fun d : Desk => { d with lock := m.writerLock.leave t })
    (desk_go_to m t .finished)
  simp only [drop, htask]
  rw [deaf_desk.dull.wake_if]
  cases Phase.dispatch? task.phase with
  | none => exact deaf_desk.dull.wake_if.trans hleave
  | some d => exact (desk_unregister _ t d.id).trans (deaf_desk.dull.wake_if.trans hleave)

/-- Whatever happens to a client is a change of its desk that is among the listed ones. -/
theorem perform_desk (htidy : m.view.IsTidy) (occurrence : Occurrence) :
    m.desk.Step (m.lets occurrence) occurrence (m.perform occurrence).desk := by
  have hpass {next : Machine} (h : next.desk = m.desk) :
      m.desk.Step (m.lets occurrence) occurrence next.desk := h ▸ .pass
  cases occurrence with
  | call call =>
    rw [perform, Machine.call, desk_spawn]
    exact .call call
  | turn t =>
    rw [perform]
    cases hstep : m.step t with
    | none => exact .pass
    | some next => exact .turn (desk_turn htidy hstep)
  | dequeue =>
    rw [perform, dequeue]
    split
    · exact .pass
    · next queue _ =>
      exact hpass (desk_set_task (m := { m with queue }) fun _ => rfl)
  | drop t =>
    rw [perform]
    split
    · next h =>
      obtain ⟨task, htask, hsuspended⟩ := (Option.any_eq_true _ _).mp h
      rw [desk_drop htask]
      exact .drop (.leave (desk_phase htask) hsuspended)
    · exact .pass
  | connect =>
    have hdesk : m.connect.desk = { m.desk with sent := m.desk.sent ++ [[]] } := by
      rw [desk_parts, desk_parts, connect, List.map_append]
      rfl
    rw [perform, hdesk]
    exact .connect
  | relaunch | relocate | onNotification => exact hpass rfl
  | arrive | endStream | setMode =>
    simp only [perform, arrive, endStream, setMode, desk_wake_all]
    exact hpass (desk_set_connection (view_set_connection_eq fun _ _ => rfl))
  | passTime duration =>
    rw [perform, passTime, desk_wake_all]
    exact hpass rfl

/-- A task that has registered a request with its turn has done so in one of the listed ways. -/
theorem registers_of_turn {new : Phase} (htidy : m.view.IsTidy)
    (hold : m.desk.phases[t]? = some old) (hother : old.isRegistered = false)
    (hnew : (m.perform (.turn t)).desk.phases[t]? = some new) (h : new.isRegistered = true) :
    ∃ message d, m.Registers t old message d := by
  cases haway : old.isAtWriter with
  | true =>
    have hturn := (perform_desk htidy (.turn t)).turn_of
    generalize (m.perform (.turn t)).desk = last at hnew hturn
    cases hturn with
    | stay =>
      cases hold.symm.trans hnew
      cases hother.symm.trans h
    | move hphase hleaves | ask hphase hleaves =>
      cases hold.symm.trans hphase
      cases hleaves.symm.trans haway
    | take _ hphase | install _ hphase | close _ hphase | skip _ hphase
    | write hphase | balk hphase | shut hphase =>
      cases (Desk.phase_set hphase).symm.trans hnew
      cases h
  | false =>
    obtain ⟨task, htask, rfl⟩ := task_of_phase hold
    cases hstep : m.step t with
    | none =>
      rw [perform, hstep, Option.getD_none, hold] at hnew
      rw [Option.some.inj hnew] at hother
      cases hother.symm.trans h
    | some next =>
      rw [perform, hstep, Option.getD_some] at hnew
      obtain ⟨new, hlast, ⟨job, rfl, -⟩ | ⟨message, d, rfl, hregisters⟩ | ⟨-, hnone, -⟩⟩ :=
        (turn_goes htidy htask haway hstep).phase hold
      all_goals cases hlast.symm.trans hnew
      · cases h
      · exact ⟨message, d, hregisters⟩
      · cases hnone.symm.trans h

end Machine

end CodeAtlas.Client
