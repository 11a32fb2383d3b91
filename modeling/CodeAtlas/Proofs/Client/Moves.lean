import CodeAtlas.Proofs.Client.Ledger

/-!
# What happens to the ledger

A ledger changes by deeds and by quiet changes between them, and `Ledger.Moves` relates two ledgers
by the deeds that lead from one to the other. Read `Machine.perform_moves` first: every occurrence
moves the ledger of a client by exactly the deeds that `Machine.deeds` lists for it. What holds of
all moves therefore holds of all runs, whichever way the tasks take turns.
-/

namespace CodeAtlas.Client

open Json (Value)
open Rpc (Message RequestId)

/-- The changes of a seat's stage that are no deeds. An answer is taken only from the inbox. -/
inductive Seat.Quiet (seat : Seat) : Stage → Prop where
  | wait {supplied : Option RequestId} (hstage : seat.stage = .before supplied) :
      Quiet seat (.before supplied)
  | hold {d : Dispatch} (hstage : seat.stage = .making d) : Quiet seat (.making d)
  | fault {d : Dispatch} {outcome : Outcome} (hstage : seat.stage = .making d)
      (hfault : isAnswer outcome = false) : Quiet seat (.leaving d outcome)
  | take {d : Dispatch} {outcome : Outcome} (hstage : seat.stage = .making d)
      (hinbox : seat.inbox = .delivered outcome) : Quiet seat (.leaving d outcome)
  | stay {d : Dispatch} {outcome : Outcome} (hstage : seat.stage = .leaving d outcome) :
      Quiet seat (.leaving d outcome)
  | rest : Quiet seat .after

variable {stage : Stage} {phase : Phase}

theorem Seat.Quiet.deeds_eq {seat : Seat} (h : seat.Quiet stage) (t : TaskId) :
    seat.stage.deeds t stage = [] := by
  cases h with
  | wait | rest => simp only [Stage.deeds, Stage.request?]
  | hold hstage | fault hstage | take hstage | stay hstage =>
    simp only [hstage, Stage.deeds, Stage.request?, ↓reduceIte]

theorem Stage.deeds_self (stage : Stage) (t : TaskId) : stage.deeds t stage = [] := by
  cases stage <;> simp [Stage.deeds, Stage.request?]

namespace Ledger

/-- A task has a seat, and its request is at a stage. -/
def At (L : Ledger) (t : TaskId) (stage : Stage) : Prop :=
  ∃ seat, L.seats[t]? = some seat ∧ seat.stage = stage

/-- How far a task is with its request. -/
def stageOf (L : Ledger) (t : TaskId) : Stage := ((L.seats[t]?).map Seat.stage).getD .after

theorem resolve_of_not_pending {L : Ledger} {id : RequestId} (h : L.isPending id = false)
    (outcome : Outcome) : L.resolve id outcome = L := by
  have hnone : L.registered? id = none := by
    rw [registered?, List.find?_eq_none]
    exact List.any_eq_false.mp h
  simp only [Ledger.resolve, hnone]

namespace At

variable {L : Ledger} {t u : TaskId} {stage : Stage} (h : L.At t stage)

include h

theorem stage_of : L.stageOf t = stage := by
  obtain ⟨seat, hseat, rfl⟩ := h
  simp only [stageOf, hseat, Option.map_some, Option.getD_some]

theorem set_phase (phase : Phase) : (L.setPhase t phase).At t phase.stage := by
  obtain ⟨seat, hseat, rfl⟩ := h
  exact ⟨{ seat with phase }, by rw [seat_set_phase, hseat, Option.map_some, if_pos rfl], rfl⟩

theorem give (u : TaskId) (inbox : Inbox) : (L.give u inbox).At t stage := by
  obtain ⟨seat, hseat, rfl⟩ := h
  refine ⟨_, by rw [seat_give, hseat, Option.map_some], ?_⟩
  split
  · exact seat.stage_put inbox
  · rfl

theorem give_all (outcome : RequestId → Outcome) (entries : List Pending) :
    (L.giveAll outcome entries).At t stage := by
  unfold giveAll
  induction entries generalizing L with
  | nil => exact h
  | cons entry rest ih => exact ih (h.give _ _)

/-- A resolved request keeps its stage until its task takes the outcome. -/
theorem resolve (id : RequestId) (outcome : Outcome) : (L.resolve id outcome).At t stage := by
  unfold Ledger.resolve
  split
  · exact At.give (L := L.strike id) h _ _
  · exact h

theorem resolve_all (outcome : RequestId → Outcome) : (L.resolveAll outcome).At t stage :=
  At.give_all (L := { L with pending := [] }) h outcome L.pending

theorem unregister (u : TaskId) (id : RequestId) : (L.unregister u id).At t stage := by
  unfold Ledger.unregister
  split
  · exact h
  · split
    · exact h
    · exact At.give (L := L.strike id) h _ _

theorem register (id : RequestId) : (L.register t id).At t stage := by
  obtain ⟨seat, hseat, rfl⟩ := h
  exact ⟨{ seat with inbox := .empty },
    by rw [seat_register, hseat, Option.map_some, if_pos rfl], rfl⟩

theorem spawn (phase : Phase) : (L.spawn phase).At t stage := by
  obtain ⟨seat, hseat, rfl⟩ := h
  exact ⟨seat, item_kept hseat _, rfl⟩

end At

/-- The changes of a ledger that are no deeds. Callers may supply ids only if `free` is true. -/
inductive Quiet (free : Bool) (L : Ledger) : Ledger → Prop where
  | advance {t : TaskId} {seat : Seat} {phase : Phase} (hseat : L.seats[t]? = some seat)
      (hquiet : seat.Quiet phase.stage) : Quiet free L (L.setPhase t phase)
  | call {supplied : Option RequestId} {phase : Phase} (hfree : free = false → supplied = none)
      (hstage : phase.stage = .before supplied) : Quiet free L (L.spawn phase)
  | spawn {phase : Phase} (hstage : phase.stage = .after) : Quiet free L (L.spawn phase)

/-- What a deed does to a ledger. -/
inductive Does (L : Ledger) : Deed → Ledger → Prop where
  | dispatch {t : TaskId} {supplied : Option RequestId} {d : Dispatch} {phase : Phase}
      (hat : L.At t (.before supplied)) (hid : d.id = (L.number supplied).1)
      (hpending : L.isPending d.id = false) (hstage : phase.stage = .making d) :
      Does L (.dispatched t d.id) (((L.number supplied).2.register t d.id).setPhase t phase)
  | refuse {t : TaskId} {supplied : Option RequestId} {d : Dispatch} {phase : Phase}
      (hat : L.At t (.before supplied)) (hid : d.id = (L.number supplied).1)
      (hpending : L.isPending d.id = true)
      (hstage : phase.stage = .made d (.error (.duplicateId d.id))) :
      Does L (.refused t d.id) ((L.number supplied).2.setPhase t phase)
  | response (id : RequestId) (outcome : Outcome) :
      Does L (.response id outcome (L.isPending id)) (L.resolve id outcome)
  | cancel (id : RequestId) : Does L (.cancelled id) (L.resolve id (.error (.cancelled id)))
  | fail {outcome : RequestId → Outcome} (hfault : ∀ id, isAnswer (outcome id) = false) :
      Does L .failed (L.resolveAll outcome)
  | settle {t : TaskId} {d : Dispatch} {outcome : Outcome} {phase : Phase}
      (hat : L.At t (.leaving d outcome)) (hstage : phase.stage = .made d outcome) :
      Does L (.settled t d.id outcome) ((L.unregister t d.id).setPhase t phase)
  | drop {t : TaskId} {d : Dispatch} {phase : Phase} (hat : L.At t (.making d))
      (hstage : phase.stage = .after) :
      Does L (.dropped t d.id) ((L.setPhase t phase).unregister t d.id)

/-- Deeds lead from one ledger to another, with quiet changes between them. -/
inductive Moves (free : Bool) : Ledger → List Deed → Ledger → Prop where
  | done {L : Ledger} : Moves free L [] L
  | quiet {L next last : Ledger} {deeds : List Deed} (hquiet : L.Quiet free next)
      (hrest : Moves free next deeds last) : Moves free L deeds last
  | does {L next last : Ledger} {deed : Deed} {deeds : List Deed} (hdoes : L.Does deed next)
      (hrest : Moves free next deeds last) : Moves free L (deed :: deeds) last

section Moves

variable {free : Bool} {L next last : Ledger} {t : TaskId} {deeds more : List Deed}

theorem Moves.trans (first : L.Moves free deeds next) (second : next.Moves free more last) :
    L.Moves free (deeds ++ more) last := by
  induction first with
  | done => exact second
  | quiet hquiet _ ih => exact .quiet hquiet (ih second)
  | does hdoes _ ih => exact .does hdoes (ih second)

theorem Does.moves {deed : Deed} (h : L.Does deed next) : L.Moves free [deed] next :=
  .does h .done

/-- A turn of a task: the deeds that concern others, and what becomes of its own request. -/
inductive Turn (free : Bool) (L : Ledger) (t : TaskId) : List Deed → Ledger → Prop where
  | idle : Turn free L t [] L
  /-- After deeds that concern others, the task changes its own phase quietly. -/
  | advance {deeds : List Deed} {next : Ledger} {seat : Seat} {phase : Phase}
      (hmoves : L.Moves free deeds next) (hat : L.At t seat.stage)
      (hseat : next.seats[t]? = some seat) (hquiet : seat.Quiet phase.stage) :
      Turn free L t deeds (next.setPhase t phase)
  | request {deed : Deed} {next last : Ledger} {supplied : Option RequestId} {stage : Stage}
      (hmoves : L.Moves free [] next) (hat : L.At t (.before supplied))
      (hdoes : next.Does deed last) (hlast : last.At t stage)
      (hdeeds : (Stage.before supplied).deeds t stage = [deed]) : Turn free L t [] last
  | settle {d : Dispatch} {outcome : Outcome} {phase : Phase}
      (hat : L.At t (.leaving d outcome)) (hstage : phase.stage = .made d outcome) :
      Turn free L t [] ((L.unregister t d.id).setPhase t phase)

/-- A turn moves the ledger by the deeds that concern others and the ones that its own stage
shows. -/
theorem Turn.moves (h : L.Turn free t deeds next) :
    L.Moves free (deeds ++ (L.stageOf t).deeds t (next.stageOf t)) next := by
  cases h with
  | idle =>
    rw [Stage.deeds_self]
    exact .done
  | @advance _ middle seat phase hmoves hat hseat hquiet =>
    have hmiddle : middle.At t seat.stage := ⟨seat, hseat, rfl⟩
    rw [hat.stage_of, (hmiddle.set_phase phase).stage_of, hquiet.deeds_eq]
    exact hmoves.trans (.quiet (.advance hseat hquiet) .done)
  | request hmoves hat hdoes hlast hdeeds =>
    rw [hat.stage_of, hlast.stage_of, hdeeds]
    exact hmoves.trans hdoes.moves
  | @settle d outcome phase hat hstage =>
    rw [hat.stage_of, ((hat.unregister t d.id).set_phase phase).stage_of, hstage]
    exact (Does.settle hat hstage).moves

/-- A turn whose own change of phase is quiet whatever has come for the task. -/
theorem Moves.advance (h : L.Moves free deeds next) (hat : L.At t stage) (hnext : next.At t stage)
    (hquiet : ∀ seat : Seat, seat.stage = stage → seat.Quiet phase.stage) :
    L.Turn free t deeds (next.setPhase t phase) := by
  obtain ⟨seat, hseat, rfl⟩ := hnext
  exact .advance h hat hseat (hquiet seat rfl)

theorem Moves.rest (h : L.Moves free deeds next) (hat : L.At t stage) (hnext : next.At t stage)
    (hstage : phase.stage = .after) : L.Turn free t deeds (next.setPhase t phase) :=
  h.advance hat hnext fun _ _ => hstage ▸ .rest

theorem turn_fail {isLost : Bool} (hat : L.At t stage)
    (hquiet : ∀ seat : Seat, seat.stage = stage → seat.Quiet phase.stage) :
    L.Turn free t (if isLost then [.failed] else [])
      ((if isLost then L.resolveAll fun _ => .error .serverExited else L).setPhase t phase) := by
  cases isLost with
  | true => exact (Does.fail fun _ => rfl).moves.advance hat (hat.resolve_all _) hquiet
  | false => exact Moves.done.advance hat hat hquiet

/-- The drop of a call that waits: its request, if it makes one, gives up its place. -/
inductive Drop (L : Ledger) (t : TaskId) : List Deed → Ledger → Prop where
  | idle : Drop L t [] L
  | call {seat : Seat} (hseat : L.seats[t]? = some seat) : Drop L t [] (L.setPhase t .finished)
  | request {d : Dispatch} (hat : L.At t (.making d)) :
      Drop L t [.dropped t d.id] ((L.setPhase t .finished).unregister t d.id)

theorem Drop.moves (h : L.Drop t deeds next) : L.Moves free deeds next := by
  cases h with
  | idle => exact .done
  | call hseat => exact .quiet (.advance hseat .rest) .done
  | request hat => exact (Does.drop hat rfl).moves

end Moves

end Ledger

namespace Machine

variable {free : Bool} {m : Machine} {t : TaskId}

theorem stage_of_ledger (m : Machine) (t : TaskId) : m.stageOf t = m.ledger.stageOf t := by
  simp only [stageOf, Ledger.stageOf, ledger, List.getElem?_map, Option.map_map]
  rfl

variable {task : Task} {next : Machine}

theorem ledger_at (htask : m.tasks[t]? = some task) : m.ledger.At t task.phase.stage :=
  ⟨task.seat, ledger_seat htask, rfl⟩

/-- The ledger after a request under an id that is refused if the id is pending. -/
theorem ledger_dispatch (m : Machine) (t : TaskId) (method : String) (params : Option Value)
    (id : RequestId) (after : Time.Duration) (purpose : Purpose) :
    (m.dispatch t method params (some id) after purpose).ledger =
      if m.ledger.isPending id then
        m.ledger.setPhase t (.answered ⟨id, method, after, purpose⟩ (.error (.duplicateId id)))
      else
        (m.ledger.register t id).setPhase t
          (.registered (.request id method params) ⟨id, method, after, purpose⟩) := by
  simp only [dispatch]
  split
  · next h => exact (ledger_go_to _ _ _).trans (if_pos h).symm
  · next h =>
    rw [ledger_go_to, ledger_register]
    exact (if_neg h).symm

/-- A request is registered under its id, or refused if the id is pending. -/
theorem turn_dispatch {L : Ledger} (method : String) (params : Option Value)
    (supplied : Option RequestId) (after : Time.Duration) (purpose : Purpose)
    (hmoves : L.Moves free [] m.ledger) (hfirst : L.At t (.before supplied))
    (hat : m.ledger.At t (.before supplied)) :
    L.Turn free t [] (m.dispatch t method params supplied after purpose).ledger := by
  let d : Dispatch := ⟨(m.ledger.number supplied).1, method, after, purpose⟩
  let refused : Phase := .answered d (.error (.duplicateId d.id))
  let sending : Phase := .registered (.request d.id method params) d
  -- A request without an id takes the next number first, also if it is refused under it.
  have hledger : (m.dispatch t method params supplied after purpose).ledger =
      if m.ledger.isPending d.id then (m.ledger.number supplied).2.setPhase t refused
      else ((m.ledger.number supplied).2.register t d.id).setPhase t sending := by
    cases supplied with
    | none =>
      exact ledger_dispatch { m with nextId := m.nextId + 1 } t method params _ after purpose
    | some id => exact ledger_dispatch m t method params id after purpose
  have hnumber : (m.ledger.number supplied).2.At t (.before supplied) := by
    cases supplied <;> exact hat
  rw [hledger]
  cases hpending : m.ledger.isPending d.id with
  | true =>
    have hdoes : m.ledger.Does (.refused t d.id)
        ((m.ledger.number supplied).2.setPhase t refused) :=
      .refuse hat rfl hpending rfl
    exact .request hmoves hfirst hdoes (hnumber.set_phase refused) rfl
  | false =>
    have hdoes : m.ledger.Does (.dispatched t d.id)
        (((m.ledger.number supplied).2.register t d.id).setPhase t sending) :=
      .dispatch hat rfl hpending rfl
    exact .request hmoves hfirst hdoes ((hnumber.register d.id).set_phase sending) rfl

theorem ledger_fail_startup (m : Machine) (t : TaskId) (e : Error) :
    (m.failStartup t e).ledger = m.ledger.setPhase t (.tearDown (.failed e)) :=
  ledger_go_to _ _ _

/-- A lost connection is told to every pending request. -/
theorem ledger_fail_on (m : Machine) (e : Error) :
    (m.failOn e).ledger =
      if e.isTransport then m.ledger.resolveAll fun _ => .error .serverExited else m.ledger := by
  unfold failOn
  split
  · exact ledger_fail_session m
  · rfl

theorem ledger_conclude (m : Machine) (t : TaskId) (ending : Ending) :
    (m.conclude t ending).ledger =
      (m.ledger.resolveAll fun id => .error (.cancelled id)).setPhase t .finished := by
  have hresolve := ledger_resolve_all { m with hasProcess := false } fun id => .error (.cancelled id)
  cases ending <;>
  · rw [conclude, ledger_return, ledger_pass_session]
    exact congrArg (Ledger.setPhase · t .finished) hresolve

theorem ledger_handle_notification (m : Machine) (method : String) (params : Option Value) :
    (m.handleNotification method params).ledger = m.ledger := by
  obtain ⟨_, _, heq⟩ := handle_notification_eq m method params
  rw [heq]
  rfl

/-- A frame resolves a request, starts an answer, or does not concern requests. -/
theorem handle_frame_moves (free : Bool) (m : Machine) (frame : Except Wire.FrameError Value)
    (hat : m.ledger.At t stage) :
    m.ledger.Moves free (m.deedsOfFrame frame) (m.handleAll [frame]).ledger ∧
      (m.handleAll [frame]).ledger.At t stage := by
  cases frame with
  | error e => exact ⟨.done, hat⟩
  | ok value =>
    cases hmessage : Message.ofValue value with
    | error e =>
      simp only [handleAll, handle, deedsOfFrame, hmessage]
      exact ⟨.done, hat⟩
    | ok message =>
      cases message with
      | response id result error =>
        simp only [handleAll, handle, deedsOfFrame, hmessage, ledger_resolve]
        exact ⟨(Ledger.Does.response id _).moves, hat.resolve _ _⟩
      | request id method params =>
        simp only [handleAll, handle, deedsOfFrame, hmessage, ledger_spawn]
        exact ⟨.quiet (.spawn rfl) .done, hat.spawn _⟩
      | notification method params =>
        simp only [handleAll, handle, deedsOfFrame, hmessage, ledger_handle_notification]
        exact ⟨.done, hat⟩

theorem handle_all_moves (free : Bool) (m : Machine)
    (frames : List (Except Wire.FrameError Value)) (hat : m.ledger.At t stage) :
    m.ledger.Moves free (m.deedsOfFrames frames) (m.handleAll frames).ledger ∧
      (m.handleAll frames).ledger.At t stage := by
  induction frames generalizing m with
  | nil => exact ⟨.done, hat⟩
  | cons frame rest ih =>
    have hsplit : m.handleAll (frame :: rest) = (m.handleAll [frame]).handleAll rest := by
      cases frame <;> rfl
    obtain ⟨hfirst, hnext⟩ := handle_frame_moves free m frame hat
    obtain ⟨hrest, hlast⟩ := ih _ hnext
    rw [hsplit]
    exact ⟨hfirst.trans hrest, hlast⟩

theorem ledger_lose_connection (m : Machine) (fault : Option String) :
    (m.loseConnection fault).ledger =
      if m.state.isLive then m.ledger.resolveAll fun _ => .error .serverExited else m.ledger := by
  cases hstate : m.state with
  | shuttingDown | disconnected =>
    simp only [loseConnection, hstate, State.isLive, Bool.false_eq_true, ↓reduceIte]
  | connecting | connected | initializing | initialized | error =>
    simp only [loseConnection, hstate, State.isLive, ↓reduceIte, ledger_fail_session]
    cases fault <;> rfl

theorem Steps.ledger_turn (h : m.Steps t phase next) (hat : m.ledger.At t phase.stage) :
    m.ledger.Turn free t (m.deedsOfPhase phase) next.ledger := by
  have hrest {new : Phase} (hnew : new.stage = .after) :
      m.ledger.Turn free t [] (m.ledger.setPhase t new) :=
    Ledger.Moves.done.rest hat hat hnew
  -- A reading loop is a new task, so the task of the call is still before its request.
  have hspawn {new : Phase} (hnew : new.stage = .after) :
      m.ledger.Moves free [] (m.spawn new).ledger ∧ (m.spawn new).ledger.At t phase.stage := by
    rw [ledger_spawn]
    exact ⟨.quiet (.spawn hnew) .done, hat.spawn new⟩
  cases h <;> try simp only [Machine.leave, Machine.shut, sayGoodbye, ledger_ask_session,
    ledger_ask_writer, ledger_conclude, ledger_fail_on, ledger_fail_startup, ledger_finish,
    ledger_go_to, ledger_lose_connection, ledger_pass_session, ledger_pass_writer, ledger_resolve,
    ledger_return, ledger_unregister, ledger_wake]
  case notify | tell | reply | decline | halt | misfire | stray | close | skip | complete | late |
      answer | rebuff | approve | dismiss | giveUp | forgo | join | shut =>
    exact hrest rfl
  case launch | install => exact Ledger.Moves.done.advance hat hat fun _ => .wait
  case ask call hcall =>
    cases call with
    | start | attach | stop => exact Ledger.Moves.done.advance hat hat fun _ => .wait
    | request | ask | notify | cancel => rcases hcall with h | h <;> cases h
  case cancel id _ _ => exact (Ledger.Does.cancel id).moves.rest hat (hat.resolve _ _) rfl
  case miss id _ hpending =>
    -- To cancel what is not pending is a deed too, and does nothing.
    have hcancel : m.ledger.Moves free [.cancelled id]
        (m.ledger.resolve id (.error (.cancelled id))) :=
      (Ledger.Does.cancel id).moves
    rw [Ledger.resolve_of_not_pending (L := m.ledger) hpending] at hcancel
    exact hcancel.rest hat hat rfl
  case refuse call _ hcall =>
    cases call with
    | cancel => cases hcall
    | _ => exact hrest rfl
  case allow call _ hcall _ =>
    cases call with
    | request | ask | notify =>
      cases hcall
      exact Ledger.Moves.done.advance hat hat fun _ => .wait
    | _ => cases hcall
  case request | part => exact turn_dispatch _ _ _ _ _ .done hat hat
  case take errand _ | write errand _ _ =>
    cases errand with
    | request => exact Ledger.Moves.done.advance hat hat fun _ => .hold
    | _ => exact hrest rfl
  case balk errand _ hfault =>
    cases errand with
    | request => exact Ledger.Moves.done.advance hat hat fun _ hstage => .fault hstage hfault
    | _ => exact hrest rfl
  case send | wait => exact Ledger.Moves.done.advance hat hat fun _ => .hold
  case unsent => exact Ledger.turn_fail hat fun _ => .stay
  case told herrand => rcases herrand with rfl | rfl <;> exact hrest rfl
  case untold herrand =>
    rcases herrand with rfl | rfl <;> exact Ledger.turn_fail hat fun _ _ => .rest
  case unconfirmed => exact Ledger.turn_fail hat fun _ _ => .rest
  case quit result | replied result _ => cases result <;> exact hrest rfl
  case accept htask hinbox =>
    obtain ⟨seat, hseat, hstage⟩ := hat
    cases (ledger_seat htask).symm.trans hseat
    exact .advance .done ⟨_, hseat, rfl⟩ hseat (.take hstage hinbox)
  case lapse hfault => exact Ledger.Moves.done.advance hat hat fun _ hstage => .fault hstage hfault
  case leave => exact .settle hat rfl
  case stumble => exact (hspawn rfl).1.rest hat (hspawn rfl).2 rfl
  case greet => exact turn_dispatch _ _ _ _ _ (hspawn rfl).1 hat (hspawn rfl).2
  case unread =>
    rw [ledger_set_task_eq]
    · exact hrest rfl
    · exact fun _ => rfl
  case conclude => exact (Ledger.Does.fail fun _ => rfl).moves.rest hat (hat.resolve_all _) rfl
  case lose reading _ _ hread hreading =>
    simp only [deedsOfPhase, deedsOfReading, hread]
    cases reading with
    | octets bytes => exact absurd rfl (hreading bytes)
    | ended | fault => exact Ledger.turn_fail hat fun _ _ => .rest
  case read c buffer bytes connection hread =>
    simp only [deedsOfPhase, deedsOfReading, hread]
    have hhandle := handle_all_moves free (m.setConnection c fun _ => connection)
      (buffer.extend bytes).drain.1 hat
    exact hhandle.1.rest hat hhandle.2 rfl

/-- A phase that shows deeds of its own lets its task go on. -/
theorem deeds_of_waiting (htask : m.tasks[t]? = some task) (haborted : task.isAborted = false)
    (h : m.step t = none) : m.deedsOfPhase task.phase = [] := by
  simp only [step, htask, haborted, Bool.false_eq_true, ↓reduceIte] at h
  cases hphase : task.phase with
  | ready | sent | closed => simp [hphase] at h
  | reading c buffer =>
    simp only [hphase, readOnce] at h
    split at h
    · next hread => simp only [deedsOfPhase, deedsOfReading, hread]
    · split at h <;> cases h
  | _ => rfl

theorem perform_turn (free : Bool) (m : Machine) (t : TaskId) :
    m.ledger.Turn free t (m.deedsOfTurn t) (m.perform (.turn t)).ledger := by
  cases hstep : m.step t with
  | some next =>
    obtain ⟨task, htask, ⟨haborted, rfl⟩ | ⟨haborted, hsteps⟩⟩ := step_cases hstep
    · have hat := ledger_at htask
      simp only [deedsOfTurn, htask, haborted, ↓reduceIte, perform, hstep, Option.getD_some,
        ledger_finish]
      exact Ledger.Moves.done.rest hat hat rfl
    · simp only [deedsOfTurn, htask, haborted, Bool.false_eq_true, ↓reduceIte, perform, hstep,
        Option.getD_some]
      exact hsteps.ledger_turn (ledger_at htask)
  | none =>
    have hdeeds : m.deedsOfTurn t = [] := by
      unfold deedsOfTurn
      split
      · rfl
      · next htask =>
        split
        · rfl
        · next haborted => exact deeds_of_waiting htask (eq_false_of_ne_true haborted) hstep
    rw [hdeeds, perform, hstep]
    exact .idle

theorem ledger_drop (htask : m.tasks[t]? = some task) :
    (m.drop t).ledger =
      match Phase.dispatch? task.phase with
      | some d => (m.ledger.setPhase t .finished).unregister t d.id
      | none => m.ledger.setPhase t .finished := by
  -- A dropped call gives its locks back, which wakes tasks and leaves their seats alone.
  simp only [drop, htask]
  rw [dull_ledger.wake_if]
  cases Phase.dispatch? task.phase with
  | none => exact dull_ledger.wake_if.trans (ledger_go_to m t _)
  | some d =>
    refine (ledger_unregister _ t d.id).trans ?_
    rw [dull_ledger.wake_if]
    exact congrArg (Ledger.unregister · t d.id) (ledger_go_to m t _)

/-- A call that waits has a request in the table exactly if it is making one. -/
theorem dispatch_of_suspended (h : phase.isSuspended = true) :
    (∃ d, Phase.dispatch? phase = some d ∧ phase.stage = .making d) ∨
      Phase.dispatch? phase = none ∧ ∀ d, phase.stage ≠ .making d := by
  have hno {d : Dispatch} : Stage.after ≠ .making d := by
    intro heq
    cases heq
  cases phase with
  | ready | lockSession => exact .inr ⟨rfl, fun _ hstage => by cases hstage⟩
  | joining | shutting | closed => exact .inr ⟨rfl, fun _ => hno⟩
  | awaiting d deadline => exact .inl ⟨d, rfl, rfl⟩
  | lockWriter job =>
    cases job with
    | install => exact .inr ⟨rfl, fun _ hstage => by cases hstage⟩
    | close => exact .inr ⟨rfl, fun _ => hno⟩
    | send message errand =>
      cases errand with
      | request d => exact .inl ⟨d, rfl, rfl⟩
      | _ => exact .inr ⟨rfl, fun _ => hno⟩
  | writing message errand =>
    cases errand with
    | request d => exact .inl ⟨d, rfl, rfl⟩
    | _ => exact .inr ⟨rfl, fun _ => hno⟩
  | _ => cases h

theorem perform_drop (m : Machine) (t : TaskId) :
    m.ledger.Drop t (m.deeds (.drop t)) (m.perform (.drop t)).ledger := by
  cases hsuspended : m.isSuspended t with
  | false =>
    simp only [deeds, perform, hsuspended, Bool.false_eq_true, ↓reduceIte]
    exact .idle
  | true =>
    obtain ⟨task, htask, hphase⟩ := (Option.any_eq_true _ _).mp hsuspended
    have hat := ledger_at htask
    have hstage : m.stageOf t = task.phase.stage := by rw [stage_of_ledger, hat.stage_of]
    simp only [deeds, perform, hsuspended, hstage, ↓reduceIte, ledger_drop htask]
    rcases dispatch_of_suspended hphase with ⟨d, hdispatch, hmaking⟩ | ⟨hdispatch, hother⟩
    · rw [hmaking] at hat
      simp only [hdispatch, hmaking]
      exact .request hat
    · simp only [hdispatch]
      split
      · next hmaking => exact absurd hmaking (hother _)
      · exact .call (ledger_seat htask)

theorem perform_moves (free : Bool) (m : Machine) (occurrence : Occurrence)
    (hfree : free = false → occurrence.suppliedId? = none) :
    m.ledger.Moves free (m.deeds occurrence) (m.perform occurrence).ledger := by
  cases occurrence with
  | call made =>
    rw [perform, call, ledger_spawn]
    exact .quiet (.call hfree rfl) .done
  | turn t =>
    rw [deeds, stage_of_ledger, stage_of_ledger]
    exact (perform_turn free m t).moves
  | drop t => exact (perform_drop m t).moves
  | dequeue =>
    rw [perform, dull_ledger.dequeue]
    exact .done
  | arrive | endStream | setMode | passTime =>
    refine (ledger_wake_all _ _).symm ▸ ?_
    exact .done
  | connect | relaunch | relocate | onNotification => exact .done

theorem run_moves (free : Bool) (m : Machine) (occurrences : List Occurrence)
    (hfree : free = false → ∀ occurrence ∈ occurrences, occurrence.suppliedId? = none) :
    m.ledger.Moves free (m.history occurrences) (m.run occurrences).ledger := by
  induction occurrences generalizing m with
  | nil => exact .done
  | cons occurrence rest ih =>
    have hfirst := perform_moves free m occurrence fun h => hfree h _ (.head rest)
    have hrest := ih (m.perform occurrence) fun h o ho => hfree h o (.tail _ ho)
    exact hfirst.trans hrest

end Machine

end CodeAtlas.Client
