import CodeAtlas.Proofs.Client.Requests
import CodeAtlas.Proofs.Client.Stops

/-!
# A session that fails

A task finds that the connection is lost when its stream ends or faults, or when the message of a
request or of a notification cannot be written (`Machine.losesConnection`). With that turn the whole
session fails, for good (`Machine.failure_total`): the client is in error, nothing is pending, and
every request that was pending has been told that the server is gone. From then on only a stop gets
the client out of that state (`Machine.run_error`), whatever startups are still under way.
-/

namespace CodeAtlas.Client

open Json (Value)
open Rpc (Message RequestId)

theorem State.failed_of_live {state : State} (h : state.isLive = true) : state.failed = .error := by
  cases state with
  | shuttingDown | disconnected => cases h
  | connecting | connected | initializing | initialized | error => rfl

variable {entry : Pending}

/-- Every owner of an entry gets the outcome of its request, as it has got nothing before. -/
theorem Ledger.IsOrderly.holds_resolve_all {L : Ledger} (h : L.IsOrderly) (outcome : Outcome)
    (hentry : entry ∈ L.pending) :
    (L.resolveAll fun _ => outcome).Holds entry.owner (.delivered outcome) := by
  obtain ⟨seat, hseat, hempty, hmade⟩ := h.waits entry hentry
  refine ⟨seat.put (.delivered outcome), ?_, ?_, ?_⟩
  · have hgiven := seat_give_all (fun _ => outcome) L.pending { L with pending := [] } entry.owner
    have hfound : (L.pending.find? fun other => other.owner == entry.owner).isSome = true := by
      rw [List.find?_isSome]
      exact ⟨entry, hentry, beq_self_eq_true _⟩
    obtain ⟨first, hfirst⟩ := Option.isSome_iff_exists.mp hfound
    simp only [hfirst, hseat, Option.map_some] at hgiven
    exact hgiven
  · simp only [Seat.put, hempty]
  · rw [Seat.stage_put]
    exact hmade

namespace Machine

variable {m : Machine} {t : TaskId}

/-- Whether the next reading from a connection meets the end of its stream, or an error. -/
def meetsEnd (m : Machine) (c : ConnectionId) : Bool :=
  match (m.connection? c).bind Connection.read with
  | some (.ended, _) => true
  | some (.fault _, _) => true
  | _ => false

/-- Whether the next turn of a task is the one in which it finds that the connection is lost. -/
def losesConnection (m : Machine) (t : TaskId) : Bool :=
  match m.tasks[t]? with
  | none => false
  | some task =>
    !task.isAborted &&
      match task.phase with
      | .sent errand (.error e) => errand.failsSession && e.isTransport
      | .reading c _ => m.meetsEnd c
      | _ => false

/-- A task that waits for a response does not find by itself that the connection is lost. -/
theorem not_awaiting_of_loss (hlost : m.losesConnection t = true) (d : Dispatch)
    (deadline : Time.Duration) : m.desk.phases[t]? ≠ some (.awaiting d deadline) := by
  intro hawaiting
  unfold losesConnection at hlost
  split at hlost
  · cases hlost
  · next task htask =>
    have hphase := Option.some.inj ((desk_phase htask).symm.trans hawaiting)
    rw [hphase, Bool.and_false] at hlost
    cases hlost

/-- A session fails with a turn of a task that has reached a stage with its request and stays
there. -/
structure FailsAt (m : Machine) (t : TaskId) (stage : Stage) (next : Machine) : Prop where
  state : next.view.state = .error
  made : ∀ supplied, stage ≠ .before supplied
  resolved : ∃ phase : Phase, phase.stage = stage ∧
    next.ledger = (m.ledger.resolveAll fun _ => .error .serverExited).setPhase t phase

theorem after_send_fails (hlive : m.state.isLive = true) {errand : Errand} {e : Error}
    (hfails : errand.failsSession = true) (htransport : e.isTransport = true) :
    m.FailsAt t (Phase.sent errand (.error e)).stage (m.afterSend t errand (.error e)) := by
  have hmade (supplied : Option RequestId) :
      (Phase.sent errand (.error e)).stage ≠ .before supplied := by
    intro hbefore
    cases errand <;> cases hbefore
  have hledger (n : Machine) :
      (n.failOn e).ledger = n.ledger.resolveAll fun _ => .error .serverExited := by
    rw [ledger_fail_on, if_pos htransport]
  have hstate {n : Machine} (hn : n.state = m.state) : (n.failOn e).view.state = .error := by
    rw [view_fail_on, if_pos htransport]
    exact State.failed_of_live (by rwa [← hn] at hlive)
  cases errand with
  | request d =>
    refine ⟨?_, hmade, .leaving d (.error e), rfl, ?_⟩
    · rw [afterSend, view_go_to]
      exact hstate rfl
    · rw [afterSend, ledger_go_to, hledger]
      rfl
  | notification | cancellation =>
    refine ⟨?_, hmade, .finished, rfl, ?_⟩
    · rw [afterSend, view_return]
      exact hstate rfl
    · rw [afterSend, ledger_return, hledger]
  | initialized =>
    refine ⟨?_, hmade, .tearDown (.failed e), rfl, ?_⟩
    · rw [afterSend, view_fail_startup]
      rfl
    · rw [afterSend, ledger_fail_startup, hledger]
  | exit | reply => cases hfails

theorem read_once_fails (hlive : m.state.isLive = true) {c : ConnectionId} (buffer : Wire.Buffer)
    (hend : m.meetsEnd c = true) :
    ∃ next, m.readOnce t c buffer = some next ∧ m.FailsAt t .after next := by
  have hfails (connection : Connection) (fault : Option String) :
      m.FailsAt t .after
        (((m.setConnection c fun _ => connection).loseConnection fault).finish t) := by
    refine ⟨?_, nofun, .finished, rfl, ?_⟩
    · rw [view_finish, view_lose_connection]
      exact State.failed_of_live hlive
    · have hsame : (m.setConnection c fun _ => connection).state.isLive = true := hlive
      rw [ledger_finish, ledger_lose_connection, if_pos hsame]
      rfl
  unfold meetsEnd at hend
  split at hend
  · next connection hread => exact ⟨_, by rw [readOnce, hread], hfails connection none⟩
  · next text connection hread => exact ⟨_, by rw [readOnce, hread], hfails connection (some text)⟩
  · cases hend

theorem turn_fails (hlive : m.state.isLive = true) (hlost : m.losesConnection t = true) :
    m.FailsAt t (m.stageOf t) (m.perform (.turn t)) := by
  unfold losesConnection at hlost
  split at hlost
  · cases hlost
  · next task htask =>
    rw [Bool.and_eq_true, Bool.not_eq_true'] at hlost
    obtain ⟨haborted, hlost⟩ := hlost
    rw [stage_of_phase (desk_phase htask)]
    obtain ⟨phase, inbox, isQueued, isAborted, joiner⟩ := task
    cases haborted
    split at hlost
    · next errand e hphase =>
      cases hphase
      rw [Bool.and_eq_true] at hlost
      have hnext : m.perform (.turn t) = m.afterSend t errand (.error e) := by
        rw [perform, step, htask]
        rfl
      rw [hnext]
      exact after_send_fails hlive hlost.1 hlost.2
    · next c buffer hphase =>
      cases hphase
      obtain ⟨next, hread, hfails⟩ := read_once_fails (t := t) hlive buffer hlost
      have hnext : m.perform (.turn t) = next := by
        rw [perform, step, htask]
        exact congrArg (Option.getD · m) hread
      rw [hnext]
      exact hfails
    · cases hlost

/-- Something has come for a task that waits for it, or that has taken it: its request, if it still
has one, gets this outcome and no other. -/
structure IsServed (m : Machine) (t : TaskId) (outcome : Outcome) : Prop where
  holds : m.ledger.Holds t (.delivered outcome)
  gets : ∀ phase d, m.desk.phases[t]? = some phase → phase.stage.request? = some d →
    (∃ deadline, phase = .awaiting d deadline) ∨ phase.stage = .leaving d outcome

variable {occurrences : List Occurrence} {d : Dispatch}

namespace IsServed

variable {outcome : Outcome}

/-- A turn of a task that is served: it takes what has come, or settles its request with it. -/
theorem turn (h : m.IsServed t outcome) (htidy : m.view.IsTidy) {phase : Phase}
    (hphase : (m.perform (.turn t)).desk.phases[t]? = some phase)
    (hrequest : phase.stage.request? = some d) : phase.stage = .leaving d outcome := by
  obtain ⟨task, htask, hinbox, hmade⟩ := task_of_holds h.holds
  have hbefore := stage_of_phase (desk_phase htask)
  have hafter := stage_of_phase hphase
  rw [← hafter] at hrequest ⊢
  cases hold : (m.stageOf t).request? with
  | none =>
    -- A request that it had not before would be its first one.
    have hdispatched : .dispatched t d.id ∈ m.deeds (.turn t) :=
      List.mem_append_right _ (Stage.deed_of_request hold hrequest t)
    obtain ⟨supplied, hfirst⟩ := before_of_dispatched hdispatched
    exact absurd (hbefore.symm.trans hfirst) (hmade supplied)
  | some e =>
    rw [hbefore] at hold
    rcases h.gets _ e (desk_phase htask) hold with ⟨deadline, hawaiting⟩ | hleaving
    · obtain ⟨old, inbox, isQueued, isAborted, joiner⟩ := task
      cases hawaiting
      cases not_aborted htidy htask rfl
      cases hinbox
      have hnext : m.perform (.turn t) = m.goTo t (.leaving e outcome) := by
        rw [perform, step, htask]
        rfl
      have hgone : (m.perform (.turn t)).desk.phases[t]? = some (.leaving e outcome) := by
        rw [hnext, desk_go_to]
        exact Desk.phase_set (desk_phase htask)
      rw [stage_of_phase hgone] at hrequest ⊢
      cases hrequest
      rfl
    · rw [← hbefore] at hold hleaving
      rcases turn_continues htidy hold with hcontinues | ⟨other, -, hother⟩
      · rw [hleaving] at hcontinues
        generalize (m.perform (.turn t)).stageOf t = next at hcontinues hrequest ⊢
        cases hcontinues
        cases hrequest
        rfl
      · rw [hother] at hrequest
        cases hrequest

theorem perform (h : m.IsServed t outcome) (htidy : m.view.IsTidy) (occurrence : Occurrence) :
    (m.perform occurrence).IsServed t outcome := by
  refine ⟨(perform_moves true m occurrence nofun).holds h.holds nofun, ?_⟩
  intro phase d hphase hrequest
  by_cases hturn : occurrence = .turn t
  · subst hturn
    exact .inr (h.turn htidy hphase hrequest)
  · obtain ⟨task, htask, -, -⟩ := task_of_holds h.holds
    rcases (perform_desk htidy occurrence).phase_or_finished hturn (desk_phase htask) with
      hsame | hfinished
    · cases hphase.symm.trans hsame
      exact h.gets _ d (desk_phase htask) hrequest
    · cases hphase.symm.trans hfinished
      cases hrequest

/-- A task that is served settles its request only with the outcome that has come for it. -/
theorem run_settled (h : m.IsServed t outcome) (hm : m.IsRegular) {id : RequestId} {other : Outcome}
    (hsettled : .settled t id other ∈ m.history occurrences) : other = outcome := by
  induction occurrences generalizing m with
  | nil => cases hsettled
  | cons occurrence rest ih =>
    rcases List.mem_append.mp hsettled with hnow | hlater
    · obtain ⟨d, hleaving, -⟩ := leaving_of_settled hm.tidy hnow
      obtain ⟨task, htask, hstage⟩ := task_of_stage (t := t) (by rw [hleaving]; nofun)
      have hphase := hstage.symm.trans hleaving
      rcases h.gets _ d (desk_phase htask) (by rw [hphase]; rfl) with ⟨deadline, hawaiting⟩ |
        hgets
      · rw [hawaiting] at hphase
        cases hphase
      · cases hphase.symm.trans hgets
        rfl
    · exact ih (h.perform hm.tidy occurrence) (hm.perform occurrence) hlater

end IsServed

def isStopping (m : Machine) (t : TaskId) : Bool := (m.view.duty? t).any Duty.isStop

def NoStopActs (m : Machine) : List Occurrence → Prop
  | [] => True
  | occurrence :: rest =>
    (∀ t, occurrence = .turn t → m.isStopping t = false) ∧ (m.perform occurrence).NoStopActs rest

theorem run_error (hstate : m.state = .error) (hrest : m.NoStopActs occurrences) :
    (m.run occurrences).state = .error := by
  induction occurrences generalizing m with
  | nil => exact hstate
  | cons occurrence rest ih =>
    obtain ⟨hnow, hlater⟩ := hrest
    refine ih ?_ hlater
    have hstep := perform_step m occurrence
    cases occurrence with
    | turn t =>
      rcases View.stop_of_error hstep.turn_of hstate with herror | ⟨duty, hduty, hstop⟩
      · exact herror
      · have hacts : m.isStopping t = true := by
          rw [isStopping, hduty]
          exact hstop
        cases (hnow t rfl).symm.trans hacts
    | _ => exact (hstep.state_eq nofun).trans hstate

theorem no_stop_acts (hnone : ∀ t, m.isStopping t = false) (huncalled : .call .stop ∉ occurrences) :
    m.NoStopActs occurrences := by
  induction occurrences generalizing m with
  | nil => trivial
  | cons occurrence rest ih =>
    rw [List.mem_cons, not_or] at huncalled
    refine ⟨fun t _ => hnone t, ih ?_ huncalled.2⟩
    intro t
    rw [← Bool.not_eq_true, isStopping, Option.any_eq_true]
    rintro ⟨duty, hduty, hstop⟩
    obtain ⟨old, hold, hbefore⟩ := (perform_step m occurrence).stop_before (Ne.symm huncalled.1)
      hduty hstop
    have hstopping : m.isStopping t = true := by
      rw [isStopping, hold]
      exact hbefore
    cases (hnone t).symm.trans hstopping

/-- The session of a client has failed with a turn of a task. -/
structure HasFailed (m next : Machine) (t : TaskId) : Prop where
  state : next.state = .error
  emptied : next.pending = []
  /-- Nothing had come for the owner of an entry. It is told that the server is gone, and nothing
  comes for it any more. -/
  told : ∀ entry ∈ m.pending, m.inboxOf entry.owner = some .empty ∧
    ∀ after, (next.run after).inboxOf entry.owner = some (.delivered (.error .serverExited))
  /-- The requests that wait for their responses end with what they are told. -/
  answered : ∀ entry ∈ m.pending, ∀ d deadline,
    m.desk.phases[entry.owner]? = some (.awaiting d deadline) → ∀ after id outcome,
      .settled entry.owner id outcome ∈ next.history after → outcome = .error .serverExited
  /-- A request that could not be sent ends with the error of its own message. -/
  own : ∀ d e, m.desk.phases[t]? = some (.sent (.request d) (.error e)) → ∀ after,
    (next.run after).stageOf t = .leaving d (.error e) ∨
      .settled t d.id (.error e) ∈ next.history after
  /-- Only a stop that takes a turn gets the client out of its state. -/
  final : ∀ after, next.NoStopActs after → (next.run after).state = .error
  /-- Such a stop is under way, or is called later. -/
  uncalled : (∀ u, next.isStopping u = false) → ∀ after, .call .stop ∉ after →
    (next.run after).state = .error

section

variable (hlive : m.state.isLive = true) (hlost : m.losesConnection t = true)
include hlive hlost

/-- Whoever has a request in the table is told that the server is gone. -/
theorem holds_of_loss (horderly : m.ledger.IsOrderly) (hentry : entry ∈ m.pending) :
    (m.perform (.turn t)).ledger.Holds entry.owner (.delivered (.error .serverExited)) := by
  obtain ⟨-, hmade, phase, hphase, hledger⟩ := turn_fails hlive hlost
  rw [hledger]
  exact (horderly.holds_resolve_all _ hentry).set_phase fun _ => hphase ▸ hmade

theorem served_of_loss (horderly : m.ledger.IsOrderly) (htidy : m.view.IsTidy)
    (hentry : entry ∈ m.pending) {deadline : Time.Duration}
    (hawaiting : m.desk.phases[entry.owner]? = some (.awaiting d deadline)) :
    (m.perform (.turn t)).IsServed entry.owner (.error .serverExited) := by
  have hother : t ≠ entry.owner := by
    rintro rfl
    exact not_awaiting_of_loss hlost d deadline hawaiting
  have hstill := (perform_desk htidy (.turn t)).turn_of.phase_other hother hawaiting
  refine ⟨holds_of_loss hlive hlost horderly hentry, ?_⟩
  intro phase e hphase hrequest
  cases hphase.symm.trans hstill
  cases hrequest
  exact .inl ⟨deadline, rfl⟩

theorem leaving_of_loss {e : Error}
    (hsent : m.desk.phases[t]? = some (.sent (.request d) (.error e))) :
    (m.perform (.turn t)).stageOf t = .leaving d (.error e) := by
  obtain ⟨-, -, phase, hphase, hledger⟩ := turn_fails hlive hlost
  have hbefore : m.stageOf t = .leaving d (.error e) := stage_of_phase hsent
  obtain ⟨task, htask, -⟩ := task_of_stage (t := t) (by rw [hbefore]; nofun)
  rw [stage_of_ledger, hledger, (((ledger_at htask).resolve_all _).set_phase phase).stage_of,
    hphase, hbefore]

end

/-- A task of a client that is not ending anyway finds the connection lost, after whatever has
happened: the whole session fails, and for good. -/
theorem failure_total (setup : Setup) (before : List Occurrence) {m : Machine}
    {t : TaskId} (hm : (unused setup).run before = m)
    (hlive : m.state.isLive = true) (hlost : m.losesConnection t = true) :
    m.HasFailed (m.perform (.turn t)) t := by
  have hregular := (unused_regular setup).run before
  have horderly := run_orderly setup before
  rw [hm] at hregular horderly
  have hlater := hregular.perform (.turn t)
  obtain ⟨hstate, -, phase, -, hledger⟩ := turn_fails hlive hlost
  refine ⟨hstate, ?_, ?_, ?_, ?_, ?_, ?_⟩
  · have hpending : (m.perform (.turn t)).ledger.pending = [] := by
      rw [hledger]
      exact Ledger.resolve_all_pending _ _
    exact hpending
  · intro entry hentry
    have htold := holds_of_loss hlive hlost horderly hentry
    exact ⟨inbox_of_holds (horderly.waits entry hentry),
      fun after => inbox_of_holds (run_holds htold nofun after)⟩
  · intro entry hentry d deadline hawaiting after id outcome hsettled
    have hserved := served_of_loss hlive hlost horderly hregular.tidy hentry hawaiting
    exact hserved.run_settled hlater hsettled
  · intro d e hsent after
    exact run_leaving hlater (leaving_of_loss hlive hlost hsent) after
  · intro after hrest
    exact run_error hstate hrest
  · intro hnone after huncalled
    exact run_error hstate (no_stop_acts hnone huncalled)

/-- Task 2 waits for the response to a request when the message of another one, which task 3 makes,
cannot be written. -/
def brokenPipe : List Occurrence :=
  handshake ++ [.call (.request "textDocument/hover" none none none)] ++
    List.replicate 6 (.turn 2) ++ [.setMode 0 (.fail "broken pipe"),
      .call (.request "textDocument/definition" none none none)] ++ List.replicate 5 (.turn 3)

/-- The failure of one request is the failure of both. -/
theorem failure_total_broken_pipe :
    ∃ m, sampleClient.run brokenPipe = m ∧ m.state = .initialized ∧
      m.pending = [⟨.number 2, 2⟩, ⟨.number 3, 3⟩] ∧ m.losesConnection 3 = true ∧
      m.HasFailed (m.perform (.turn 3)) 3 :=
  ⟨_, rfl, by decide +kernel, by decide +kernel, by decide +kernel,
    failure_total _ brokenPipe rfl (by decide +kernel) (by decide +kernel)⟩

end Machine

end CodeAtlas.Client
