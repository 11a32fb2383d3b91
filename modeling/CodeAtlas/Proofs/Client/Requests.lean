import CodeAtlas.Proofs.Client.Ending
import CodeAtlas.Proofs.Client.Turns

/-!
# What becomes of a request

A request that is being made goes on until it is settled with an outcome, or its call is dropped:
nothing else ends it, and once it has an outcome it keeps that one (`Stage.Continues`). In every run
the entries of the table stand for requests that are being made (`run_backed`). So what was pending
before a run has been settled or dropped in it, or is still being made (`run_request`).
-/

namespace CodeAtlas.Client

open Json (Value)
open Rpc (Message RequestId)

variable {occurrence : Occurrence} {id : RequestId} {outcome : Outcome}
  {d : Dispatch}

theorem Stage.continues_self {stage : Stage} (h : stage.request? = some d) :
    stage.Continues stage := by
  cases stage with
  | making => exact .wait _
  | leaving => exact .keep _ _
  | before | made | after => cases h

theorem Stage.Continues.request {stage next : Stage} (h : stage.Continues next)
    (hrequest : stage.request? = some d) : next.request? = some d := by
  cases h <;> exact hrequest

/-- The stage of a task shows the deed that registers a request only if it is being made then. -/
theorem Stage.request_of_deed {stage next : Stage} {t u : TaskId}
    (h : .dispatched t id ∈ stage.deeds u next) :
    t = u ∧ ∃ d, next.request? = some d ∧ d.id = id := by
  revert h
  fun_cases stage.deeds u next with
  | case6 _ _ _ d hrequest =>
    intro h
    cases List.mem_singleton.mp h
    exact ⟨rfl, d, hrequest, rfl⟩
  | _ => nofun

/-- The stage of a task shows that it has a request that it had not before. -/
theorem Stage.deed_of_request {stage next : Stage} (hold : stage.request? = none)
    (hnew : next.request? = some d) (t : TaskId) : .dispatched t d.id ∈ stage.deeds t next := by
  have hother : stage.request? ≠ some d := by simp [hold]
  cases next with
  | making | leaving =>
    cases hnew
    show _ ∈ if stage.request? = some d then [] else [Deed.dispatched t d.id]
    rw [if_neg hother]
    exact List.mem_singleton_self _
  | before | made | after => cases hnew

/-- The stage of a task shows the deed that settles a request only if the request ends then. -/
theorem Stage.settled_of_deed {stage next : Stage} {t u : TaskId}
    (h : .settled t id outcome ∈ stage.deeds u next) :
    t = u ∧ ∃ d e, stage.request? = some d ∧ next = .made e outcome ∧ e.id = id := by
  revert h
  fun_cases stage.deeds u next with
  | case2 e | case3 e =>
    intro h
    cases List.mem_singleton.mp h
    exact ⟨rfl, _, e, rfl, rfl, rfl⟩
  | _ => nofun

namespace Desk

variable {isOpen : Prop} {d next : Desk} {t u : TaskId} {phase : Phase}

theorem Turn.phase_other (hturn : d.Turn isOpen t next) (hne : t ≠ u)
    (hphase : d.phases[u]? = some phase) : next.phases[u]? = some phase := by
  have hset (new : Phase) : (d.phases.set t new)[u]? = some phase :=
    (List.getElem?_set_ne hne).trans hphase
  have hspawned (spawned : List Phase) (new : Phase) :
      ((d.spawn spawned).phases.set t new)[u]? = some phase :=
    (List.getElem?_set_ne hne).trans (phase_spawn hphase)
  cases hturn with
  | stay => exact hphase
  | move => exact hspawned _ _
  | ask | take | install | close | skip | write | balk | shut => exact hset _

/-- What happens leaves a task where it is unless it takes a turn or is dropped. -/
theorem Step.phase_other (hstep : d.Step isOpen occurrence next) (hturn : occurrence ≠ .turn u)
    (hdrop : occurrence ≠ .drop u) (hphase : d.phases[u]? = some phase) :
    next.phases[u]? = some phase := by
  cases hstep with
  | turn h => exact h.phase_other (fun heq => hturn (heq ▸ rfl)) hphase
  | drop h =>
    cases h with
    | stay => exact hphase
    | leave =>
      have hne : _ ≠ u := fun heq => hdrop (congrArg Occurrence.drop heq)
      exact (List.getElem?_set_ne hne).trans hphase
  | call => exact phase_spawn hphase
  | connect | pass => exact hphase

/-- What happens leaves a task where it is, or ends it, unless it takes a turn. -/
theorem Step.phase_or_finished (hstep : d.Step isOpen occurrence next)
    (hturn : occurrence ≠ .turn u) (hphase : d.phases[u]? = some phase) :
    next.phases[u]? = some phase ∨ next.phases[u]? = some .finished := by
  by_cases hdrop : occurrence = .drop u
  · subst hdrop
    cases hstep with
    | drop h =>
      cases h with
      | stay => exact .inl hphase
      | leave => exact .inr (phase_set hphase)
    | pass => exact .inl hphase
  · exact .inl (hstep.phase_other hturn hdrop hphase)

/-- A turn of a task that is at the writer with a request. -/
theorem Turn.continues_at_writer (hturn : d.Turn isOpen t next) (hphase : d.phases[t]? = some phase)
    (hplace : phase.isAtWriter = true) {e : Dispatch} (hrequest : phase.stage.request? = some e) :
    ∃ new, next.phases[t]? = some new ∧ phase.stage.Continues new.stage := by
  have hself : phase.stage.Continues phase.stage := Stage.continues_self hrequest
  cases hturn with
  | stay => exact ⟨phase, hphase, hself⟩
  | move hold hleaves | ask hold hleaves =>
    cases hphase.symm.trans hold
    rw [hleaves] at hplace
    cases hplace
  | take _ hold | write hold =>
    cases hphase.symm.trans hold
    exact ⟨_, phase_set hold, by cases ‹Errand› <;> exact hself⟩
  | install howner hold | close howner hold | skip howner hold | shut hold =>
    cases hphase.symm.trans hold
    cases hrequest
  | @balk message errand error hold =>
    cases hphase.symm.trans hold
    refine ⟨_, phase_set hold, ?_⟩
    cases errand with
    | request d => exact .take d (.error error)
    | notification | cancellation | initialized | exit | reply => cases hrequest

end Desk

namespace Machine

variable {m : Machine} {t : TaskId} {phase : Phase} {d : Dispatch}

theorem stage_of_phase (h : m.desk.phases[t]? = some phase) : m.stageOf t = phase.stage := by
  have hphase : (m.ledger.seats.map Seat.phase)[t]? = some phase := h
  rw [List.getElem?_map] at hphase
  obtain ⟨seat, hseat, rfl⟩ := Option.map_eq_some_iff.mp hphase
  rw [stage_of_ledger]
  exact Ledger.At.stage_of ⟨seat, hseat, rfl⟩

theorem task_of_stage (h : m.stageOf t ≠ .after) :
    ∃ task, m.tasks[t]? = some task ∧ m.stageOf t = task.phase.stage := by
  unfold stageOf at h ⊢
  cases htask : m.tasks[t]? with
  | none =>
    rw [htask] at h
    exact absurd rfl h
  | some task => exact ⟨task, rfl, rfl⟩

theorem task_of_request (h : (m.stageOf t).request? = some d) :
    ∃ task, m.tasks[t]? = some task ∧ m.stageOf t = task.phase.stage := by
  refine task_of_stage ?_
  intro hafter
  rw [hafter] at h
  cases h

/-- A turn of a task with a request: it goes on, or it gives up its place with the outcome that it
has. -/
theorem turn_continues (htidy : m.view.IsTidy) (h : (m.stageOf t).request? = some d) :
    (m.stageOf t).Continues ((m.perform (.turn t)).stageOf t) ∨
      ∃ outcome, m.stageOf t = .leaving d outcome ∧
        (m.perform (.turn t)).stageOf t = .made d outcome := by
  obtain ⟨task, htask, hstage⟩ := task_of_request h
  have hphase := desk_phase htask
  rw [hstage] at h ⊢
  by_cases haway : task.phase.isAtWriter = false
  · cases hstep : m.step t with
    | none =>
      rw [perform, hstep, Option.getD_none, hstage]
      exact .inl (Stage.continues_self h)
    | some next =>
      rw [perform, hstep, Option.getD_some]
      have hgoes := turn_goes htidy htask haway hstep
      generalize task.phase = old at h hphase hgoes ⊢
      generalize hdesk : next.desk = last at hgoes
      cases hgoes with
      | @moves _ new _ _ _ hmoves =>
        have hnew : next.desk.phases[t]? = some new := hdesk ▸ Desk.phase_set hphase
        rw [stage_of_phase hnew]
        generalize old.stage = stage, new.stage = later at h hmoves ⊢
        cases hmoves with
        | rest hnone => cases hnone.symm.trans h
        | go_on hcontinues => exact .inl hcontinues
        | settle =>
          cases h
          exact .inr ⟨_, rfl, rfl⟩
      | registers hregisters => cases hregisters.not_requested.symm.trans h
      | revokes => cases h
      | @asks _ job hasks =>
        have hnew : next.desk.phases[t]? = some (.lockWriter job) :=
          hdesk ▸ Desk.phase_set hphase
        rw [stage_of_phase hnew]
        cases hasks with
        | send =>
          cases h
          exact .inl (.wait d)
        | close hold => cases hold.2.symm.trans h
        | _ => cases h
      | opens | greets | reads | leaves => cases h
  · obtain ⟨new, hnew, hcontinues⟩ :=
      (perform_desk htidy (.turn t)).turn_of.continues_at_writer hphase
        (Bool.not_eq_false _ ▸ haway) h
    rw [stage_of_phase hnew]
    exact .inl hcontinues

theorem making_of_suspended (hsuspended : phase.isSuspended = true)
    (h : phase.stage.request? = some d) : phase.stage = .making d := by
  revert hsuspended h
  fun_cases Phase.stage with
  | case6 | case7 | case8 | case9 | case10 =>
    exact fun _ h => congrArg Stage.making (Option.some.inj h)
  | case11 | case12 => intro hsuspended; cases hsuspended
  | _ => intro _ h; cases h

/-- Whatever happens, a request that is being made goes on, or it is settled with the outcome that
it has, or its call is dropped. -/
theorem perform_request (htidy : m.view.IsTidy) (h : (m.stageOf t).request? = some d)
    (occurrence : Occurrence) :
    (m.stageOf t).Continues ((m.perform occurrence).stageOf t) ∨
      (∃ outcome, m.stageOf t = .leaving d outcome ∧
        .settled t d.id outcome ∈ m.deeds occurrence) ∨
      m.stageOf t = .making d ∧ .dropped t d.id ∈ m.deeds occurrence := by
  by_cases hturn : occurrence = .turn t
  · subst hturn
    rcases turn_continues htidy h with hcontinues | ⟨outcome, hbefore, hafter⟩
    · exact .inl hcontinues
    · refine .inr (.inl ⟨outcome, hbefore, List.mem_append_right _ ?_⟩)
      rw [hbefore, hafter]
      exact List.mem_singleton_self _
  · by_cases hdrop : occurrence = .drop t
    · subst hdrop
      cases hsuspended : m.isSuspended t with
      | false =>
        simp only [perform, hsuspended, Bool.false_eq_true, ↓reduceIte]
        exact .inl (Stage.continues_self h)
      | true =>
        obtain ⟨task, htask, hphase⟩ := (Option.any_eq_true _ _).mp hsuspended
        have hstage := stage_of_phase (desk_phase htask)
        rw [hstage] at h ⊢
        have hmaking := making_of_suspended hphase h
        refine .inr (.inr ⟨hmaking, ?_⟩)
        simp only [deeds, hsuspended, hstage, hmaking, List.mem_singleton]
    · obtain ⟨task, htask, hstage⟩ := task_of_request h
      have hphase := (perform_desk htidy occurrence).phase_other hturn hdrop (desk_phase htask)
      rw [stage_of_phase hphase, ← hstage]
      exact .inl (Stage.continues_self h)

theorem leaving_of_settled (htidy : m.view.IsTidy)
    (h : .settled t id outcome ∈ m.deeds occurrence) :
    ∃ d, m.stageOf t = .leaving d outcome ∧ d.id = id := by
  obtain ⟨u, rfl, hown⟩ | ⟨u, other, hdropped⟩ := own_cases h rfl
  · obtain ⟨rfl, d, e, hrequest, hmade, rfl⟩ := Stage.settled_of_deed hown
    rcases turn_continues htidy hrequest with hcontinues | ⟨other, hleaving, hother⟩
    · have hstill := hcontinues.request hrequest
      rw [hmade] at hstill
      cases hstill
    · cases hmade.symm.trans hother
      exact ⟨d, hleaving, rfl⟩
  · cases hdropped

/-- Along a run a request goes on to be made until it is settled or its call is dropped. -/
theorem run_request (hm : m.IsRegular) (h : (m.stageOf t).request? = some d)
    (occurrences : List Occurrence) :
    ((m.run occurrences).stageOf t).request? = some d ∨
      (∃ outcome, .settled t d.id outcome ∈ m.history occurrences) ∨
      .dropped t d.id ∈ m.history occurrences := by
  induction occurrences generalizing m with
  | nil => exact .inl h
  | cons occurrence rest ih =>
    rcases perform_request hm.tidy h occurrence with hcontinues | ⟨outcome, -, hsettled⟩ |
      ⟨-, hdropped⟩
    · rcases ih (hm.perform occurrence) (hcontinues.request h) with
        hrequest | ⟨outcome, hsettled⟩ | hdropped
      · exact .inl hrequest
      · exact .inr (.inl ⟨outcome, List.mem_append_right _ hsettled⟩)
      · exact .inr (.inr (List.mem_append_right _ hdropped))
    · exact .inr (.inl ⟨outcome, List.mem_append_left _ hsettled⟩)
    · exact .inr (.inr (List.mem_append_left _ hdropped))

/-- Along a run a request keeps the outcome that it has until it is settled with it. -/
theorem run_leaving (hm : m.IsRegular) (h : m.stageOf t = .leaving d outcome)
    (occurrences : List Occurrence) :
    (m.run occurrences).stageOf t = .leaving d outcome ∨
      .settled t d.id outcome ∈ m.history occurrences := by
  induction occurrences generalizing m with
  | nil => exact .inl h
  | cons occurrence rest ih =>
    have hrequest : (m.stageOf t).request? = some d := by rw [h]; rfl
    rcases perform_request hm.tidy hrequest occurrence with hcontinues | ⟨other, hother, hsettled⟩ |
      ⟨hmaking, -⟩
    · rw [h] at hcontinues
      generalize hnext : (m.perform occurrence).stageOf t = next at hcontinues
      cases hcontinues
      exact (ih (hm.perform occurrence) hnext).imp_right (List.mem_append_right _)
    · cases h.symm.trans hother
      exact .inr (List.mem_append_left _ hsettled)
    · cases h.symm.trans hmaking

end Machine

namespace Ledger

variable {free : Bool} {L next : Ledger} {entry : Pending}

theorem mem_of_mem_strike (h : entry ∈ (L.strike id).pending) : entry ∈ L.pending :=
  (mem_strike.mp h).1

theorem Does.added {deed : Deed} (h : L.Does deed next) (hentry : entry ∈ next.pending) :
    entry ∈ L.pending ∨ deed = .dispatched entry.owner entry.id := by
  cases h with
  | @dispatch t supplied d phase hat hid hpending hstage =>
    rcases List.mem_append.mp hentry with hold | hnew
    · exact .inl (L.number_pending supplied ▸ hold)
    · cases List.mem_singleton.mp hnew
      exact .inr rfl
  | @refuse t supplied => exact .inl (L.number_pending supplied ▸ hentry)
  | response | cancel =>
    rw [resolve_pending] at hentry
    exact .inl (mem_of_mem_strike hentry)
  | fail hfault =>
    rw [resolve_all_pending] at hentry
    cases hentry
  | @settle t d outcome phase hat hstage =>
    have hleft : entry ∈ (L.unregister t d.id).pending := hentry
    rw [unregister_pending] at hleft
    exact .inl (mem_of_mem_strike hleft)
  | @drop t d phase hat hstage =>
    rw [unregister_pending] at hentry
    exact .inl (mem_of_mem_strike (L := L.setPhase t phase) hentry)

theorem Moves.added {deeds : List Deed} (h : L.Moves free deeds next)
    (hentry : entry ∈ next.pending) :
    entry ∈ L.pending ∨ .dispatched entry.owner entry.id ∈ deeds := by
  induction h with
  | done => exact .inl hentry
  | quiet hquiet _ ih =>
    refine (ih hentry).imp_left ?_
    intro hmiddle
    cases hquiet <;> exact hmiddle
  | does hdoes _ ih =>
    rcases ih hentry with hmiddle | hlater
    · rcases hdoes.added hmiddle with hold | rfl
      · exact .inl hold
      · exact .inr (.head _)
    · exact .inr (.tail _ hlater)

end Ledger

namespace Machine

variable {m : Machine} {t : TaskId} {id : RequestId}

/-- A request is registered by a turn of its task, and the stage of the task shows it. -/
theorem own_of_dispatched (h : .dispatched t id ∈ m.deeds occurrence) :
    occurrence = .turn t ∧
      .dispatched t id ∈ (m.stageOf t).deeds t ((m.perform (.turn t)).stageOf t) := by
  obtain ⟨u, rfl, hown⟩ | ⟨u, other, hdropped⟩ := own_cases h rfl
  · obtain ⟨rfl, -⟩ := Stage.request_of_deed hown
    exact ⟨rfl, hown⟩
  · cases hdropped

theorem before_of_dispatched (h : .dispatched t id ∈ m.deeds occurrence) :
    ∃ supplied, m.stageOf t = .before supplied := by
  obtain ⟨rfl, hown⟩ := own_of_dispatched h
  have hturn := perform_turn true m t
  rw [stage_of_ledger, stage_of_ledger] at hown
  rw [stage_of_ledger]
  generalize (m.perform (.turn t)).ledger = next at hturn hown
  generalize m.deedsOfTurn t = deeds at hturn
  cases hturn with
  | idle =>
    rw [Stage.deeds_self] at hown
    cases hown
  | @advance _ middle seat phase hmoves hat hseat hquiet =>
    have hmiddle : middle.At t seat.stage := ⟨seat, hseat, rfl⟩
    rw [hat.stage_of, (hmiddle.set_phase phase).stage_of, hquiet.deeds_eq] at hown
    cases hown
  | @request deed middle _ supplied stage hmoves hat hdoes hlast hdeeds =>
    exact ⟨supplied, hat.stage_of⟩
  | @settle d outcome phase hat hstage =>
    rw [hat.stage_of, ((hat.unregister t d.id).set_phase phase).stage_of, hstage] at hown
    cases List.mem_singleton.mp hown

/-- A request is made by a task that registers it. -/
theorem registers_of_dispatched (htidy : m.view.IsTidy) (h : .dispatched t id ∈ m.deeds occurrence) :
    occurrence = .turn t ∧ ∃ old message d, d.id = id ∧ m.desk.phases[t]? = some old ∧
      m.Registers t old message d ∧
      (m.perform (.turn t)).desk.phases[t]? = some (.registered message d) := by
  obtain ⟨supplied, hbefore⟩ := before_of_dispatched h
  obtain ⟨rfl, hown⟩ := own_of_dispatched h
  obtain ⟨-, d, hrequest, hid⟩ := Stage.request_of_deed hown
  refine ⟨rfl, ?_⟩
  obtain ⟨task, htask, hstage⟩ := task_of_stage (t := t) (by rw [hbefore]; nofun)
  have hphase := desk_phase htask
  have hother := hbefore.symm.trans hstage
  have hnone : task.phase.stage.request? = none := by
    rw [← hother]
    rfl
  have hnew {new : Phase} (h : (m.perform (.turn t)).desk.phases[t]? = some new) :
      new.stage.request? = some d := by
    rw [← stage_of_phase h]
    exact hrequest
  have hstays (h : (m.perform (.turn t)).desk.phases[t]? = m.desk.phases[t]?) : False := by
    cases hnone.symm.trans (hnew (h.trans hphase))
  by_cases haway : task.phase.isAtWriter = false
  · cases hstep : m.step t with
    | none => exact (hstays (by rw [perform, hstep, Option.getD_none])).elim
    | some next =>
      rw [perform, hstep, Option.getD_some] at hnew ⊢
      have hgoes := turn_goes htidy htask haway hstep
      obtain ⟨new, hlast, ⟨job, rfl, hasks⟩ | ⟨message, e, rfl, hregisters⟩ | ⟨-, -, hstill⟩⟩ :=
        hgoes.phase hphase
      · cases (hasks.request_eq.trans hnone).symm.trans (hnew hlast)
      · cases hnew hlast
        exact ⟨_, message, d, hid, hphase, hregisters, hlast⟩
      · cases (hstill hnone).symm.trans (hnew hlast)
  · -- A task at the writer that has no request yet installs the writer.
    have hturn := (perform_desk htidy (.turn t)).turn_of
    obtain ⟨phase, inbox, isQueued, isAborted, joiner⟩ := task
    cases phase with
    | lockWriter job =>
      cases job with
      | install c =>
        generalize hdesk : (m.perform (.turn t)).desk = last at hturn
        cases hturn with
        | stay => exact (hstays (by rw [hdesk])).elim
        | @install c howner hold =>
          have hopened : (m.perform (.turn t)).desk.phases[t]? = some (.opened c) := by
            rw [hdesk]
            exact Desk.phase_set hold
          cases hnew hopened
        | move hold hleaves | ask hold hleaves =>
          cases hphase.symm.trans hold
          cases hleaves
        | take _ hold | close _ hold | skip _ hold | write hold | balk hold | shut hold =>
          cases hphase.symm.trans hold
      | send message errand => cases errand <;> cases hother
      | close => cases hother
    | writing message errand => cases errand <;> cases hother
    | shutting => cases hother
    | _ => exact absurd rfl haway

/-- Every entry of the table stands for a request that its owner is making. -/
def IsBacked (m : Machine) : Prop :=
  ∀ entry ∈ m.pending, ∃ d, (m.stageOf entry.owner).request? = some d ∧ d.id = entry.id

theorem IsBacked.perform (h : m.IsBacked) (htidy : m.view.IsTidy) (occurrence : Occurrence) :
    (m.perform occurrence).IsBacked := by
  intro entry hentry
  -- The request of an entry that is left has not ended: its end takes the entry out.
  have hleft (d : Dispatch) (hid : d.id = entry.id)
      (hending : (entry.owner, d.id) ∈ endings (m.deeds occurrence)) : False := by
    have hpending := (perform_ends hending).1.pending
    have hstruck : entry ∈ (m.ledger.strike d.id).pending := hpending ▸ hentry
    exact (Ledger.mem_strike.mp hstruck).2 hid.symm
  rcases (perform_moves true m occurrence nofun).added hentry with hold | hnew
  · obtain ⟨d, hrequest, hid⟩ := h entry hold
    rcases perform_request htidy hrequest occurrence with hcontinues | ⟨outcome, -, hsettled⟩ |
      ⟨-, hdropped⟩
    · exact ⟨d, hcontinues.request hrequest, hid⟩
    · exact (hleft d hid (List.mem_filterMap.mpr ⟨_, hsettled, rfl⟩)).elim
    · exact (hleft d hid (List.mem_filterMap.mpr ⟨_, hdropped, rfl⟩)).elim
  · obtain ⟨rfl, hown⟩ := own_of_dispatched hnew
    exact (Stage.request_of_deed hown).2

/-- In every run, every entry stands for a request that is being made. -/
theorem run_backed (h : m.IsBacked) (hm : m.IsRegular) (occurrences : List Occurrence) :
    (m.run occurrences).IsBacked :=
  run_keeps (fun _ occurrence hm h => IsBacked.perform h hm.tidy occurrence) hm h occurrences

end Machine

end CodeAtlas.Client
