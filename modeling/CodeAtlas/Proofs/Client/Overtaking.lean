import CodeAtlas.Proofs.Client.Turns

/-!
# Calls that are overtaken

A call of a user looks at the state, registers its request if it has one, and asks for the writer,
with a step for each. Where tasks run on several threads, others may come in between and end the
session that the call was admitted to. The call is overtaken then: it goes on although the client is
not initialized. `Machine.overtaken` lists the calls of a run to which that happens. There are none
in a run in which every call goes on to the writer as soon as it is admitted
(`overtaken_of_prompt`). Where tasks give way to each other only when they have to wait, every run
is such a run.
-/

namespace CodeAtlas.Client

variable {t u : TaskId} {phase : Phase} {occurrence : Occurrence} {phases spawned : List Phase}

/-- A task that goes on to a phase in which it is not admitted leaves the others as they are. -/
theorem admitted_of_set {new : Phase} (hnew : new.isAdmitted = false)
    (h : (phases.set t new)[u]? = some phase) (hphase : phase.isAdmitted = true) :
    t ≠ u ∧ phases[u]? = some phase := by
  rcases item_set h with ⟨-, rfl⟩ | hother
  · cases hnew.symm.trans hphase
  · exact hother

theorem admitted_of_spawn (hspawned : ∀ phase ∈ spawned, phase.isAdmitted = false)
    (h : (phases ++ spawned)[u]? = some phase) (hphase : phase.isAdmitted = true) :
    phases[u]? = some phase := by
  rcases item_appended h with hold | ⟨-, hmem⟩
  · exact hold
  · cases (hspawned _ hmem).symm.trans hphase

/-- Calls are admitted with turns only. -/
theorem Desk.Step.admitted_outside {isOpen : Prop} {d next : Desk}
    (hstep : d.Step isOpen occurrence next) (hturn : ∀ t, occurrence ≠ .turn t)
    (hu : next.phases[u]? = some phase) (hphase : phase.isAdmitted = true) :
    d.phases[u]? = some phase := by
  cases hstep with
  | turn => exact absurd rfl (hturn _)
  | drop hdrop =>
    cases hdrop with
    | stay => exact hu
    | leave => exact (admitted_of_set (rfl : Phase.finished.isAdmitted = false) hu hphase).2
  | call => exact admitted_of_spawn (by simp [Phase.isAdmitted]) hu hphase
  | connect | pass => exact hu

namespace Machine

variable {m next : Machine} {old : Phase}

theorem admitted_iff : m.isAdmitted t = true ↔
    ∃ phase : Phase, m.desk.phases[t]? = some phase ∧ phase.isAdmitted = true := by
  constructor
  · intro h
    obtain ⟨task, htask, hadmitted⟩ := (Option.any_eq_true _ _).mp h
    exact ⟨task.phase, desk_phase htask, hadmitted⟩
  · rintro ⟨phase, hphase, hadmitted⟩
    obtain ⟨task, htask, rfl⟩ := task_of_phase hphase
    rw [isAdmitted, htask, Option.any_some, hadmitted]

/-- The requests of handshakes and stops are no calls that were admitted. -/
theorem phases_dispatch (m : Machine) (t : TaskId) (method : String) (params : Option Json.Value)
    (id : Option Rpc.RequestId) (after : Time.Duration) (purpose : Purpose)
    (hpurpose : ∀ question, purpose ≠ .user question) :
    ∃ new : Phase, new.isAdmitted = false ∧
      (m.dispatch t method params id after purpose).desk.phases = m.desk.phases.set t new := by
  obtain ⟨number, -, hdesk | hdesk⟩ := desk_dispatch m t method params id after purpose
  · exact ⟨_, rfl, congrArg Desk.phases hdesk⟩
  · refine ⟨_, ?_, congrArg Desk.phases hdesk⟩
    cases purpose with
    | user question => exact absurd rfl (hpurpose question)
    | handshake | shutdown => rfl

/-- A call that is admitted after a step was so before, if the step is one of another task.
Otherwise the step has just admitted it, or has registered its request. -/
theorem Steps.admitted (h : m.Steps t old next) (hu : next.desk.phases[u]? = some phase)
    (hphase : phase.isAdmitted = true) :
    t ≠ u ∧ m.desk.phases[u]? = some phase ∨ next.state = .initialized ∨
      old.isAdmitted = true ∧ next.state = m.state := by
  have hset {new : Phase} (hnew : new.isAdmitted = false)
      (h : (m.desk.phases.set t new)[u]? = some phase) :
      t ≠ u ∧ m.desk.phases[u]? = some phase :=
    admitted_of_set hnew h hphase
  -- The reading loop of a session is a new task, and no call.
  have hspawn {c : ConnectionId} {buffer : Wire.Buffer} {new : Phase}
      (hnew : new.isAdmitted = false)
      (h : ((m.spawn (.reading c buffer)).desk.phases.set t new)[u]? = some phase) :
      t ≠ u ∧ m.desk.phases[u]? = some phase := by
    rw [desk_spawn] at h
    exact (admitted_of_set hnew h hphase).imp_right
      (admitted_of_spawn (by simp [Phase.isAdmitted]) · hphase)
  cases h <;> try simp only [Machine.leave, Machine.shut, sayGoodbye, desk_ask_session,
    desk_ask_writer, desk_conclude, desk_fail_on, desk_fail_startup, desk_finish, desk_go_to,
    desk_lose_connection, desk_pass_session, desk_pass_writer, desk_resolve, desk_return,
    desk_unregister, desk_wake] at hu
  case allow hstate => exact .inr (.inl hstate)
  case request => exact .inr (.inr ⟨rfl, congrArg View.state (view_dispatch ..)⟩)
  case part =>
    obtain ⟨new, hnew, hphases⟩ := phases_dispatch _ _ _ _ _ _ .shutdown fun _ heq => by
      cases heq
    exact .inl (hset hnew (hphases ▸ hu))
  case stumble => exact .inl (hspawn rfl hu)
  case greet =>
    obtain ⟨new, hnew, hphases⟩ := phases_dispatch _ _ _ _ _ _ .handshake fun _ heq => by
      cases heq
    rw [hphases] at hu
    exact .inl (hspawn hnew hu)
  case read =>
    rw [(desk_handle_all _ _).1] at hu
    refine .inl ((admitted_of_set rfl hu hphase).imp_right (admitted_of_spawn ?_ · hphase))
    intro phase hphase
    obtain ⟨inquiry, -, rfl⟩ := List.mem_map.mp hphase
    rfl
  case unread =>
    rw [desk_set_task] at hu
    · exact .inl (hset rfl hu)
    · exact fun _ => rfl
  all_goals exact .inl (hset rfl hu)

/-- A call that is admitted does not wait. -/
theorem step_admitted (h : m.isAdmitted t = true) : m.step t ≠ none := by
  obtain ⟨task, htask, hadmitted⟩ := (Option.any_eq_true _ _).mp h
  obtain ⟨phase, inbox, isQueued, isAborted, joiner⟩ := task
  cases phase with
  | admitted | registered => cases isAborted <;> simp [step, htask]
  | _ => cases hadmitted

/-- A call that is admitted after something has happened was so before and has not taken a turn, or
the session is open, if it was when calls were admitted before. -/
theorem perform_admitted (htidy : m.view.IsTidy)
    (hopen : ∀ t, m.isAdmitted t = true → m.state = .initialized)
    (h : (m.perform occurrence).isAdmitted u = true) :
    occurrence.isTurn u = false ∧ m.isAdmitted u = true ∨
      (m.perform occurrence).state = .initialized := by
  obtain ⟨phase, hu, hphase⟩ := admitted_iff.mp h
  have hstays (hturn : occurrence.isTurn u = false) (hold : m.desk.phases[u]? = some phase) :
      occurrence.isTurn u = false ∧ m.isAdmitted u = true :=
    ⟨hturn, admitted_iff.mpr ⟨phase, hold, hphase⟩⟩
  have hdesk := perform_desk htidy occurrence
  cases occurrence with
  | turn t =>
    have hother (hne : t ≠ u) : (Occurrence.turn t).isTurn u = false :=
      decide_eq_false (Ne.symm hne)
    rw [perform] at h hu ⊢
    cases hstep : m.step t with
    | none =>
      rw [hstep] at h hu
      refine .inl (hstays (hother ?_) hu)
      rintro rfl
      exact step_admitted h hstep
    | some next =>
      rw [hstep, Option.getD_some] at hu
      obtain ⟨task, htask, ⟨-, rfl⟩ | ⟨-, hsteps⟩⟩ := step_cases hstep
      · rw [desk_finish] at hu
        obtain ⟨hne, hold⟩ := admitted_of_set rfl hu hphase
        exact .inl (hstays (hother hne) hold)
      · rcases hsteps.admitted hu hphase with ⟨hne, hold⟩ | hstate | ⟨hold, hstate⟩
        · exact .inl (hstays (hother hne) hold)
        · exact .inr hstate
        · have hadmitted := admitted_iff.mpr ⟨task.phase, desk_phase htask, hold⟩
          exact .inr (hstate.trans (hopen t hadmitted))
  | _ => exact .inl (hstays rfl (hdesk.admitted_outside (fun _ heq => by cases heq) hu hphase))

/-- Nobody is overtaken in a run in which every call goes on to the writer as soon as it is
admitted. -/
theorem overtaken_of_prompt (hm : m.IsRegular)
    (hopen : ∀ t, m.isAdmitted t = true → m.state = .initialized) {occurrences : List Occurrence}
    (h : m.isPrompt occurrences = true) : m.overtaken occurrences = [] := by
  induction occurrences generalizing m with
  | nil => rfl
  | cons occurrence rest ih =>
    obtain ⟨hprompt, hrest⟩ := Bool.and_eq_true_iff.mp h
    have hfirst : m.overtakenBy occurrence = [] := by
      fun_cases m.overtakenBy occurrence with
      | case1 t hovertaken =>
        obtain ⟨hadmitted, hstate⟩ := Bool.and_eq_true_iff.mp hovertaken
        exact absurd (hopen t hadmitted) (bne_iff_ne.mp hstate)
      | case2 | case3 => rfl
    rw [overtaken, hfirst, List.nil_append]
    refine ih (hm.perform occurrence) (fun t hadmitted => ?_) hrest
    rcases perform_admitted hm.tidy hopen hadmitted with ⟨hturn, hbefore⟩ | hstate
    · obtain ⟨task, htask, -⟩ := (Option.any_eq_true _ _).mp hbefore
      obtain ⟨hlength, -⟩ := List.getElem?_eq_some_iff.mp htask
      have hgoes := List.all_eq_true.mp hprompt t (List.mem_range.mpr hlength)
      rw [hbefore, hturn] at hgoes
      cases hgoes
    · exact hstate

end Machine

end CodeAtlas.Client
