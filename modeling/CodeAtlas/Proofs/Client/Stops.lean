import CodeAtlas.Proofs.Client.Tidiness

/-!
# Stops under way

A stop goes through its duties until it has ended or is dropped, and nothing but its own turns and
its own drop changes them (`View.stop_step`). No other call becomes a stop
(`View.Step.stop_before`). A stop that ends by itself leaves the client disconnected
(`View.stop_turn`), and a client in error gets into another state only by the turn of a stop
(`View.stop_of_error`).
-/

namespace CodeAtlas.Client

open Rpc (Message)

def Ending.isStop : Ending → Bool
  | .failed _ => false
  | .stopped => true

/-- Whether a client in this state has no session, or one that has only begun to connect. -/
def State.isBetween : State → Bool
  | .disconnected => true
  | .connecting => true
  | _ => false

/-- Whether a task with this duty is a stop under way. -/
def Duty.isStop : Duty → Bool
  | .asking isStop => isStop
  | .waiting isStop => isStop
  | .parting => true
  | .quitting => true
  | .tearing ending => ending.isStop
  | .releasing ending => ending.isStop
  | .closed ending => ending.isStop
  | _ => false

theorem Duty.isReader_of_stop {duty : Duty} (h : duty.isStop = true) : duty.isReader = false := by
  cases duty with
  | reading | finished => cases h
  | _ => rfl

namespace View

variable {v next : View} {log : List Message} {t u : TaskId} {duty : Duty}

theorem Turn.duty_other (hturn : v.Turn t next) (hne : t ≠ u) (hduty : v.duty? u = some duty) :
    next.duty? u = some duty := by
  have hset {base : View} (hbase : base.duty? u = some duty) (new : Duty) :
      (base.setDuty t new).duty? u = some duty := (duty_set_duty_ne hne).trans hbase
  cases hturn with
  | stay | fail => exact hduty
  | answer => exact duty_spawn_of_some hduty
  | greet | stumble => exact hset (duty_spawn_of_some hduty) _
  | @unread r ending _ _ =>
    have habort : ({ v with reader := none }.abort r).duty? u = some duty := by
      rw [duty_abort]
      exact hduty
    exact hset habort _
  | _ => exact hset hduty _

variable {occurrence : Occurrence}

/-- What happens leaves a task with what it has to do unless it takes a turn or is dropped. -/
theorem Step.duty_other (hstep : v.Step occurrence next) (hturn : occurrence ≠ .turn u)
    (hdrop : occurrence ≠ .drop u) (hduty : v.duty? u = some duty) : next.duty? u = some duty := by
  cases hstep with
  | @turn t _ h => exact h.duty_other (fun heq => hturn (congrArg Occurrence.turn heq)) hduty
  | @drop t _ h =>
    cases h with
    | stay => exact hduty
    | leave =>
      have hne : t ≠ u := fun heq => hdrop (congrArg Occurrence.drop heq)
      exact (duty_set_duty_ne hne).trans hduty
  | call => exact duty_spawn_of_some hduty
  | connect | relocate | pass => exact hduty

/-- A stop goes on with its next turn and keeps the lifecycle lock if it has it, or ends and leaves
the client disconnected. -/
theorem stop_turn (htidy : v.IsTidy) (hturn : v.Turn t next) (hduty : v.duty? t = some duty)
    (hstop : duty.isStop = true) :
    (∃ later, next.duty? t = some later ∧ later.isStop = true ∧
      (duty.isLocked = true → later.isLocked = true)) ∨
      next.duty? t = some .finished ∧ next.state = .disconnected := by
  -- The duty of the change is the one of the stop.
  have hgo {base : View} (later : Duty) (hbase : base.duty? t = some duty)
      (hlater : later.isStop = true) (hlocked : duty.isLocked = true → later.isLocked = true) :
      ∃ later', (base.setDuty t later).duty? t = some later' ∧ later'.isStop = true ∧
        (duty.isLocked = true → later'.isLocked = true) :=
    ⟨later, duty_set_duty_self hbase, hlater, hlocked⟩
  cases hturn with
  | stay | fail => exact .inl ⟨duty, hduty, hstop, id⟩
  | answer => exact .inl ⟨duty, duty_spawn_of_some hduty, hstop, id⟩
  | abort hpost haborted =>
    obtain ⟨hreading, hreader⟩ := htidy.reader_of_aborted hpost haborted
    cases hduty.symm.trans hreading
    rw [Duty.isReader_of_stop hstop] at hreader
    cases hreader
  | @write c message errand hwriter hconnection hold =>
    cases hduty.symm.trans hold
    cases errand with
    | request d => exact .inl (hgo _ hduty hstop id)
    | exit => exact .inl (hgo _ hduty rfl fun _ => rfl)
    | notification | cancellation | initialized | reply => cases hstop
  | ask hold =>
    cases hduty.symm.trans hold
    exact .inl (hgo _ hduty hstop id)
  | refuse howner hold hstate =>
    cases hduty.symm.trans hold
    exact .inr ⟨duty_set_duty_self hold, hstate.mp hstop⟩
  | part | halt | dismiss | quit => exact .inl (hgo _ hduty rfl fun _ => rfl)
  | @unread r ending hold hreader =>
    cases hduty.symm.trans hold
    have habort : ({ v with reader := none }.abort r).duty? t = some (.tearing ending) := by
      rw [duty_abort]
      exact hold
    exact .inl (hgo _ habort hstop fun _ => rfl)
  | forgo hold | release hold =>
    cases hduty.symm.trans hold
    exact .inl (hgo _ hduty hstop fun _ => rfl)
  | conclude hold => exact .inr ⟨duty_set_duty_self hold, rfl⟩
  | finish hold | balk hold | stray howner hold | begin howner hold | misfire howner hold
  | install hold | greet hold | stumble hold | approve hold | complete hold | concede hold =>
    cases hduty.symm.trans hold
    cases hstop
  | lose hold hfree =>
    cases hduty.symm.trans hold
    rcases hfree with rfl | ⟨c, rfl⟩ <;> cases hstop
  | giveUp hold hstage =>
    cases hduty.symm.trans hold
    rcases hstage with ⟨c, rfl⟩ | rfl | rfl <;> cases hstop

theorem finished_turn (hturn : v.Turn t next) (hduty : v.duty? t = some .finished) :
    next.duty? t = some .finished := by
  have hpurpose (purpose : Purpose) : purpose.duty ≠ .finished := by cases purpose <;> nofun
  cases hturn with
  | stay | fail => exact hduty
  | answer => exact duty_spawn_of_some hduty
  | abort => exact duty_set_duty_self hduty
  | @write c message errand hwriter hconnection hold =>
    have hother := Option.some.inj (hduty.symm.trans hold)
    cases errand with
    | request d => exact absurd hother.symm (hpurpose d.purpose)
    | notification | cancellation | initialized | exit | reply => cases hother
  | finish hold | balk hold | ask hold | refuse howner hold | stray howner hold | begin howner hold
  | misfire howner hold | part howner hold | halt howner hold | install hold | greet hold
  | stumble hold | approve hold | complete hold | dismiss hold | quit hold | unread hold
  | forgo hold | release hold | concede hold | conclude hold => cases hduty.symm.trans hold
  | lose hold hfree =>
    cases hduty.symm.trans hold
    rcases hfree with hfree | ⟨c, hfree⟩ <;> cases hfree
  | giveUp hold hstage =>
    cases hduty.symm.trans hold
    rcases hstage with ⟨c, hstage⟩ | hstage | hstage <;> cases hstage

/-- A stop under way, or one that has ended, is still one after whatever happens. -/
theorem stop_step (htidy : v.IsTidy) (hstep : v.Step occurrence next)
    (hduty : v.duty? t = some duty) (hstop : duty.isStop = true ∨ duty = .finished) :
    ∃ later, next.duty? t = some later ∧ (later.isStop = true ∨ later = .finished) := by
  by_cases hturn : occurrence = .turn t
  · subst hturn
    rcases hstop with hstop | rfl
    · rcases stop_turn htidy hstep.turn_of hduty hstop with
        ⟨later, hlater, hgoes, -⟩ | ⟨hends, -⟩
      · exact ⟨later, hlater, .inl hgoes⟩
      · exact ⟨.finished, hends, .inr rfl⟩
    · exact ⟨.finished, finished_turn hstep.turn_of hduty, .inr rfl⟩
  · by_cases hdrop : occurrence = .drop t
    · subst hdrop
      cases hstep with
      | drop h =>
        cases h with
        | stay => exact ⟨duty, hduty, hstop⟩
        | leave => exact ⟨.finished, duty_set_duty_self hduty, .inr rfl⟩
      | pass => exact ⟨duty, hduty, hstop⟩
    · exact ⟨duty, hstep.duty_other hturn hdrop hduty, hstop⟩

theorem Turn.stop_before (hturn : v.Turn t next) (hduty : next.duty? u = some duty)
    (hstop : duty.isStop = true) : ∃ old, v.duty? u = some old ∧ old.isStop = true := by
  -- Only the duty that the task itself gets has to be looked at.
  have hset {base : View} {new : Duty} (hnext : (base.setDuty t new).duty? u = some duty)
      (hbase : base.duty? u = some duty → ∃ old, v.duty? u = some old ∧ old.isStop = true)
      (hnew : new.isStop = true → ∃ old, v.duty? t = some old ∧ old.isStop = true) :
      ∃ old, v.duty? u = some old ∧ old.isStop = true := by
    rcases duty_of_set_duty hnext with ⟨rfl, rfl⟩ | ⟨-, hold⟩
    · exact hnew hstop
    · exact hbase hold
  have hsame (h : v.duty? u = some duty) : ∃ old, v.duty? u = some old ∧ old.isStop = true :=
    ⟨duty, h, hstop⟩
  have hspawned {duties : List Duty} (hidle : ∀ d ∈ duties, d.isStop = false)
      (h : (v.spawn duties).duty? u = some duty) :
      ∃ old, v.duty? u = some old ∧ old.isStop = true := by
    rcases duty_spawn h with hold | hmem
    · exact hsame hold
    · cases (hidle duty hmem).symm.trans hstop
  cases hturn with
  | stay | fail => exact hsame hduty
  | answer n =>
    refine hspawned ?_ hduty
    intro d hd
    rw [List.eq_of_mem_replicate hd]
    rfl
  | @write c message errand hwriter hconnection hold =>
    refine hset hduty hsame ?_
    intro hnew
    refine ⟨_, hold, ?_⟩
    cases errand with
    | request | exit => exact hnew
    | notification | cancellation | initialized | reply => cases hnew
  | ask hold => exact hset hduty hsame fun hnew => ⟨_, hold, hnew⟩
  | part _ hold | halt _ hold | dismiss hold | quit hold =>
    exact hset hduty hsame fun _ => ⟨_, hold, rfl⟩
  | greet | stumble =>
    exact hset hduty (hspawned fun d hd => by rw [List.mem_singleton.mp hd]; rfl) nofun
  | unread hold =>
    exact hset hduty (fun h => hsame (by rwa [duty_abort] at h)) fun hnew => ⟨_, hold, hnew⟩
  | forgo hold | release hold => exact hset hduty hsame fun hnew => ⟨_, hold, hnew⟩
  | _ => exact hset hduty hsame nofun

/-- A stop that is under way was so before, or has been called. -/
theorem Step.stop_before (hstep : v.Step occurrence next) (hcall : occurrence ≠ .call .stop)
    (hduty : next.duty? u = some duty) (hstop : duty.isStop = true) :
    ∃ old, v.duty? u = some old ∧ old.isStop = true := by
  cases hstep with
  | turn hturn => exact hturn.stop_before hduty hstop
  | drop hdrop =>
    cases hdrop with
    | stay => exact ⟨duty, hduty, hstop⟩
    | leave =>
      rcases duty_of_set_duty hduty with ⟨-, rfl⟩ | ⟨-, hold⟩
      · cases hstop
      · exact ⟨duty, hold, hstop⟩
  | call call =>
    rcases duty_spawn hduty with hold | hmem
    · exact ⟨duty, hold, hstop⟩
    · cases List.mem_singleton.mp hmem
      cases call with
      | stop => exact absurd rfl hcall
      | start | attach | request | ask | notify | cancel => cases hstop
  | connect | relocate | pass => exact ⟨duty, hduty, hstop⟩

theorem stop_of_error (hturn : v.Turn t next) (hstate : v.state = .error) :
    next.state = .error ∨ ∃ duty, v.duty? t = some duty ∧ duty.isStop = true := by
  have hfailed : v.state.failed = .error := by rw [hstate]; rfl
  cases hturn with
  | fail | lose => exact .inl hfailed
  | giveUp => exact .inl rfl
  | begin _ _ hother | misfire _ _ hother | greet _ hother | stumble _ hother
  | complete _ hother => cases hstate.symm.trans hother
  | halt _ hduty | dismiss hduty | quit hduty | conclude hduty => exact .inr ⟨_, hduty, rfl⟩
  | _ => exact .inl hstate

/-- A client has no session only if it had none before, or a stop has just ended it. -/
theorem between_of_turn (hturn : v.Turn t next) (hstate : next.state.isBetween = true) :
    v.state.isBetween = true ∨ v.duty? t = some (.closed .stopped) := by
  cases hturn with
  | fail | lose =>
    rcases v.state.failed_cases with hfailed | hfailed
    · have herror : v.state.failed.isBetween = true := hstate
      rw [hfailed] at herror
      cases herror
    · exact .inl (hfailed ▸ hstate)
  | begin _ _ hbefore => exact .inl (by rw [hbefore]; rfl)
  | misfire | halt | greet | stumble | giveUp | complete | dismiss | quit => cases hstate
  | conclude hduty => exact .inr hduty
  | _ => exact .inl hstate

end View

end CodeAtlas.Client
