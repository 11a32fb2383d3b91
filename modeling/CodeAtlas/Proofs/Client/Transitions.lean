import CodeAtlas.Proofs.Client.Tidiness

/-!
# Every change of the state is legal

The changes of a client's state follow the table of legal changes, also those that are made without
asking it: `changes_legal`. The table is obeyed because only the call with the lifecycle lock and
failures change the state, each duty of that call fits some states only (`View.IsCoherent`), and
whenever no call has the lock, no session is half started or half stopped (`View.IsSettled`). The
last part needs calls that end by themselves: a call that is dropped while it has the lock leaves
the session where it is.
-/

namespace CodeAtlas.Client

namespace State

/-- Changes that lead from one state to another, each from where the one before it has led. -/
inductive Path : State → List (State × State) → State → Prop where
  | nil (state : State) : Path state [] state
  | cons {source middle target : State} {rest : List (State × State)} (hchange : source ≠ middle)
      (hrest : Path middle rest target) : Path source ((source, middle) :: rest) target

theorem Path.trans {source middle target : State} {first second : List (State × State)}
    (hfirst : Path source first middle) (hsecond : Path middle second target) :
    Path source (first ++ second) target := by
  induction hfirst with
  | nil => exact hsecond
  | cons hchange _ ih => exact .cons hchange (ih hsecond)

theorem path_change_to (source target : State) : Path source (source.changeTo target) target := by
  unfold changeTo
  split
  · next hsame => exact hsame ▸ .nil source
  · next hchange => exact .cons hchange (.nil target)

/-- A state is reached from the first one by legal changes. -/
structure IsReachedBy (state : State) (changes : List (State × State)) : Prop where
  path : Path .disconnected changes state
  legal : ∀ change ∈ changes, change.1.canBecome change.2 = true

theorem IsReachedBy.change {state target : State} {changes : List (State × State)}
    (h : state.IsReachedBy changes) (hlegal : state = target ∨ state.canBecome target = true) :
    target.IsReachedBy (changes ++ state.changeTo target) := by
  refine ⟨h.path.trans (path_change_to state target), fun change hmem => ?_⟩
  rcases List.mem_append.mp hmem with hold | hnew
  · exact h.legal change hold
  · unfold changeTo at hnew
    split at hnew
    · cases hnew
    · next hchange =>
      cases List.mem_singleton.mp hnew
      exact hlegal.resolve_left hchange

theorem failed_legal (state : State) :
    state = state.failed ∨ state.canBecome state.failed = true := by
  cases state with
  | disconnected | shuttingDown | error => exact .inl rfl
  | connecting | connected | initializing | initialized => exact .inr rfl

def isResting : State → Bool
  | .disconnected => true
  | .initialized => true
  | .error => true
  | _ => false

theorem isResting_failed {state : State} (h : state.isResting = true) :
    state.failed.isResting = true := by
  cases state with
  | disconnected | initialized | error => rfl
  | connecting | connected | initializing | shuttingDown => cases h

end State

variable {occurrence : Occurrence}

namespace View

variable {v next base : View} {log : List Rpc.Message} {t : TaskId} {duty old : Duty}

/-- A session that no task works on is not half started or half stopped. -/
def IsSettled (v : View) : Prop :=
  (∀ t duty, v.duty? t = some duty → duty.isLocked = false) → v.state.isResting = true

theorem IsSettled.lead (h : base.duty? t = some old) (hlocked : duty.isLocked = true) :
    (base.setDuty t duty).IsSettled := by
  intro hidle
  rw [hidle t duty (duty_set_duty_self h)] at hlocked
  cases hlocked

namespace IsSettled

variable (h : v.IsSettled)

include h

theorem retire (lock : Lock) (hduty : v.duty? t = some old) (hfree : old.isLocked = false) :
    ({ v with lock }.setDuty t duty).IsSettled := by
  refine fun hidle => h fun u d hd => ?_
  by_cases htu : t = u
  · subst htu
    cases hduty.symm.trans hd
    exact hfree
  · exact hidle u d ((duty_set_duty_ne htu).trans hd)

theorem spawn (duties : List Duty) : (v.spawn duties).IsSettled :=
  fun hidle => h fun u d hd => hidle u d (duty_spawn_of_some hd)

theorem fail : v.fail.IsSettled :=
  fun hidle => State.isResting_failed (h hidle)

/-- A turn of a task leaves a settled session, or one that a task works on. -/
theorem turn (hcoherent : v.IsCoherent log) (htidy : v.IsTidy) (hturn : v.Turn t next) :
    next.IsSettled := by
  cases hturn with
  | stay => exact h
  | answer n => exact h.spawn _
  | finish hduty => exact h.retire v.lock hduty rfl
  | @abort post hpost haborted =>
    obtain ⟨hduty, hreader⟩ := htidy.reader_of_aborted hpost haborted
    refine h.retire v.lock hduty (Bool.eq_false_iff.mpr fun hlocked => ?_)
    rw [Duty.isReader_of_locked hlocked] at hreader
    cases hreader
  | @write c message errand hwriter hconnection hduty =>
    have hwrite : (v.accept c message).IsSettled := h
    cases errand with
    | initialized => exact .lead hduty rfl
    | request | notification | cancellation | exit | reply =>
      rw [set_duty_accept hduty nofun]
      exact hwrite
  | balk hduty | begin _ hduty | part _ hduty | halt _ hduty | install hduty | giveUp hduty
  | approve hduty | dismiss hduty | quit hduty | forgo hduty | release hduty =>
    exact .lead hduty rfl
  | fail => exact h.fail
  | lose hduty hfree =>
    refine h.fail.retire v.lock hduty ?_
    rcases hfree with rfl | ⟨c, rfl⟩ <;> rfl
  | ask hduty | refuse _ hduty | stray _ hduty => exact h.retire _ hduty rfl
  | misfire howner hduty hstate =>
    exact .lead hduty rfl
  | greet hduty | stumble hduty => exact .lead (duty_spawn_of_some hduty) rfl
  | complete | conclude => exact fun _ => rfl
  | @unread r ending hduty hreader =>
    have habort : ({ v with reader := none }.abort r).duty? t = some (.tearing ending) := by
      rw [duty_abort]
      exact hduty
    exact .lead habort rfl
  | @concede e hduty =>
    have hstate : v.state = .error := hcoherent.fits _ _ hduty
    exact fun _ => congrArg State.isResting hstate

/-- Every occurrence leaves a settled session, or one that a task works on, if no call is dropped
while it works on the session. -/
theorem step (hcoherent : v.IsCoherent log) (htidy : v.IsTidy) (hstep : v.Step occurrence next)
    (hspared : ∀ t duty, occurrence = .drop t → v.duty? t = some duty → duty.isLocked = false) :
    next.IsSettled := by
  cases hstep with
  | turn hturn => exact h.turn hcoherent htidy hturn
  | @drop t _ hdrop =>
    cases hdrop with
    | stay => exact h
    | @leave post hpost hreading =>
      have hduty : v.duty? t = some post.duty := by rw [duty?, hpost, Option.map_some]
      exact h.retire _ hduty (hspared t _ rfl hduty)
  | call call => exact h.spawn _
  | connect | relocate | pass => exact h

end IsSettled

theorem reached_turn (h : v.state.IsReachedBy v.changes) (hcoherent : v.IsCoherent log)
    (hsettled : v.IsSettled) (hturn : v.Turn t next) : next.state.IsReachedBy next.changes := by
  cases hturn with
  | fail | lose => exact h.change v.state.failed_legal
  | begin _ _ hstate | complete _ hstate => exact h.change (.inr (by rw [hstate]; rfl))
  | misfire howner hduty hstate =>
    exact (h.change (.inr (by rw [hstate]; rfl))).change (.inr rfl)
  | halt howner hduty hstate =>
    -- The lock is the task's, so nobody works on the session, and it is in error.
    have hresting : v.state.isResting = true := by
      refine hsettled fun u d hd => Bool.eq_false_iff.mpr fun hlocked => ?_
      have hu := hcoherent.owned u d hd hlocked
      cases Option.some.inj (howner.symm.trans hu)
      cases hduty.symm.trans hd
      cases hlocked
    have herror : v.state = .error := by
      revert hresting hstate
      cases v.state <;> simp [State.isResting]
    exact h.change (.inr (by rw [herror]; rfl))
  | greet _ hstate | stumble _ hstate =>
    exact (h.change (.inr (by rw [hstate]; rfl))).change (.inr rfl)
  | giveUp hduty hstage =>
    have hstate : v.state = .connecting ∨ v.state = .initializing ∨ v.state = .error := by
      have hfits := hcoherent.fits _ _ hduty
      rcases hstage with ⟨c, rfl⟩ | rfl | rfl
      · exact hfits.2.imp_right .inr
      · exact .inr hfits
      · exact .inr hfits.1
    refine h.change ?_
    rcases hstate with hstate | hstate | hstate <;> rw [hstate]
    · exact .inr rfl
    · exact .inr rfl
    · exact .inl rfl
  | dismiss hduty =>
    refine h.change (.inr ?_)
    rcases hcoherent.fits _ _ hduty with hstate | hstate | hstate <;> rw [hstate] <;> rfl
  | quit hduty => exact h.change (.inl (hcoherent.fits _ _ hduty))
  | conclude hduty =>
    have hstate : v.state = .shuttingDown := hcoherent.fits _ _ hduty
    exact h.change (.inr (by rw [hstate]; rfl))
  | _ => exact h

theorem reached_step (h : v.state.IsReachedBy v.changes) (hcoherent : v.IsCoherent log)
    (hsettled : v.IsSettled) (hstep : v.Step occurrence next) :
    next.state.IsReachedBy next.changes := by
  cases hstep with
  | turn hturn => exact reached_turn h hcoherent hsettled hturn
  | drop hdrop => cases hdrop <;> exact h
  | call | connect | relocate | pass => exact h

end View

namespace Machine

/-- Whether an occurrence drops no call that works on the session under the lifecycle lock. -/
def spares (m : Machine) : Occurrence → Bool
  | .drop t => (m.view.duty? t).all fun duty => !duty.isLocked
  | _ => true

/-- Whether a run drops no call that works on the session under the lifecycle lock: every start,
attach or stop that has begun to change the session runs on to its end. -/
def sparesAll (m : Machine) : List Occurrence → Bool
  | [] => true
  | occurrence :: rest => m.spares occurrence && (m.perform occurrence).sparesAll rest

theorem run_reached {m : Machine} (h : m.state.IsReachedBy m.changes) (hm : m.IsRegular)
    (hsettled : m.view.IsSettled)
    (occurrences : List Occurrence) (hspared : m.sparesAll occurrences = true) :
    (m.run occurrences).state.IsReachedBy (m.run occurrences).changes := by
  induction occurrences generalizing m with
  | nil => exact h
  | cons occurrence rest ih =>
    rw [sparesAll, Bool.and_eq_true] at hspared
    have hstep := perform_step m occurrence
    obtain ⟨log, hcoherent⟩ := hm.coherent
    refine ih (View.reached_step (v := m.view) h hcoherent hsettled hstep) (hm.perform occurrence) ?_
      hspared.2
    refine hsettled.step hcoherent hm.tidy hstep fun t duty hdrop hduty => ?_
    subst hdrop
    simpa [spares, hduty] using hspared.1

/-- In every run in which no start, attach or stop is dropped while it works on the session, the
recorded changes lead from the first state of the client to its last one, and each of them is
legal. -/
theorem changes_legal (setup : Setup) (occurrences : List Occurrence)
    (hspared : (unused setup).sparesAll occurrences = true) :
    let m := (unused setup).run occurrences
    State.Path .disconnected m.changes m.state ∧
      ∀ change ∈ m.changes, change.1.canBecome change.2 = true := by
  have hreached := run_reached (m := unused setup)
    ⟨.nil _, nofun⟩ (unused_regular ..) (fun _ => rfl) occurrences hspared
  exact ⟨hreached.path, hreached.legal⟩

/-- A client goes through two sessions. The first one is lost, and in the second one a request is
dropped while it waits. -/
theorem changes_legal_second_session :
    let occurrences :=
      secondSession ++ [.call (.request "lost" none none none)] ++ List.replicate 3 (.turn 5) ++
        [.drop 5, .turn 4]
    sampleClient.sparesAll occurrences = true ∧
      (sampleClient.run occurrences).changes.map Prod.snd =
        [.connecting, .connected, .initializing, .initialized, .error, .shuttingDown,
          .disconnected, .connecting, .connected, .initializing, .initialized] ∧
      ∀ change ∈ (sampleClient.run occurrences).changes, change.1.canBecome change.2 = true :=
  ⟨by decide +kernel, by decide +kernel, (changes_legal _ _ (by decide +kernel)).2⟩

/-- A start that is dropped under the lifecycle lock is stopped by a change that is not legal. -/
example :
    (sampleClient.run ([.connect, .call (.attach 0), .turn 0, .turn 0, .drop 0, .call .stop] ++
      List.replicate 2 (.turn 1))).changes =
        [(.disconnected, .connecting), (.connecting, .shuttingDown)] := by
  decide +kernel

end Machine

end CodeAtlas.Client
