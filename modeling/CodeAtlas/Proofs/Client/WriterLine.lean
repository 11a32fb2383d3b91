import CodeAtlas.Proofs.Client.Turns

/-!
# The line at the writer

Whoever is at the writer stands in the line of its lock, and only the first of the line uses it
(`Desk.IsInLine`). The line keeps the order in which the tasks have asked, and calls of users that
are not overtaken ask only while a session is open, when no task is about to install the writer of
another one. So no such call stands behind a task that installs a writer: whatever was asked for in
one session is written in that session or not at all.
-/

namespace CodeAtlas.Client

def Phase.hasWriter : Phase → Bool
  | .writing _ _ => true
  | .shutting _ _ => true
  | _ => false

/-- Whether a task in this phase waits for the writer in order to install another one. -/
def Phase.isInstalling : Phase → Bool
  | .lockWriter (.install _) => true
  | _ => false

theorem Phase.not_at_writer {phase : Phase} (h : phase.isAtWriter = false) :
    phase.hasWriter = false ∧ phase.isInstalling = false ∧ phase.isTraffic = false := by
  cases phase with
  | lockWriter | writing | shutting => cases h
  | _ => exact ⟨rfl, rfl, rfl⟩

namespace Desk

variable {isOpen : Prop} {d next : Desk} {t u : TaskId} {old new : Phase} {test : Phase → Bool}
  {late : List TaskId}

def isIn (d : Desk) (test : Phase → Bool) (t : TaskId) : Bool := (d.phases[t]?).any test

theorem isIn_eq (h : d.phases[t]? = some old) : d.isIn test t = test old := by
  rw [isIn, h, Option.any_some]

theorem isIn_set_phase (h : d.phases[t]? = some old) (new : Phase) (u : TaskId) :
    (d.setPhase t new).isIn test u = if t = u then test new else d.isIn test u := by
  by_cases htu : t = u
  · subst htu
    obtain ⟨hlength, -⟩ := List.getElem?_eq_some_iff.mp h
    simp [isIn, setPhase, hlength]
  · simp [isIn, setPhase, htu]

theorem isIn_spawn {spawned : List Phase} (h : ∀ phase ∈ spawned, test phase = false)
    (u : TaskId) : (d.spawn spawned).isIn test u = d.isIn test u := by
  unfold isIn spawn
  rw [List.getElem?_append]
  split
  · rfl
  · next hlength =>
    rw [List.getElem?_eq_none (Nat.not_lt.mp hlength)]
    cases hphase : spawned[u - d.phases.length]? with
    | none => rfl
    | some phase => exact h phase (List.mem_of_getElem? hphase)

/-- The tasks at the writer are those in the line of its lock, the first one uses it, and no call of
a user, unless it is one of some late ones, stands behind a task that installs another writer. -/
structure IsInLine (late : List TaskId) (d : Desk) : Prop where
  proper : d.lock.IsProper
  lined : ∀ t, t ∈ d.lock.line ↔ d.isIn Phase.isAtWriter t = true
  holds : ∀ t, d.isIn Phase.hasWriter t = true → d.lock.owner = some t
  ordered : d.lock.line.Pairwise fun t u =>
    d.isIn Phase.isInstalling t = true → d.isIn Phase.isTraffic u = true → u ∈ late

namespace IsInLine

variable (h : d.IsInLine late)

include h

theorem of_eq (hphases : next.phases = d.phases) (hlock : next.lock = d.lock) :
    next.IsInLine late := by
  obtain ⟨phases, lock, writer, sent⟩ := next
  cases hphases
  cases hlock
  exact ⟨h.proper, h.lined, h.holds, h.ordered⟩

theorem not_mem (hold : d.phases[t]? = some old) (haway : old.isAtWriter = false) :
    t ∉ d.lock.line := by
  rw [h.lined t, isIn_eq hold, haway]
  exact Bool.false_ne_true

/-- A task goes on and keeps its place, or still has none. -/
theorem keep (hold : d.phases[t]? = some old) (hplace : new.isAtWriter = old.isAtWriter)
    (hholds : new.hasWriter = true → d.lock.owner = some t)
    (hinstall : new.isInstalling = true → old.isInstalling = true)
    (htraffic : new.isTraffic = true → old.isTraffic = true) :
    (d.setPhase t new).IsInLine late := by
  have hmono {test : Phase → Bool} (hself : test new = true → test old = true) (u : TaskId)
      (hu : (d.setPhase t new).isIn test u = true) : d.isIn test u = true := by
    rw [isIn_set_phase hold] at hu
    split at hu
    · next htu => exact htu ▸ (isIn_eq hold).trans (hself hu)
    · exact hu
  refine ⟨h.proper, ?_, ?_, ?_⟩
  · intro u
    have hsame : (d.setPhase t new).isIn Phase.isAtWriter u = d.isIn Phase.isAtWriter u := by
      rw [isIn_set_phase hold]
      split
      · next htu => rw [← htu, isIn_eq hold, hplace]
      · rfl
    rw [hsame]
    exact h.lined u
  · intro u hu
    rw [isIn_set_phase hold] at hu
    split at hu
    · next htu => exact htu ▸ hholds hu
    · exact h.holds u hu
  · refine h.ordered.imp ?_
    intro first second hfirst hnew hsecond
    exact hfirst (hmono hinstall first hnew) (hmono htraffic second hsecond)

theorem keep_away (hold : d.phases[t]? = some old) (hleaves : old.isAtWriter = false)
    (hstays : new.isAtWriter = false) : (d.setPhase t new).IsInLine late := by
  obtain ⟨hholds, hinstall, htraffic⟩ := Phase.not_at_writer hstays
  refine h.keep hold (hstays.trans hleaves.symm) ?_ ?_ ?_
  · exact fun hnew => absurd (hholds.symm.trans hnew) Bool.false_ne_true
  · exact fun hnew => absurd (hinstall.symm.trans hnew) Bool.false_ne_true
  · exact fun hnew => absurd (htraffic.symm.trans hnew) Bool.false_ne_true

theorem spawn {spawned : List Phase} (haway : ∀ phase ∈ spawned, phase.isAtWriter = false) :
    (d.spawn spawned).IsInLine late := by
  have hplace := isIn_spawn (d := d) haway
  have hholds := isIn_spawn (d := d) fun phase hmem => (Phase.not_at_writer (haway phase hmem)).1
  have hinstall := isIn_spawn (d := d) fun phase hmem =>
    (Phase.not_at_writer (haway phase hmem)).2.1
  have htraffic := isIn_spawn (d := d) fun phase hmem =>
    (Phase.not_at_writer (haway phase hmem)).2.2
  refine ⟨h.proper, ?_, ?_, ?_⟩
  · intro u
    rw [hplace]
    exact h.lined u
  · intro u hu
    rw [hholds] at hu
    exact h.holds u hu
  · refine h.ordered.imp ?_
    intro first second hfirst
    rw [hinstall, htraffic]
    exact hfirst

/-- A task asks for the writer. A call of a user that is not late does so only if no other writer is
about to be installed. -/
theorem ask {job : Job} (hold : d.phases[t]? = some old) (hleaves : old.isAtWriter = false)
    (hfirst : (Phase.lockWriter job).isTraffic = true →
      t ∈ late ∨ ∀ u, d.isIn Phase.isInstalling u = false) : (d.ask t job).IsInLine late := by
  have hnew := h.not_mem hold hleaves
  have hline : (d.ask t job).lock.line = d.lock.line ++ [t] := Lock.line_ask h.proper t
  have hphase {test : Phase → Bool} (u : TaskId) : (d.ask t job).isIn test u =
      if t = u then test (.lockWriter job) else d.isIn test u := isIn_set_phase hold _ u
  have hother {test : Phase → Bool} {u : TaskId} (hu : u ∈ d.lock.line) :
      (d.ask t job).isIn test u = d.isIn test u := by
    rw [hphase, if_neg]
    rintro rfl
    exact hnew hu
  refine ⟨h.proper.ask hnew, ?_, ?_, ?_⟩
  · intro u
    rw [hline, List.mem_append, List.mem_singleton, hphase, h.lined u]
    by_cases htu : t = u
    · simp [htu, Phase.isAtWriter]
    · simp [htu, Ne.symm htu]
  · intro u hu
    rw [hphase] at hu
    split at hu
    · cases hu
    · have howner := h.holds u hu
      show (d.lock.ask t).owner = some u
      simp [Lock.ask, howner]
  · rw [hline, List.pairwise_append]
    refine ⟨?_, List.pairwise_singleton _ _, ?_⟩
    · refine h.ordered.imp_of_mem ?_
      intro first second hmem hmem' hbefore
      rw [hother hmem, hother hmem']
      exact hbefore
    · intro first hmem second hsecond hinstall htraffic
      rw [List.mem_singleton.mp hsecond] at htraffic ⊢
      rw [hphase, if_pos rfl] at htraffic
      rw [hother hmem] at hinstall
      refine (hfirst htraffic).resolve_right fun hnone => ?_
      exact Bool.false_ne_true ((hnone first).symm.trans hinstall)

theorem leave (hold : d.phases[t]? = some old) (haway : new.isAtWriter = false) :
    ({ d with lock := d.lock.leave t }.setPhase t new).IsInLine late := by
  have hphase {test : Phase → Bool} (u : TaskId) :
      ({ d with lock := d.lock.leave t }.setPhase t new).isIn test u =
        if t = u then test new else d.isIn test u := isIn_set_phase hold _ u
  have hline : (d.lock.leave t).line = d.lock.line.filter (· ≠ t) := Lock.line_leave h.proper t
  refine ⟨h.proper.leave t, ?_, ?_, ?_⟩
  · intro u
    show u ∈ (d.lock.leave t).line ↔ _
    rw [hline, List.mem_filter, hphase, h.lined u]
    by_cases htu : t = u
    · simp [htu, haway]
    · simp [htu, Ne.symm htu]
  · intro u hu
    rw [hphase] at hu
    split at hu
    · rw [(Phase.not_at_writer haway).1] at hu
      cases hu
    · next htu =>
      have howner := h.holds u hu
      have hother : d.lock.owner ≠ some t := fun ht =>
        htu (Option.some.inj (ht.symm.trans howner))
      show (d.lock.leave t).owner = some u
      rw [Lock.leave, if_neg hother]
      exact howner
  · show (d.lock.leave t).line.Pairwise _
    rw [hline]
    refine (h.ordered.filter _).imp_of_mem ?_
    intro first second hfirst hsecond hbefore
    have hne {u : TaskId} (hu : u ∈ d.lock.line.filter (· ≠ t)) : t ≠ u := by
      have hkept := (List.mem_filter.mp hu).2
      exact Ne.symm (by simpa using hkept)
    rw [hphase, hphase, if_neg (hne hfirst), if_neg (hne hsecond)]
    exact hbefore

theorem pass (hold : d.phases[t]? = some old) (howner : d.lock.owner = some t)
    (haway : new.isAtWriter = false) : (d.pass.setPhase t new).IsInLine late := by
  refine (h.leave hold haway).of_eq rfl ?_
  exact (if_pos howner).symm

/-- A turn of a task keeps the line in order, if nobody installs a writer while a session is
open. -/
theorem turn (hopen : isOpen → t ∈ late ∨ ∀ u, d.isIn Phase.isInstalling u = false)
    (hturn : d.Turn isOpen t next) : next.IsInLine late := by
  have howns {phase : Phase} (hold : d.phases[t]? = some phase)
      (hwriter : phase.hasWriter = true) : d.lock.owner = some t :=
    h.holds t ((isIn_eq hold).trans hwriter)
  cases hturn with
  | stay => exact h
  | move hold hleaves hstays hneed hmeant haway =>
    exact (h.spawn fun phase hmem => (haway phase hmem).1).keep_away (phase_spawn hold) hleaves
      hstays
  | ask hold hleaves hmeant hneed =>
    refine h.ask hold hleaves fun htraffic => ?_
    rcases hneed with ⟨hother, -⟩ | ⟨-, hisOpen⟩
    · exact absurd (hother.symm.trans htraffic) Bool.false_ne_true
    · exact hopen hisOpen
  | take howner hold => exact h.keep hold rfl (fun _ => howner) nofun id
  | install howner hold => exact (h.pass hold howner rfl).of_eq rfl rfl
  | @close c ending howner hold =>
    have hkeep : (d.setPhase t (.shutting c ending)).IsInLine late :=
      h.keep hold rfl (fun _ => howner) nofun nofun
    exact hkeep.of_eq rfl rfl
  | skip howner hold => exact h.pass hold howner rfl
  | write hold hwriter hconnection => exact (h.pass hold (howns hold rfl) rfl).of_eq rfl rfl
  | balk hold | shut hold => exact h.pass hold (howns hold rfl) rfl

theorem step {occurrence : Occurrence}
    (hopen : ∀ t, occurrence = .turn t → isOpen →
      t ∈ late ∨ ∀ u, d.isIn Phase.isInstalling u = false)
    (hstep : d.Step isOpen occurrence next) : next.IsInLine late := by
  cases hstep with
  | turn hturn => exact h.turn (hopen _ rfl) hturn
  | drop hdrop =>
    cases hdrop with
    | stay => exact h
    | leave hold => exact h.leave hold rfl
  | call call =>
    refine h.spawn ?_
    intro phase hphase
    rw [List.mem_singleton.mp hphase]
    rfl
  | connect => exact h.of_eq rfl rfl
  | pass => exact h

end IsInLine

end Desk

namespace Machine

variable {m : Machine} {log : List Rpc.Message} {t : TaskId} {phase : Phase}

theorem phase_of_duty {duty : Duty} (h : m.view.duty? t = some duty) :
    ∃ phase, m.desk.phases[t]? = some phase ∧ phase.duty = duty := by
  obtain ⟨task, htask, hduty⟩ := task_of_duty h
  exact ⟨task.phase, desk_phase htask, hduty⟩

theorem not_installing (hcoherent : m.view.IsCoherent log) (hstate : m.state = .initialized)
    (t : TaskId) : m.desk.isIn Phase.isInstalling t = false := by
  rw [Bool.eq_false_iff]
  intro hinstalling
  obtain ⟨phase, hphase, htest⟩ := (Option.any_eq_true _ _).mp hinstalling
  have hduty := desk_duty hphase
  cases phase with
  | lockWriter job =>
    cases job with
    | install c =>
      have hopening : m.state = .connecting ∨ m.state = .error := hcoherent.fits t _ hduty
      rcases hopening with hother | hother <;> cases hother.symm.trans hstate
    | send | close => cases htest
  | _ => cases htest

end Machine

end CodeAtlas.Client
