import CodeAtlas.Proofs.Client.Moves
import Mathlib.Data.List.Pairwise

/-!
# Whoever waits for a response is in the table

The table of pending requests and the tasks that wait agree in every run, also where callers supply
ids of their own: an entry stands for a task whose inbox is empty, no two entries have the same id
or the same owner, and a task that waits with an empty inbox has an entry (`Ledger.IsOrderly`). So a
table that is emptied by giving an outcome to every owner leaves nobody waiting.

What has come for a task that has made its request stays as it is (`Ledger.Moves.holds`): an outcome
comes once.
-/

namespace CodeAtlas.Client

open Rpc (RequestId)

variable {inbox : Inbox} {seat : Seat}

theorem Seat.put_of_ne_empty (h : seat.inbox ≠ .empty) (inbox : Inbox) : seat.put inbox = seat := by
  unfold Seat.put
  split
  · next hempty => exact absurd hempty h
  · rfl

theorem Seat.inbox_put_ne_empty (seat : Seat) (h : inbox ≠ .empty) :
    (seat.put inbox).inbox ≠ .empty := by
  unfold Seat.put
  split
  · exact h
  · next hfilled => exact hfilled

theorem Seat.inbox_put_delivered (seat : Seat) (outcome : Outcome) :
    (seat.put (.delivered outcome)).inbox ≠ .empty :=
  seat.inbox_put_ne_empty nofun

theorem Seat.Quiet.making {stage : Stage} {d : Dispatch} (h : seat.Quiet stage)
    (hmaking : stage = .making d) : seat.stage = .making d := by
  cases h with
  | hold hstage => exact hstage.trans hmaking
  | wait | fault | take | stay | rest => cases hmaking

theorem Seat.Quiet.not_before {stage : Stage} (h : seat.Quiet stage)
    (hmade : ∀ supplied, seat.stage ≠ .before supplied) (supplied : Option RequestId) :
    stage ≠ .before supplied := by
  intro hbefore
  cases h with
  | wait hstage => exact hmade _ hstage
  | hold | fault | take | stay | rest => cases hbefore

namespace Ledger

variable {free : Bool} {L next : Ledger} {t : TaskId} {id : RequestId}

/-- The seats after outcomes came for the owners of entries: each owner gets the one of its first
entry. -/
theorem seat_give_all (outcome : RequestId → Outcome) (entries : List Pending) (L : Ledger)
    (u : TaskId) :
    (L.giveAll outcome entries).seats[u]? = (L.seats[u]?).map fun seat =>
      match entries.find? fun entry => entry.owner == u with
      | some entry => seat.put (.delivered (outcome entry.id))
      | none => seat := by
  induction entries generalizing L with
  | nil => exact Option.map_id'.symm
  | cons entry rest ih =>
    show ((L.give entry.owner (.delivered (outcome entry.id))).giveAll outcome rest).seats[u]? = _
    rw [ih, seat_give, Option.map_map, List.find?_cons]
    congr 1
    funext seat
    simp only [Function.comp_apply]
    by_cases howner : entry.owner = u
    · simp only [howner, beq_self_eq_true, ↓reduceIte]
      split
      · exact Seat.put_of_ne_empty (seat.inbox_put_delivered _) _
      · rfl
    · simp only [if_neg howner, beq_false_of_ne howner]

theorem resolve_all_pending (L : Ledger) (outcome : RequestId → Outcome) :
    (L.resolveAll outcome).pending = [] := by
  have hgive (entries : List Pending) (L : Ledger) :
      (L.giveAll outcome entries).pending = L.pending := by
    induction entries generalizing L with
    | nil => rfl
    | cons entry rest ih => exact ih (L.give entry.owner (.delivered (outcome entry.id)))
  exact hgive L.pending { L with pending := [] }

variable {phase : Phase} {supplied : Option RequestId}

/-- What has come for a task that has made its request, if anything has. -/
def Holds (L : Ledger) (t : TaskId) (inbox : Inbox) : Prop :=
  ∃ seat : Seat, L.seats[t]? = some seat ∧ seat.inbox = inbox ∧
    ∀ supplied, seat.stage ≠ .before supplied

namespace Holds

variable (h : L.Holds t inbox)

include h

theorem spawn (phase : Phase) : (L.spawn phase).Holds t inbox := by
  obtain ⟨seat, hseat, hholds⟩ := h
  exact ⟨seat, item_kept hseat _, hholds⟩

theorem register {u : TaskId} (hne : u ≠ t) (id : RequestId) : (L.register u id).Holds t inbox := by
  obtain ⟨seat, hseat, hholds⟩ := h
  exact ⟨seat, by rw [seat_register, hseat, Option.map_some, if_neg hne], hholds⟩

theorem set_phase {u : TaskId} (hbefore : u = t → ∀ supplied, phase.stage ≠ .before supplied) :
    (L.setPhase u phase).Holds t inbox := by
  obtain ⟨seat, hseat, hinbox, hmade⟩ := h
  refine ⟨_, by rw [seat_set_phase, hseat, Option.map_some], ?_⟩
  split
  · next hu => exact ⟨hinbox, hbefore hu⟩
  · exact ⟨hinbox, hmade⟩

theorem give (hfilled : inbox ≠ .empty) (u : TaskId) (more : Inbox) :
    (L.give u more).Holds t inbox := by
  obtain ⟨seat, hseat, rfl, hmade⟩ := h
  refine ⟨seat, ?_, rfl, hmade⟩
  rw [seat_give, hseat, Option.map_some, Seat.put_of_ne_empty hfilled, ite_self]

theorem give_all (hfilled : inbox ≠ .empty) (outcome : RequestId → Outcome)
    (entries : List Pending) : (L.giveAll outcome entries).Holds t inbox := by
  unfold giveAll
  induction entries generalizing L with
  | nil => exact h
  | cons entry rest ih => exact ih (h.give hfilled _ _)

theorem unregister (hfilled : inbox ≠ .empty) (u : TaskId) (id : RequestId) :
    (L.unregister u id).Holds t inbox := by
  have hstrike : (L.strike id).Holds t inbox := h
  fun_cases Ledger.unregister with
  | case1 => exact h
  | case2 => exact hstrike
  | case3 => exact hstrike.give hfilled _ _

theorem resolve (hfilled : inbox ≠ .empty) (id : RequestId) (outcome : Outcome) :
    (L.resolve id outcome).Holds t inbox := by
  have hstrike : (L.strike id).Holds t inbox := h
  unfold Ledger.resolve
  split
  · exact hstrike.give hfilled _ _
  · exact h

theorem ne_of_before {u : TaskId} (hat : L.At u (.before supplied)) : u ≠ t := by
  rintro rfl
  obtain ⟨seat, hseat, -, hmade⟩ := h
  obtain ⟨other, hother, hbefore⟩ := hat
  cases hseat.symm.trans hother
  exact hmade supplied hbefore

end Holds

/-- The table and the tasks that wait agree. -/
structure IsOrderly (L : Ledger) : Prop where
  distinct : L.pending.Pairwise fun first second =>
    first.id ≠ second.id ∧ first.owner ≠ second.owner
  /-- Nothing has come for the owner of an entry, who has made its request. -/
  waits : ∀ entry ∈ L.pending, L.Holds entry.owner .empty
  /-- A task that waits with an empty inbox has an entry. -/
  listed : ∀ (t : TaskId) (seat : Seat) d, L.seats[t]? = some seat → seat.stage = .making d →
    seat.inbox = .empty → ⟨d.id, t⟩ ∈ L.pending

namespace IsOrderly

variable (h : L.IsOrderly)

include h

theorem differ {first second : Pending} (hfirst : first ∈ L.pending)
    (hsecond : second ∈ L.pending) (hne : first ≠ second) :
    first.id ≠ second.id ∧ first.owner ≠ second.owner := by
  have : Std.Symm fun first second : Pending =>
      first.id ≠ second.id ∧ first.owner ≠ second.owner := ⟨fun _ _ h => ⟨h.1.symm, h.2.symm⟩⟩
  exact h.distinct.forall hfirst hsecond hne

theorem id_ne {first second : Pending} (hfirst : first ∈ L.pending) (hsecond : second ∈ L.pending)
    (hne : first.owner ≠ second.owner) : second.id ≠ first.id :=
  (h.differ hfirst hsecond fun heq => hne (congrArg Pending.owner heq)).1.symm

/-- A task goes on without making its request again. -/
theorem set_phase (hbefore : L.Holds t .empty → ∀ supplied, phase.stage ≠ .before supplied)
    (hmaking : ∀ (seat : Seat) d, L.seats[t]? = some seat → phase.stage = .making d →
      seat.stage = .making d) : (L.setPhase t phase).IsOrderly where
  distinct := h.distinct
  waits entry hentry := by
    have hwaits := h.waits entry hentry
    exact hwaits.set_phase fun howner => hbefore (howner ▸ hwaits)
  listed u seat d hseat hstage hempty := by
    rcases seat_moved hseat with ⟨-, hsame⟩ | ⟨rfl, old, hold, rfl⟩
    · exact h.listed u seat d hsame hstage hempty
    · exact h.listed t old d hold (hmaking old d hold hstage) hempty

theorem advance (hseat : L.seats[t]? = some seat) (hquiet : seat.Quiet phase.stage) :
    (L.setPhase t phase).IsOrderly := by
  refine h.set_phase ?_ ?_
  · rintro ⟨old, hold, -, hmade⟩
    cases hseat.symm.trans hold
    exact hquiet.not_before hmade
  · intro old d hold hstage
    cases hseat.symm.trans hold
    exact hquiet.making hstage

theorem set_made {d : Dispatch} {outcome : Outcome} (hstage : phase.stage = .made d outcome) :
    (L.setPhase t phase).IsOrderly :=
  h.set_phase (fun _ _ hbefore => by cases hstage.symm.trans hbefore)
    fun _ _ _ hmaking => by cases hstage.symm.trans hmaking

theorem spawn (hmaking : ∀ d, phase.stage ≠ .making d) : (L.spawn phase).IsOrderly where
  distinct := h.distinct
  waits entry hentry := (h.waits entry hentry).spawn phase
  listed u seat d hseat hstage hempty := by
    rcases seat_spawn hseat with hsame | ⟨-, rfl⟩
    · exact h.listed u seat d hsame hstage hempty
    · exact absurd hstage (hmaking d)

theorem register {d : Dispatch} (hat : L.At t (.before supplied))
    (hpending : L.isPending d.id = false) (hstage : phase.stage = .making d) :
    ((L.register t d.id).setPhase t phase).IsOrderly := by
  obtain ⟨seat, hseat, hbefore⟩ := hat
  have hunused (entry : Pending) (hentry : entry ∈ L.pending) :
      entry.id ≠ d.id ∧ entry.owner ≠ t := by
    refine ⟨?_, ?_⟩
    · intro hid
      have hany := List.any_eq_false.mp hpending entry hentry
      exact hany (beq_iff_eq.mpr hid)
    · exact ((h.waits entry hentry).ne_of_before ⟨seat, hseat, hbefore⟩).symm
  refine ⟨?_, ?_, ?_⟩
  · rw [Ledger.setPhase, Ledger.register, List.pairwise_append]
    refine ⟨h.distinct, List.pairwise_singleton _ _, ?_⟩
    intro entry hentry last hlast
    cases List.mem_singleton.mp hlast
    exact hunused entry hentry
  · intro entry hentry
    rcases List.mem_append.mp hentry with hold | hnew
    · have hne : t ≠ entry.owner := (hunused entry hold).2.symm
      exact ((h.waits entry hold).register hne d.id).set_phase fun heq => absurd heq hne
    · cases List.mem_singleton.mp hnew
      refine ⟨⟨phase, .empty⟩, by simp [seat_set_phase, seat_register, hseat], rfl, ?_⟩
      intro other hother
      cases hstage.symm.trans hother
  · intro u next e hnext hmaking hempty
    rcases seat_registered hnext with ⟨-, hsame⟩ | ⟨rfl, rfl⟩
    · exact List.mem_append_left _ (h.listed u next e hsame hmaking hempty)
    · cases hstage.symm.trans hmaking
      exact List.mem_append_right _ (List.mem_singleton_self _)

theorem give {entry : Pending} (hentry : L.registered? id = some entry) (hinbox : inbox ≠ .empty) :
    ((L.strike id).give entry.owner inbox).IsOrderly := by
  obtain ⟨hmem, rfl⟩ := mem_of_entry hentry
  refine ⟨h.distinct.filter _, ?_, ?_⟩
  · intro other hother
    obtain ⟨hpending, hid⟩ := mem_strike.mp hother
    obtain ⟨seat, hseat, hwaits⟩ := h.waits other hpending
    have howner : entry.owner ≠ other.owner :=
      (h.differ hmem hpending fun heq => hid (congrArg Pending.id heq.symm)).2
    refine ⟨seat, ?_, hwaits⟩
    simp only [seat_give, if_neg howner]
    exact Option.map_id'.trans hseat
  · intro u seat d hseat hstage hempty
    rcases seat_given hseat with ⟨hne, hsame⟩ | ⟨rfl, old, hold, rfl⟩
    · have hlisted := h.listed u seat d hsame hstage hempty
      exact mem_strike.mpr ⟨hlisted, h.id_ne hmem hlisted hne⟩
    · exact absurd hempty (old.inbox_put_ne_empty hinbox)

theorem resolve (id : RequestId) (outcome : Outcome) : (L.resolve id outcome).IsOrderly := by
  unfold Ledger.resolve
  split
  · next entry hentry => exact h.give hentry nofun
  · exact h

theorem resolve_all (outcome : RequestId → Outcome) : (L.resolveAll outcome).IsOrderly := by
  have hpending := L.resolve_all_pending outcome
  refine ⟨hpending ▸ .nil, ?_, ?_⟩
  · intro entry hentry
    rw [hpending] at hentry
    cases hentry
  · intro u seat d hseat hstage hempty
    unfold Ledger.resolveAll at hseat
    rw [seat_give_all] at hseat
    obtain ⟨old, hold, rfl⟩ := Option.map_eq_some_iff.mp hseat
    split at hempty
    · exact absurd hempty (old.inbox_put_delivered _)
    · -- A task that still waits has an entry, so something came for it.
      next hnone =>
        simp only [hnone] at hstage
        have hlisted := h.listed u old d hold hstage hempty
        exact absurd (beq_self_eq_true u) (List.find?_eq_none.mp hnone _ hlisted)

theorem unregister (id : RequestId)
    (hover : ∀ (seat : Seat) d, L.seats[t]? = some seat → seat.stage ≠ .making d) :
    (L.unregister t id).IsOrderly := by
  fun_cases Ledger.unregister with
  | case1 => exact h
  | case2 entry hentry howner =>
    obtain ⟨hmem, rfl⟩ := mem_of_entry hentry
    refine ⟨h.distinct.filter _, fun other hother => h.waits other (mem_strike.mp hother).1, ?_⟩
    intro u seat d hseat hstage hempty
    have hlisted := h.listed u seat d hseat hstage hempty
    refine mem_strike.mpr ⟨hlisted, h.id_ne hmem hlisted fun hu => ?_⟩
    exact hover seat d ((hu.symm.trans howner : u = t) ▸ hseat) hstage
  | case3 entry hentry => exact h.give hentry fun hempty => by cases hempty

theorem quiet (hquiet : L.Quiet free next) : next.IsOrderly := by
  cases hquiet with
  | advance hseat hquiet => exact h.advance hseat hquiet
  | call _ hstage | spawn hstage => exact h.spawn fun d hmaking => by cases hstage.symm.trans hmaking

theorem does {deed : Deed} (hdoes : L.Does deed next) : next.IsOrderly := by
  -- To give out an id concerns neither the table nor the tasks.
  have hnumber (supplied : Option RequestId) : (L.number supplied).2.IsOrderly := by
    cases supplied <;> exact ⟨h.distinct, h.waits, h.listed⟩
  cases hdoes with
  | @dispatch t supplied d phase hat hid hpending hstage =>
    have hat' : (L.number supplied).2.At t (.before supplied) := by cases supplied <;> exact hat
    have hpending' : (L.number supplied).2.isPending d.id = false := by
      cases supplied <;> exact hpending
    exact (hnumber supplied).register hat' hpending' hstage
  | @refuse t supplied d phase hat hid hpending hstage =>
    exact (hnumber supplied).set_made hstage
  | response id outcome => exact h.resolve id outcome
  | cancel id => exact h.resolve id _
  | fail hfault => exact h.resolve_all _
  | @settle t d outcome phase hat hstage =>
    have hover (seat : Seat) (e : Dispatch) (hseat : L.seats[t]? = some seat) :
        seat.stage ≠ .making e := by
      obtain ⟨other, hother, hleaving⟩ := hat
      cases hseat.symm.trans hother
      rw [hleaving]
      nofun
    exact (h.unregister d.id hover).set_made hstage
  | @drop t d phase hat hstage =>
    obtain ⟨seat, hseat, -⟩ := hat
    refine (h.advance hseat (hstage ▸ .rest)).unregister d.id ?_
    intro other e hother hmaking
    rcases seat_moved hother with ⟨hne, -⟩ | ⟨-, old, -, rfl⟩
    · exact hne rfl
    · cases hstage.symm.trans hmaking

theorem moves {deeds : List Deed} (hmoves : L.Moves free deeds next) : next.IsOrderly := by
  induction hmoves with
  | done => exact h
  | quiet hquiet _ ih => exact ih (h.quiet hquiet)
  | does hdoes _ ih => exact ih (h.does hdoes)

end IsOrderly

theorem Quiet.holds (hquiet : L.Quiet free next) (h : L.Holds t inbox) : next.Holds t inbox := by
  cases hquiet with
  | advance hseat hquiet =>
    refine h.set_phase ?_
    rintro rfl
    obtain ⟨seat, hother, -, hmade⟩ := h
    cases hseat.symm.trans hother
    exact hquiet.not_before hmade
  | call | spawn => exact h.spawn _

theorem Does.holds {deed : Deed} (hdoes : L.Does deed next) (h : L.Holds t inbox)
    (hfilled : inbox ≠ .empty) : next.Holds t inbox := by
  cases hdoes with
  | @dispatch u supplied d phase hat hid hpending hstage =>
    have hne := h.ne_of_before hat
    have hnumber : (L.number supplied).2.Holds t inbox := by cases supplied <;> exact h
    exact (hnumber.register hne d.id).set_phase fun hu => absurd hu hne
  | @refuse u supplied d phase hat hid hpending hstage =>
    have hnumber : (L.number supplied).2.Holds t inbox := by cases supplied <;> exact h
    exact hnumber.set_phase fun hu => absurd hu (h.ne_of_before hat)
  | response id outcome => exact h.resolve hfilled id outcome
  | cancel id => exact h.resolve hfilled id _
  | fail hfault =>
    have hemptied : { L with pending := [] }.Holds t inbox := h
    exact hemptied.give_all hfilled _ _
  | settle hat hstage =>
    refine (h.unregister hfilled _ _).set_phase ?_
    intro _ supplied hbefore
    cases hstage.symm.trans hbefore
  | drop hat hstage =>
    refine (h.set_phase ?_).unregister hfilled _ _
    intro _ supplied hbefore
    cases hstage.symm.trans hbefore

/-- Nothing more comes for a task for which something has come. -/
theorem Moves.holds {deeds : List Deed} (hmoves : L.Moves free deeds next) (h : L.Holds t inbox)
    (hfilled : inbox ≠ .empty) : next.Holds t inbox := by
  induction hmoves with
  | done => exact h
  | quiet hquiet _ ih => exact ih (hquiet.holds h)
  | does hdoes _ ih => exact ih (hdoes.holds h hfilled)

end Ledger

namespace Machine

def inboxOf (m : Machine) (t : TaskId) : Option Inbox := (m.tasks[t]?).map Task.inbox

variable {m : Machine} {t : TaskId}

theorem task_of_holds (h : m.ledger.Holds t inbox) :
    ∃ task, m.tasks[t]? = some task ∧ task.inbox = inbox ∧
      ∀ supplied, task.phase.stage ≠ .before supplied := by
  obtain ⟨seat, hseat, hholds⟩ := h
  rw [ledger, List.getElem?_map] at hseat
  obtain ⟨task, htask, rfl⟩ := Option.map_eq_some_iff.mp hseat
  exact ⟨task, htask, hholds⟩

theorem inbox_of_holds (h : m.ledger.Holds t inbox) : m.inboxOf t = some inbox := by
  obtain ⟨task, htask, rfl, -⟩ := task_of_holds h
  rw [inboxOf, htask]
  rfl

theorem unused_orderly (setup : Setup) : (unused setup).ledger.IsOrderly :=
  ⟨.nil, nofun, fun _ _ _ hseat => (nomatch hseat)⟩

/-- The table and the tasks that wait agree in every run. -/
theorem run_orderly (setup : Setup) (occurrences : List Occurrence) :
    ((unused setup).run occurrences).ledger.IsOrderly :=
  (unused_orderly ..).moves (run_moves true _ occurrences nofun)

theorem run_holds (h : m.ledger.Holds t inbox) (hfilled : inbox ≠ .empty)
    (occurrences : List Occurrence) : (m.run occurrences).ledger.Holds t inbox :=
  (run_moves true m occurrences nofun).holds h hfilled

end Machine

end CodeAtlas.Client
