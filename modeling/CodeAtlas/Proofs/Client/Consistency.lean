import CodeAtlas.Proofs.Client.Waiting

/-!
# Ledgers that agree with their history

Where callers supply no ids, a ledger agrees with the deeds that led to it: the ids in use have been
given out once each, every entry of the table belongs to the request that was registered under its
id, and a task has an answer in its inbox exactly if a response to its request was expected.
`Ledger.Consistent` says so, and `Ledger.Tracks.moves` shows that all moves keep it.
-/

namespace CodeAtlas.Client

open Rpc (RequestId)

def Deed.dispatch? : Deed → Option (TaskId × RequestId)
  | .dispatched t id => some (t, id)
  | _ => none

/-- The task and the id of a request that ends, with an outcome or without one. -/
def Deed.ending? : Deed → Option (TaskId × RequestId)
  | .settled t id _ => some (t, id)
  | .dropped t id => some (t, id)
  | _ => none

def Deed.answer? : Deed → Option (RequestId × Outcome)
  | .response id outcome true => some (id, outcome)
  | _ => none

/-- The requests that were registered, first to last. -/
def dispatches (history : List Deed) : List (TaskId × RequestId) :=
  history.filterMap Deed.dispatch?

/-- The requests that have ended, first to last. -/
def endings (history : List Deed) : List (TaskId × RequestId) := history.filterMap Deed.ending?

/-- The responses that were expected, first to last. -/
def answers (history : List Deed) : List (RequestId × Outcome) := history.filterMap Deed.answer?

variable {stage : Stage} {d : Dispatch} {outcome : Outcome} {seat : Seat} {inbox : Inbox}
  {t : TaskId}

/-- Whether a task has done with its request, or makes none. -/
def Stage.isOver : Stage → Bool
  | .made _ _ => true
  | .after => true
  | _ => false

/-- The stage of a task and what has come for it agree with the requests that were registered, the
ones that have ended and the answers to them. -/
def Stage.Fits (made ended : List (TaskId × RequestId)) (answers : List (RequestId × Outcome))
    (t : TaskId) (inbox : Inbox) : Stage → Prop
  -- A task makes one request at most, so it has made none before.
  | .before supplied => supplied = none ∧ ∀ id, (t, id) ∉ made
  -- What has come is an answer exactly if the request was answered.
  | .making d => (t, d.id) ∈ made ∧ (t, d.id) ∉ ended ∧ ∀ outcome,
      (isAnswer outcome = true → inbox = .delivered outcome →
        answers.lookup d.id = some outcome) ∧
      (answers.lookup d.id = some outcome → inbox = .delivered outcome)
  | .leaving d outcome => (t, d.id) ∈ made ∧ (t, d.id) ∉ ended ∧
      (isAnswer outcome = true → answers.lookup d.id = some outcome)
  | .made _ _ => True
  | .after => True

section Fits

variable {made ended : List (TaskId × RequestId)} {answers : List (RequestId × Outcome)}

theorem Stage.Fits.quiet (hfits : seat.stage.Fits made ended answers t seat.inbox)
    (hquiet : seat.Quiet stage) : stage.Fits made ended answers t seat.inbox := by
  cases hquiet with
  | wait hstage | hold hstage | stay hstage =>
    rw [hstage] at hfits
    exact hfits
  | fault hstage hfault =>
    rw [hstage] at hfits
    obtain ⟨hmade, hopen, -⟩ := hfits
    exact ⟨hmade, hopen, fun hanswer => absurd (hfault.symm.trans hanswer) Bool.false_ne_true⟩
  | take hstage hinbox =>
    rw [hstage] at hfits
    obtain ⟨hmade, hopen, hanswers⟩ := hfits
    exact ⟨hmade, hopen, fun hanswer => (hanswers _).1 hanswer hinbox⟩
  | rest => trivial

theorem Stage.Fits.request (h : stage.Fits made ended answers t inbox)
    (hd : stage.request? = some d) : (t, d.id) ∈ made ∧ (t, d.id) ∉ ended := by
  cases stage with
  | making | leaving =>
    cases hd
    exact ⟨h.1, h.2.1⟩
  | before | made | after => cases hd

/-- A seat depends on the ending of its own request and on the answers to it only. -/
theorem Stage.Fits.congr {later : List (TaskId × RequestId)} {more : List (RequestId × Outcome)}
    (h : stage.Fits made ended answers t inbox)
    (hsame : ∀ d, stage.request? = some d →
      (t, d.id) ∉ later ∧ more.lookup d.id = answers.lookup d.id) :
    stage.Fits made later more t inbox := by
  cases stage with
  | making d | leaving d =>
    obtain ⟨hopen, hanswer⟩ := hsame d rfl
    rw [Stage.Fits, hanswer]
    exact ⟨h.1, hopen, h.2.2⟩
  | before => exact h
  | made | after => trivial

theorem Stage.Fits.dispatched {u : TaskId} {id : RequestId}
    (h : stage.Fits made ended answers u inbox) (hne : t ≠ u) :
    stage.Fits (made ++ [(t, id)]) ended answers u inbox := by
  cases stage with
  | before supplied =>
    have hunmade := h.2
    exact ⟨h.1, fun other => by simp [hunmade other, hne.symm]⟩
  | making | leaving => exact ⟨List.mem_append_left _ h.1, h.2⟩
  | made | after => trivial

end Fits

/-- Nothing has come for a seat since it was the old one, or something that is no answer. -/
def Seat.Hushed (old seat : Seat) : Prop :=
  seat.stage = old.stage ∧ (seat.inbox = old.inbox ∨
    old.inbox = .empty ∧ ∀ outcome, isAnswer outcome = true → seat.inbox ≠ .delivered outcome)

theorem Seat.hushed_put (old : Seat) (hfault : isAnswer outcome = false) :
    old.Hushed (old.put (.delivered outcome)) := by
  refine ⟨old.stage_put _, ?_⟩
  cases hinbox : old.inbox with
  | empty =>
    refine .inr ⟨rfl, fun answer hanswer hdelivered => ?_⟩
    simp only [Seat.put, hinbox] at hdelivered
    cases hdelivered
    exact Bool.false_ne_true (hfault.symm.trans hanswer)
  | delivered | abandoned => exact .inl (by simp only [Seat.put, hinbox])

theorem Seat.Hushed.trans {old last : Seat} (first : old.Hushed seat) (second : seat.Hushed last) :
    old.Hushed last := by
  refine ⟨second.1.trans first.1, ?_⟩
  rcases first.2 with hsame | ⟨hempty, hother⟩
  · rw [← hsame]
    exact second.2
  · refine .inr ⟨hempty, ?_⟩
    rcases second.2 with hsame | ⟨-, hlast⟩
    · rw [hsame]
      exact hother
    · exact hlast

namespace Ledger

/-- A ledger agrees with the requests that were registered, the ones that have ended and the answers
to them. -/
structure Consistent (L : Ledger) (made ended : List (TaskId × RequestId))
    (answers : List (RequestId × Outcome)) : Prop where
  /-- Requests are made by tasks that exist, under numbers that have been given out. -/
  numbered : ∀ t id, (t, id) ∈ made → t < L.seats.length ∧ ∃ n, id = .number n ∧ n < L.nextId
  /-- No task makes two requests, and no id is used twice. -/
  distinct : made.Pairwise fun first second => first.1 ≠ second.1 ∧ first.2 ≠ second.2
  ended_made : ∀ request ∈ ended, request ∈ made
  ended_once : ended.Nodup
  answered_made : ∀ answer ∈ answers, ∃ t, (t, answer.1) ∈ made
  /-- An entry of the table is a request that was made, has not ended and was not answered. -/
  entry_made : ∀ entry ∈ L.pending, (entry.owner, entry.id) ∈ made
  entry_open : ∀ entry ∈ L.pending, (entry.owner, entry.id) ∉ ended
  entry_unanswered : ∀ entry ∈ L.pending, answers.lookup entry.id = none
  seats : ∀ (t : TaskId) (seat : Seat), L.seats[t]? = some seat →
    seat.stage.Fits made ended answers t seat.inbox

theorem give_all_hushed {outcome : RequestId → Outcome}
    (hfault : ∀ id, isAnswer (outcome id) = false) (entries : List Pending) (L : Ledger) :
    (L.giveAll outcome entries).nextId = L.nextId ∧
      (L.giveAll outcome entries).seats.length = L.seats.length ∧
      ∀ (u : TaskId) (seat : Seat), (L.giveAll outcome entries).seats[u]? = some seat →
        ∃ old, L.seats[u]? = some old ∧ old.Hushed seat := by
  induction entries generalizing L with
  | nil => exact ⟨rfl, rfl, fun u seat hseat => ⟨seat, hseat, rfl, .inl rfl⟩⟩
  | cons entry rest ih =>
    obtain ⟨hnext, hlength, hseats⟩ := ih (L.give entry.owner (.delivered (outcome entry.id)))
    refine ⟨hnext, hlength.trans (List.length_modify ..), fun u seat hseat => ?_⟩
    obtain ⟨old, hold, hhushed⟩ := hseats u seat hseat
    rcases seat_given hold with ⟨-, hfirst⟩ | ⟨-, first, hfirst, rfl⟩
    · exact ⟨old, hfirst, hhushed⟩
    · exact ⟨first, hfirst, (first.hushed_put (hfault entry.id)).trans hhushed⟩

namespace Consistent

variable {L : Ledger} {made ended : List (TaskId × RequestId)}
  {answers : List (RequestId × Outcome)} {u : TaskId} {id other : RequestId}
  (h : L.Consistent made ended answers)

include h

theorem differ {first second : TaskId × RequestId} (hfirst : first ∈ made)
    (hsecond : second ∈ made) (hne : first ≠ second) : first.1 ≠ second.1 ∧ first.2 ≠ second.2 := by
  have : Std.Symm fun first second : TaskId × RequestId =>
      first.1 ≠ second.1 ∧ first.2 ≠ second.2 := ⟨fun _ _ hne => ⟨hne.1.symm, hne.2.symm⟩⟩
  exact h.distinct.forall hfirst hsecond hne

theorem task_unique (ht : (t, id) ∈ made) (hu : (u, id) ∈ made) : t = u := by
  by_contra hne
  exact (h.differ ht hu fun heq => hne (congrArg Prod.fst heq)).2 rfl

theorem id_unique (hid : (t, id) ∈ made) (hother : (t, other) ∈ made) : id = other := by
  by_contra hne
  exact (h.differ hid hother fun heq => hne (congrArg Prod.snd heq)).1 rfl

variable {supplied : Option RequestId} {phase : Phase}

theorem advance (hseat : L.seats[t]? = some seat) (hquiet : seat.Quiet phase.stage) :
    (L.setPhase t phase).Consistent made ended answers := by
  refine { h with numbered := ?_, seats := ?_ }
  · simpa only [setPhase, List.length_modify] using h.numbered
  · intro u next hnext
    rcases seat_moved hnext with ⟨-, hold⟩ | ⟨rfl, old, hold, rfl⟩
    · exact h.seats u next hold
    · cases hseat.symm.trans hold
      exact (h.seats t seat hseat).quiet hquiet

theorem spawn (hstage : phase.stage = .before none ∨ phase.stage = .after) :
    (L.spawn phase).Consistent made ended answers := by
  refine { h with numbered := ?_, seats := ?_ }
  · intro t id hmade
    obtain ⟨hlength, hnumber⟩ := h.numbered t id hmade
    refine ⟨?_, hnumber⟩
    rw [Ledger.spawn, List.length_append]
    exact Nat.lt_add_right _ hlength
  · intro u seat hseat
    rcases seat_spawn hseat with hold | ⟨rfl, rfl⟩
    · exact h.seats u seat hold
    · change phase.stage.Fits made ended answers L.seats.length .empty
      rcases hstage with hbefore | hafter
      · rw [hbefore]
        -- The last task is new, so no request was made by it.
        exact ⟨rfl, fun id hmade => Nat.lt_irrefl _ (h.numbered _ id hmade).1⟩
      · rw [hafter]
        trivial

theorem lookup_eq_none (hunmade : ∀ t, (t, id) ∉ made) : answers.lookup id = none := by
  rw [List.lookup_eq_none_iff]
  intro answer hanswer
  obtain ⟨t, hmade⟩ := h.answered_made answer hanswer
  rw [bne_iff_ne]
  exact fun heq => hunmade t (heq ▸ hmade)

theorem supplied_eq_none (hat : L.At t (.before supplied)) : supplied = none := by
  obtain ⟨seat, hseat, hbefore⟩ := hat
  have hfits := h.seats t seat hseat
  rw [hbefore] at hfits
  exact hfits.1

theorem number_not_pending (hat : L.At t (.before supplied)) :
    ¬ L.isPending (L.number supplied).1 = true := by
  cases h.supplied_eq_none hat
  intro hpending
  obtain ⟨entry, hentry⟩ := entry_of_pending hpending
  obtain ⟨hmem, hid⟩ := mem_of_entry hentry
  obtain ⟨-, n, hn, hlt⟩ := h.numbered _ _ (h.entry_made entry hmem)
  cases hid.symm.trans hn
  exact Int.lt_irrefl _ hlt

theorem request_of_at (hat : L.At t stage) (hrequest : stage.request? = some d) :
    (t, d.id) ∈ made ∧ (t, d.id) ∉ ended := by
  obtain ⟨seat, hseat, rfl⟩ := hat
  exact (h.seats t seat hseat).request hrequest

theorem dispatch (hat : L.At t (.before supplied)) (hid : d.id = .number L.nextId)
    (hstage : phase.stage = .making d) :
    (({ L with nextId := L.nextId + 1 }.register t d.id).setPhase t phase).Consistent
      (made ++ [(t, d.id)]) ended answers := by
  obtain ⟨seat, hseat, hbefore⟩ := hat
  have hfits := h.seats t seat hseat
  rw [hbefore] at hfits
  -- All ids in use are below the next one, so the new id was never used.
  have hunused (u : TaskId) : (u, d.id) ∉ made := by
    intro hmade
    obtain ⟨-, n, hn, hlt⟩ := h.numbered u d.id hmade
    cases hid.symm.trans hn
    exact Int.lt_irrefl _ hlt
  have hopen : (t, d.id) ∉ ended := fun hended => hunused t (h.ended_made _ hended)
  have hunanswered : answers.lookup d.id = none := h.lookup_eq_none hunused
  constructor
  case numbered =>
    intro u id hmade
    simp only [setPhase, register, List.length_modify]
    rcases List.mem_append.mp hmade with hmade | hmade
    · obtain ⟨hlength, n, hn, hlt⟩ := h.numbered u id hmade
      exact ⟨hlength, n, hn, Int.lt_add_one_of_le (Int.le_of_lt hlt)⟩
    · cases List.mem_singleton.mp hmade
      obtain ⟨hlength, -⟩ := List.getElem?_eq_some_iff.mp hseat
      exact ⟨hlength, L.nextId, hid, Int.lt_succ _⟩
  case distinct =>
    rw [List.pairwise_append]
    refine ⟨h.distinct, List.pairwise_singleton _ _, ?_⟩
    rintro ⟨u, id⟩ hmade last hlast
    cases List.mem_singleton.mp hlast
    refine ⟨?_, ?_⟩
    · rintro rfl
      exact hfits.2 id hmade
    · rintro rfl
      exact hunused u hmade
  case ended_made => exact fun request hended => List.mem_append_left _ (h.ended_made request hended)
  case ended_once => exact h.ended_once
  case answered_made =>
    intro answer hanswer
    obtain ⟨u, hmade⟩ := h.answered_made answer hanswer
    exact ⟨u, List.mem_append_left _ hmade⟩
  case entry_made =>
    exact List.forall_mem_append.mpr
      ⟨fun entry hmem => List.mem_append_left _ (h.entry_made entry hmem), by simp⟩
  case entry_open => exact List.forall_mem_append.mpr ⟨h.entry_open, by simpa using hopen⟩
  case entry_unanswered =>
    exact List.forall_mem_append.mpr ⟨h.entry_unanswered, by simpa using hunanswered⟩
  case seats =>
    intro u next hnext
    rcases seat_registered hnext with ⟨hne, hold⟩ | ⟨rfl, rfl⟩
    · exact (h.seats u next hold).dispatched hne
    · change phase.stage.Fits _ ended answers t .empty
      rw [hstage]
      refine ⟨List.mem_append_right _ (List.mem_singleton.mpr rfl), hopen, fun outcome => ⟨?_, ?_⟩⟩
      · intro _ hinbox
        cases hinbox
      · intro hanswer
        cases hunanswered.symm.trans hanswer

theorem answer {entry : Pending} (hentry : L.registered? id = some entry)
    (hwaits : L.Holds entry.owner .empty) :
    ((L.strike id).give entry.owner (.delivered outcome)).Consistent made ended
      (answers ++ [(id, outcome)]) := by
  obtain ⟨hmem, rfl⟩ := mem_of_entry hentry
  have hmade := h.entry_made entry hmem
  have hunanswered := h.entry_unanswered entry hmem
  have hlookup {other : RequestId} (hne : other ≠ entry.id) :
      (answers ++ [(entry.id, outcome)]).lookup other = answers.lookup other := by
    rw [List.lookup_append, List.lookup_cons, beq_false_of_ne hne, List.lookup_nil, Option.or_none]
  have hself : (answers ++ [(entry.id, outcome)]).lookup entry.id = some outcome := by
    rw [List.lookup_append, hunanswered, List.lookup_cons_self, Option.none_or]
  refine { h with numbered := ?_, answered_made := ?_, entry_made := ?_, entry_open := ?_,
                  entry_unanswered := ?_, seats := ?_ }
  · simpa only [give, strike, List.length_modify] using h.numbered
  · exact List.forall_mem_append.mpr ⟨h.answered_made, by simpa using ⟨entry.owner, hmade⟩⟩
  · exact fun other hother => h.entry_made other (mem_strike.mp hother).1
  · exact fun other hother => h.entry_open other (mem_strike.mp hother).1
  · intro other hother
    obtain ⟨hpending, hne⟩ := mem_strike.mp hother
    rw [hlookup hne]
    exact h.entry_unanswered other hpending
  · intro u seat hseat
    rcases seat_given hseat with ⟨hne, hold⟩ | ⟨rfl, old, hold, rfl⟩
    · -- Another task makes its request under another id, which is answered as before.
      have hfits := h.seats u seat hold
      refine hfits.congr fun d hrequest => ?_
      obtain ⟨hrequested, hopen⟩ := hfits.request hrequest
      exact ⟨hopen, hlookup fun heq => hne (h.task_unique hmade (heq ▸ hrequested))⟩
    · rw [Seat.stage_put]
      have hfits := h.seats entry.owner old hold
      cases hstage : old.stage with
      | before supplied =>
        rw [hstage] at hfits
        exact absurd hmade (hfits.2 _)
      | making d =>
        rw [hstage] at hfits
        obtain ⟨hrequested, hopen, -⟩ := hfits
        obtain ⟨seat, hseat, hempty, -⟩ := hwaits
        cases hseat.symm.trans hold
        have hput : (old.put (.delivered outcome)).inbox = .delivered outcome := by
          simp only [Seat.put, hempty]
        rw [Stage.Fits, hput, h.id_unique hrequested hmade, hself]
        refine ⟨hmade, h.id_unique hrequested hmade ▸ hopen, fun result => ⟨?_, ?_⟩⟩
        · intro _ hresult
          cases hresult
          rfl
        · intro hresult
          cases hresult
          rfl
      | leaving d result =>
        -- The request has its outcome already, and that is no answer.
        rw [hstage] at hfits
        obtain ⟨hrequested, hopen, hanswer⟩ := hfits
        refine ⟨hrequested, hopen, fun hresult => ?_⟩
        have hsome := hanswer hresult
        rw [h.id_unique hrequested hmade, hunanswered] at hsome
        cases hsome
      | made | after => trivial

/-- What comes for tasks without being an answer keeps a ledger consistent. -/
theorem hush {next : Ledger} (hnumber : next.nextId = L.nextId)
    (hlength : next.seats.length = L.seats.length)
    (hpending : ∀ entry ∈ next.pending, entry ∈ L.pending)
    (hseats : ∀ (u : TaskId) (seat : Seat), next.seats[u]? = some seat →
      ∃ old, L.seats[u]? = some old ∧ old.Hushed seat) : next.Consistent made ended answers := by
  refine { h with numbered := ?_, entry_made := ?_, entry_open := ?_, entry_unanswered := ?_,
                  seats := ?_ }
  · rw [hnumber, hlength]
    exact h.numbered
  · exact fun entry hentry => h.entry_made entry (hpending entry hentry)
  · exact fun entry hentry => h.entry_open entry (hpending entry hentry)
  · exact fun entry hentry => h.entry_unanswered entry (hpending entry hentry)
  · intro u seat hseat
    obtain ⟨old, hold, hstage, hinbox⟩ := hseats u seat hseat
    have hfits := h.seats u old hold
    rw [hstage]
    rcases hinbox with hinbox | ⟨hempty, hother⟩
    · rw [hinbox]
      exact hfits
    · cases hold : old.stage with
      | making d =>
        -- Nothing had come before, so there was no answer, and what has come now is none.
        rw [hold, hempty] at hfits
        obtain ⟨hmade, hopen, hanswers⟩ := hfits
        refine ⟨hmade, hopen, fun outcome => ⟨?_, ?_⟩⟩
        · exact fun hanswer hdelivered => absurd hdelivered (hother outcome hanswer)
        · exact fun hanswer => nomatch (hanswers outcome).2 hanswer
      | before | leaving =>
        rw [hold] at hfits
        exact hfits
      | made | after => trivial

theorem fail (id : RequestId) (t : TaskId) (hfault : isAnswer outcome = false) :
    ((L.strike id).give t (.delivered outcome)).Consistent made ended answers := by
  refine h.hush rfl (List.length_modify ..) (fun entry hentry => (mem_strike.mp hentry).1) ?_
  intro u seat hseat
  rcases seat_given hseat with ⟨-, hold⟩ | ⟨-, old, hold, rfl⟩
  · exact ⟨seat, hold, rfl, .inl rfl⟩
  · exact ⟨old, hold, old.hushed_put hfault⟩

theorem fail_all {outcome : RequestId → Outcome} (hfault : ∀ id, isAnswer (outcome id) = false) :
    (L.resolveAll outcome).Consistent made ended answers := by
  obtain ⟨hnext, hlength, hseats⟩ := give_all_hushed hfault L.pending { L with pending := [] }
  refine h.hush hnext hlength (fun entry hentry => ?_) hseats
  rw [L.resolve_all_pending outcome] at hentry
  cases hentry

theorem alone (hmade : (t, id) ∈ made) : ∀ entry ∈ L.pending, entry.id = id → entry.owner = t := by
  rintro entry hmem rfl
  exact h.task_unique (h.entry_made entry hmem) hmade

theorem finish (hat : L.At t stage) (hrequest : stage.request? = some d)
    (hover : phase.stage.isOver = true) :
    ((L.strike d.id).setPhase t phase).Consistent made (ended ++ [(t, d.id)]) answers := by
  obtain ⟨hmade, hopen⟩ := h.request_of_at hat hrequest
  have hstill {u : TaskId} {id : RequestId} (hother : (u, id) ∉ ended) (hne : id ≠ d.id) :
      (u, id) ∉ ended ++ [(t, d.id)] := by simp [hother, hne]
  refine { h with numbered := ?_, ended_made := ?_, ended_once := ?_, entry_made := ?_,
                  entry_open := ?_, entry_unanswered := ?_, seats := ?_ }
  · simpa only [setPhase, strike, List.length_modify] using h.numbered
  · exact List.forall_mem_append.mpr ⟨h.ended_made, by simpa using hmade⟩
  · rw [List.nodup_append]
    refine ⟨h.ended_once, List.pairwise_singleton _ _, ?_⟩
    rintro request hended other hother rfl
    cases List.mem_singleton.mp hother
    exact hopen hended
  · exact fun entry hentry => h.entry_made entry (mem_strike.mp hentry).1
  · intro entry hentry
    obtain ⟨hmem, hne⟩ := mem_strike.mp hentry
    exact hstill (h.entry_open entry hmem) hne
  · exact fun entry hentry => h.entry_unanswered entry (mem_strike.mp hentry).1
  · intro u next hnext
    rcases seat_moved hnext with ⟨hne, hold⟩ | ⟨rfl, old, -, rfl⟩
    · have hfits := h.seats u next hold
      refine hfits.congr fun e hother => ?_
      obtain ⟨hotherMade, hotherOpen⟩ := hfits.request hother
      exact ⟨hstill hotherOpen fun heq => hne (h.task_unique hmade (heq ▸ hotherMade)), rfl⟩
    · change phase.stage.Fits _ _ _ _ _
      cases hstage : phase.stage with
      | made | after => trivial
      | before | making | leaving =>
        rw [hstage] at hover
        cases hover

end Consistent

/-- A ledger agrees with a whole history. -/
structure Tracks (L : Ledger) (history : List Deed) : Prop where
  orderly : L.IsOrderly
  consistent : L.Consistent (dispatches history) (endings history) (answers history)
  accepted : ∀ t id, .refused t id ∉ history
  /-- A request was settled with an answer only if that had been the answer to it before. -/
  settled : ∀ first rest t id outcome, history = first ++ .settled t id outcome :: rest →
    isAnswer outcome = true → (answers first).lookup id = some outcome

namespace Tracks

variable {L next : Ledger} {history : List Deed} {deed : Deed}

theorem quiet (h : L.Tracks history) (hquiet : L.Quiet false next) : next.Tracks history := by
  refine { h with orderly := h.orderly.quiet hquiet, consistent := ?_ }
  cases hquiet with
  | advance hseat hquiet => exact h.consistent.advance hseat hquiet
  | call hfree hstage => exact h.consistent.spawn (.inl (hfree rfl ▸ hstage))
  | spawn hstage => exact h.consistent.spawn (.inr hstage)

theorem records_concat (history : List Deed) (deed : Deed) :
    dispatches (history ++ [deed]) = dispatches history ++ deed.dispatch?.toList ∧
      endings (history ++ [deed]) = endings history ++ deed.ending?.toList ∧
      answers (history ++ [deed]) = answers history ++ deed.answer?.toList := by
  have hone {α : Type} (f : Deed → Option α) : [deed].filterMap f = (f deed).toList := by
    cases hf : f deed <;> simp [hf]
  simp only [dispatches, endings, answers, List.filterMap_append, hone, and_self]

theorem consistent_does (h : L.Tracks history) (hdoes : L.Does deed next) :
    next.Consistent (dispatches (history ++ [deed])) (endings (history ++ [deed]))
      (answers (history ++ [deed])) := by
  have hconsistent := h.consistent
  obtain ⟨hdispatches, hendings, hanswers⟩ := records_concat history deed
  rw [hdispatches, hendings, hanswers]
  cases hdoes <;> simp only [Deed.dispatch?, Deed.ending?, Deed.answer?, Option.toList_some,
    Option.toList_none, List.append_nil]
  case dispatch t supplied d phase hat hid hpending hstage =>
    cases hconsistent.supplied_eq_none hat
    exact hconsistent.dispatch hat hid hstage
  case refuse hat hid hpending hstage =>
    exact absurd (hid ▸ hpending) (hconsistent.number_not_pending hat)
  case response id outcome =>
    cases hpending : L.isPending id with
    | false =>
      rw [resolve_of_not_pending hpending]
      simpa only [Option.toList_none, List.append_nil] using hconsistent
    | true =>
      obtain ⟨entry, hentry⟩ := entry_of_pending hpending
      simp only [resolve, hentry]
      exact hconsistent.answer hentry (h.orderly.waits entry (mem_of_entry hentry).1)
  case cancel id =>
    cases hentry : L.registered? id with
    | none => simpa only [resolve, hentry] using hconsistent
    | some entry => simpa only [resolve, hentry] using hconsistent.fail id entry.owner rfl
  case fail hfault => exact hconsistent.fail_all hfault
  case settle t d outcome phase hat hstage =>
    obtain ⟨hmade, -⟩ := hconsistent.request_of_at hat rfl
    rw [unregister_alone (hconsistent.alone hmade)]
    exact hconsistent.finish hat rfl (hstage ▸ rfl)
  case drop t d phase hat hstage =>
    obtain ⟨hmade, -⟩ := hconsistent.request_of_at hat rfl
    -- A dropped call is over before it gives up its place.
    have hquiet (seat : Seat) : seat.Quiet phase.stage := hstage ▸ .rest
    have hmoved : (L.setPhase t phase).Consistent _ _ _ :=
      hat.elim fun seat hseat => hconsistent.advance hseat.1 (hquiet seat)
    rw [unregister_alone (hmoved.alone hmade)]
    exact hconsistent.finish hat rfl (hstage ▸ rfl)

theorem last_or_earlier {first rest : List Deed} {last : Deed}
    (h : history ++ [last] = first ++ deed :: rest) :
    first = history ∧ deed = last ∨ ∃ earlier, history = first ++ deed :: earlier := by
  rcases List.eq_nil_or_concat rest with rfl | ⟨earlier, final, rfl⟩
  · obtain ⟨hhistory, hlast⟩ := List.append_inj' h rfl
    cases hlast
    exact .inl ⟨hhistory.symm, rfl⟩
  · rw [List.concat_eq_append, ← List.cons_append, ← List.append_assoc] at h
    obtain ⟨hhistory, -⟩ := List.append_inj' h rfl
    exact .inr ⟨earlier, hhistory⟩

theorem does (h : L.Tracks history) (hdoes : L.Does deed next) :
    next.Tracks (history ++ [deed]) := by
  refine ⟨h.orderly.does hdoes, h.consistent_does hdoes, ?_, ?_⟩
  · intro t id hmem
    rcases List.mem_append.mp hmem with hold | hnew
    · exact h.accepted t id hold
    · cases List.mem_singleton.mp hnew
      cases hdoes with
      | refuse hat hid hpending hstage =>
        exact h.consistent.number_not_pending hat (hid ▸ hpending)
  · intro first rest t id outcome hsplit hanswer
    rcases last_or_earlier hsplit with ⟨rfl, rfl⟩ | ⟨earlier, hearlier⟩
    · -- The last deed settles a request, whose task left with an outcome that fits the answers.
      cases hdoes with
      | settle hat hstage =>
        obtain ⟨seat, hseat, hleaving⟩ := hat
        have hfits := h.consistent.seats t seat hseat
        rw [hleaving] at hfits
        exact hfits.2.2 hanswer
    · exact h.settled first earlier t id outcome hearlier hanswer

theorem moves {deeds : List Deed} (h : L.Tracks history) (hmoves : L.Moves false deeds next) :
    next.Tracks (history ++ deeds) := by
  induction hmoves generalizing history with
  | done =>
    rw [List.append_nil]
    exact h
  | quiet hquiet _ ih => exact ih (h.quiet hquiet)
  | does hdoes _ ih =>
    rw [List.append_cons]
    exact ih (h.does hdoes)

end Tracks

end Ledger

namespace Machine

theorem unused_tracks (setup : Setup) : (unused setup).ledger.Tracks [] where
  orderly := unused_orderly ..
  consistent := {
    numbered := fun _ _ hmade => absurd hmade List.not_mem_nil
    distinct := .nil
    ended_made := List.forall_mem_nil _
    ended_once := .nil
    answered_made := List.forall_mem_nil _
    entry_made := List.forall_mem_nil _
    entry_open := List.forall_mem_nil _
    entry_unanswered := List.forall_mem_nil _
    seats := fun t seat hseat => by cases List.getElem?_nil.symm.trans hseat }
  accepted _ _ := List.not_mem_nil
  settled first rest _ _ _ hsplit :=
    absurd hsplit.symm (List.append_ne_nil_of_right_ne_nil first (List.cons_ne_nil _ rest))

/-- The ledger of a client whose callers supply no ids tracks the history of every run. -/
theorem run_tracks (setup : Setup) (occurrences : List Occurrence)
    (hids : ∀ occurrence ∈ occurrences, occurrence.suppliedId? = none) :
    ((unused setup).run occurrences).ledger.Tracks
      ((unused setup).history occurrences) := by
  have hmoves := run_moves false (unused setup) occurrences
    fun _ => hids
  have htracks := (unused_tracks setup).moves hmoves
  rwa [List.nil_append] at htracks

end Machine

end CodeAtlas.Client
