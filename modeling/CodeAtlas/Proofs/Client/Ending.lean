import CodeAtlas.Proofs.Client.Consistency

/-!
# What the end of a request does to other requests

A request that ends gives up its place in the table by its id. If the id was freed before, by a
response or a cancellation, a caller may have registered another request under it, and then the
other request loses its place. `undisturbed_iff` says that this is the only way in which requests
disturb each other: the end of a request leaves all others alone, and entries leave the table only
by what concerns them, exactly if the request that ends is the only one under its id. Where callers
supply no ids that is always so (`run_undisturbed`).
-/

namespace CodeAtlas.Client

open Json (Value)
open Rpc (Message RequestId)

/-- Whether a deed is done to a request by the task that makes it, or by dropping that task. -/
def Deed.isOwn : Deed → Bool
  | .dispatched _ _ => true
  | .refused _ _ => true
  | .settled _ _ _ => true
  | .dropped _ _ => true
  | _ => false

/-- Whether a deed can take the entries of an id out of the table. -/
def Deed.Strikes (id : RequestId) : Deed → Prop
  | .response other _ _ => other = id
  | .cancelled other => other = id
  | .failed => True
  | .settled _ other _ => other = id
  | .dropped _ other => other = id
  | _ => False

/-- Whether a deed ends the wait for an entry: a response or a cancellation under its id, the
failure of all requests, or the end of the very request that the entry stands for. -/
def Deed.Frees (entry : Pending) : Deed → Prop
  | .response id _ _ => id = entry.id
  | .cancelled id => id = entry.id
  | .failed => True
  | .settled t id _ => (t, id) = (entry.owner, entry.id)
  | .dropped t id => (t, id) = (entry.owner, entry.id)
  | _ => False

variable {deed : Deed}

namespace Ledger

variable {free : Bool} {L next : Ledger} {t : TaskId} {id : RequestId} {entry : Pending}

theorem Does.strikes (h : L.Does deed next) (hentry : entry ∈ L.pending)
    (hgone : entry ∉ next.pending) : deed.Strikes entry.id := by
  have hstruck {other : RequestId} (hnot : entry ∉ (L.strike other).pending) :
      other = entry.id := by
    by_cases heq : entry.id = other
    · exact heq.symm
    · exact absurd (mem_strike.mpr ⟨hentry, heq⟩) hnot
  cases h with
  | @dispatch t supplied =>
    rw [← L.number_pending supplied] at hentry
    exact absurd (List.mem_append_left _ hentry) hgone
  | @refuse t supplied => exact absurd (L.number_pending supplied ▸ hentry) hgone
  | response | cancel =>
    rw [resolve_pending] at hgone
    exact hstruck hgone
  | fail hfault => trivial
  | @settle t d outcome phase hat hstage =>
    change entry ∉ (L.unregister t d.id).pending at hgone
    rw [unregister_pending] at hgone
    exact hstruck hgone
  | @drop t d phase hat hstage =>
    rw [unregister_pending] at hgone
    exact hstruck hgone

variable {deeds : List Deed} {u : TaskId}

theorem Moves.strikes (h : L.Moves free deeds next) (hentry : entry ∈ L.pending)
    (hgone : entry ∉ next.pending) : ∃ deed ∈ deeds, deed.Strikes entry.id := by
  induction h with
  | done => exact absurd hentry hgone
  | quiet hquiet _ ih =>
    refine ih ?_ hgone
    cases hquiet <;> exact hentry
  | @does L middle last deed deeds hdoes _ ih =>
    by_cases hmiddle : entry ∈ middle.pending
    · obtain ⟨later, hlater, hstrikes⟩ := ih hmiddle hgone
      exact ⟨later, .tail _ hlater, hstrikes⟩
    · exact ⟨deed, .head _, hdoes.strikes hentry hmiddle⟩

/-- The request of a task under an id ends: it gives up its place and goes on, or it is dropped and
gives up its place. -/
inductive Ends (L : Ledger) (t : TaskId) (id : RequestId) : Ledger → Prop where
  | leave (phase : Phase) : Ends L t id ((L.unregister t id).setPhase t phase)
  | drop (phase : Phase) : Ends L t id ((L.setPhase t phase).unregister t id)

theorem Ends.pending (h : L.Ends t id next) : next.pending = (L.strike id).pending := by
  cases h with
  | leave phase => exact unregister_pending L t id
  | drop phase => exact unregister_pending (L.setPhase t phase) t id

/-- Nothing comes for other tasks if a request that ends is the only one under its id. -/
theorem Ends.seats (h : L.Ends t id next)
    (halone : ∀ entry ∈ L.pending, entry.id = id → entry.owner = t) (hu : u ≠ t) :
    next.seats[u]? = L.seats[u]? := by
  have hsame (phase : Phase) :
      (L.seats[u]?).map (fun seat => if t = u then { seat with phase } else seat) = L.seats[u]? := by
    simp only [if_neg hu.symm, Option.map_id_fun', id_eq]
  cases h with
  | leave phase =>
    rw [unregister_alone halone, seat_set_phase]
    exact hsame phase
  | drop phase =>
    have hstrike : (L.setPhase t phase).unregister t id = (L.setPhase t phase).strike id :=
      unregister_alone halone
    rw [hstrike]
    exact (seat_set_phase L t u phase).trans (hsame phase)

/-- A turn ends a request only if it is the task's own, which then gives up its place. -/
theorem Turn.ends (h : L.Turn free t deeds next)
    (hmem : (u, id) ∈ endings ((L.stageOf t).deeds t (next.stageOf t))) :
    u = t ∧ L.Ends t id next ∧
      ∃ stage d, L.At t stage ∧ stage.request? = some d ∧ d.id = id := by
  cases h with
  | idle =>
    rw [Stage.deeds_self] at hmem
    cases hmem
  | @advance _ middle seat phase hmoves hat hseat hquiet =>
    have hmiddle : middle.At t seat.stage := ⟨seat, hseat, rfl⟩
    rw [hat.stage_of, (hmiddle.set_phase phase).stage_of, hquiet.deeds_eq] at hmem
    cases hmem
  | @request deed middle _ supplied stage hmoves hat hdoes hlast hdeeds =>
    rw [hat.stage_of, hlast.stage_of] at hmem
    cases stage <;> cases hmem
  | @settle d outcome phase hat hstage =>
    rw [hat.stage_of, ((hat.unregister t d.id).set_phase phase).stage_of, hstage] at hmem
    cases List.mem_singleton.mp hmem
    exact ⟨rfl, .leave phase, _, d, hat, rfl, rfl⟩

theorem Drop.ends (h : L.Drop t deeds next) (hmem : (u, id) ∈ endings deeds) :
    u = t ∧ L.Ends t id next ∧
      ∃ stage d, L.At t stage ∧ stage.request? = some d ∧ d.id = id := by
  cases h with
  | idle | call => cases hmem
  | @request d hat =>
    cases List.mem_singleton.mp hmem
    exact ⟨rfl, .drop _, _, d, hat, rfl, rfl⟩

end Ledger

namespace Machine

variable {m : Machine} {t : TaskId} {id : RequestId} {occurrence : Occurrence}

theorem not_own_of_frames (m : Machine) (frames : List (Except Wire.FrameError Value)) :
    ∀ deed ∈ m.deedsOfFrames frames, deed.isOwn = false := by
  fun_induction deedsOfFrames with
  | case1 => exact List.forall_mem_nil _
  | case2 m frame rest ih =>
    refine List.forall_mem_append.mpr ⟨?_, ih⟩
    fun_cases m.deedsOfFrame frame <;> simp [Deed.isOwn]

theorem not_own_of_turn (m : Machine) (t : TaskId) :
    ∀ deed ∈ m.deedsOfTurn t, deed.isOwn = false := by
  fun_cases deedsOfTurn with
  | case3 task =>
    fun_cases m.deedsOfPhase task.phase with
    | case5 c buffer =>
      fun_cases m.deedsOfReading c buffer with
      | case2 => exact not_own_of_frames _ _
      | _ => simp [Deed.isOwn]
    | _ => simp [Deed.isOwn]
  | _ => exact List.forall_mem_nil _

/-- What is done to the request of a task is done by a turn of it, and shows in its stages, or by
dropping it. -/
theorem own_cases (h : deed ∈ m.deeds occurrence) (hown : deed.isOwn = true) :
    (∃ u, occurrence = .turn u ∧
      deed ∈ (m.stageOf u).deeds u ((m.perform (.turn u)).stageOf u)) ∨
    ∃ u id, deed = .dropped u id := by
  revert h
  fun_cases m.deeds occurrence with
  | case1 u =>
    refine fun h => .inl ⟨u, rfl, (List.mem_append.mp h).resolve_left fun hothers => ?_⟩
    cases hown.symm.trans (not_own_of_turn m u deed hothers)
  | case2 u d => exact fun h => .inr ⟨u, d.id, List.mem_singleton.mp h⟩
  | _ => nofun

theorem endings_of_turn (m : Machine) (t : TaskId) : endings (m.deedsOfTurn t) = [] := by
  rw [endings, List.filterMap_eq_nil_iff]
  intro deed hdeed
  have hother := not_own_of_turn m t deed hdeed
  cases deed with
  | settled | dropped => cases hother
  | dispatched | refused | response | cancelled | failed => rfl

/-- A request that ends gives up its place in the ledger, and was being made until then. -/
theorem perform_ends (h : (t, id) ∈ endings (m.deeds occurrence)) :
    m.ledger.Ends t id (m.perform occurrence).ledger ∧
      ∃ stage d, m.ledger.At t stage ∧ stage.request? = some d ∧ d.id = id := by
  cases occurrence with
  | turn u =>
    have hturn := perform_turn true m u
    rw [deeds, endings, List.filterMap_append, ← endings, ← endings, endings_of_turn,
      List.nil_append, stage_of_ledger, stage_of_ledger] at h
    obtain ⟨rfl, hends⟩ := hturn.ends h
    exact hends
  | drop u =>
    obtain ⟨rfl, hends⟩ := (perform_drop m u).ends h
    exact hends
  | _ => cases h

/-- The end of a request of a task leaves the entries of all other tasks in the table, and what
these tasks do next and what has come for them as they are. -/
structure SparesOthers (m next : Machine) (t : TaskId) : Prop where
  entries : ∀ entry ∈ m.pending, entry.owner ≠ t → entry ∈ next.pending
  waiters : ∀ u, u ≠ t → (next.tasks[u]?).map Task.seat = (m.tasks[u]?).map Task.seat

/-- No request is disturbed by the end of another one, and entries leave the table only by what
concerns them. -/
structure Undisturbed (m : Machine) (occurrence : Occurrence) : Prop where
  spares : ∀ t id, (t, id) ∈ endings (m.deeds occurrence) →
    m.SparesOthers (m.perform occurrence) t
  causes : ∀ entry ∈ m.pending, entry ∉ (m.perform occurrence).pending →
    ∃ deed ∈ m.deeds occurrence, deed.Frees entry

/-- A request that ends is the only one under its id. -/
def EndsAlone (m : Machine) (occurrence : Occurrence) : Prop :=
  ∀ t id, (t, id) ∈ endings (m.deeds occurrence) →
    ∀ entry ∈ m.pending, entry.id = id → entry.owner = t

theorem EndsAlone.undisturbed (h : m.EndsAlone occurrence) : m.Undisturbed occurrence := by
  constructor
  · intro t id hends
    obtain ⟨hledger, -⟩ := perform_ends hends
    have halone := h t id hends
    refine ⟨fun entry hentry howner => ?_, fun u hu => ?_⟩
    · have hkept : entry ∈ (m.perform occurrence).ledger.pending := by
        rw [hledger.pending]
        exact Ledger.mem_strike.mpr ⟨hentry, fun hid => howner (halone entry hentry hid)⟩
      exact hkept
    · have hseats := hledger.seats halone hu
      simpa only [ledger, List.getElem?_map] using hseats
  · intro entry hentry hgone
    have hmoves := perform_moves true m occurrence (fun h => Bool.noConfusion h)
    obtain ⟨deed, hdeed, hstrikes⟩ := hmoves.strikes hentry hgone
    -- An ending under the id of the entry is the ending of the entry's own request.
    have hown {t : TaskId} {id : RequestId} (hending : deed.ending? = some (t, id))
        (hid : id = entry.id) : (t, id) = (entry.owner, entry.id) := by
      have hends := List.mem_filterMap.mpr ⟨deed, hdeed, hending⟩
      rw [h t id hends entry hentry hid.symm, hid]
    refine ⟨deed, hdeed, ?_⟩
    cases deed with
    | response | cancelled => exact hstrikes
    | failed => trivial
    | settled | dropped => exact hown rfl hstrikes
    | dispatched | refused => cases hstrikes

/-- Whatever state a client is in and whatever happens next, requests are undisturbed exactly if a
request that ends is the only one under its id. -/
theorem undisturbed_iff (m : Machine) (occurrence : Occurrence) :
    m.Undisturbed occurrence ↔ m.EndsAlone occurrence := by
  refine ⟨fun h t id hends entry hentry hid => ?_, EndsAlone.undisturbed⟩
  obtain ⟨hledger, -⟩ := perform_ends hends
  -- No entry under the id is left, so the entry of another task would have been lost.
  by_cases howner : entry.owner = t
  · exact howner
  · have hkept : entry ∈ (m.perform occurrence).ledger.pending :=
      (h.spares t id hends).entries entry hentry howner
    rw [hledger.pending] at hkept
    exact absurd hid (Ledger.mem_strike.mp hkept).2

/-- A request under an id is cancelled before it is sent, another one is made under the same id, and
the first one finds its outcome. -/
def reusedId : List Occurrence :=
  handshake ++
    [.setMode 0 .stall, .call (.request "first" none (some (.number 7)) none), .turn 2, .turn 2,
      .turn 2, .turn 2, .call (.cancel (.number 7)), .turn 3,
      .call (.request "second" none (some (.number 7)) none), .turn 4, .turn 4,
      .setMode 0 .accept, .turn 2, .turn 2, .turn 2]

/-- The end of a cancelled request takes the place of another request that reuses its id. -/
theorem reused_id_disturbed :
    (sampleClient.run reusedId).pending = [⟨.number 7, 4⟩] ∧
      endings ((sampleClient.run reusedId).deeds (.turn 2)) = [(2, .number 7)] ∧
      ((sampleClient.run reusedId).perform (.turn 2)).pending = [] ∧
      ¬ (sampleClient.run reusedId).Undisturbed (.turn 2) := by
  have hpending : (sampleClient.run reusedId).pending = [⟨.number 7, 4⟩] := by decide +kernel
  have hends : endings ((sampleClient.run reusedId).deeds (.turn 2)) = [(2, .number 7)] := by
    decide +kernel
  have hgone : ((sampleClient.run reusedId).perform (.turn 2)).pending = [] := by decide +kernel
  refine ⟨hpending, hends, hgone, fun h => ?_⟩
  have hspares := h.spares 2 (.number 7) (hends ▸ .head [])
  have hkept := hspares.entries ⟨.number 7, 4⟩ (hpending ▸ .head []) (by decide)
  rw [hgone] at hkept
  cases hkept

/-- In every run of a client whose callers supply no ids, no request is ever disturbed, as long as
fewer than `2 ^ 63` numbers are taken. -/
theorem run_undisturbed (setup : Setup) (occurrences : List Occurrence)
    (hids : ∀ occurrence ∈ occurrences, occurrence.suppliedId? = none) (next : Occurrence) :
    ((unused setup).run occurrences).Undisturbed next := by
  have htracks := run_tracks setup occurrences hids
  refine EndsAlone.undisturbed fun t id hends => ?_
  obtain ⟨-, stage, d, hat, hrequest, rfl⟩ := perform_ends hends
  exact htracks.consistent.alone (htracks.consistent.request_of_at hat hrequest).1

end Machine

end CodeAtlas.Client
