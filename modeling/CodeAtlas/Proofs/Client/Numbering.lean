import CodeAtlas.Proofs.Client.Stopping

/-!
# The numbers of requests

A request for which no id was supplied is made under the next number of the client, which may be
pending already. The request is refused exactly if it is, and it can be pending only if a caller has
supplied it before it was given out (`unsupplied_refused_iff`). So nothing is refused where callers
supply texts, or numbers that the client has given out. The request of a handshake is refused only
for one of a call that was overtaken, as nothing else is pending when it is made.

`Turn.unsupplied` says what a turn of a task does that has no id of its own, and
`IsForeseen.perform` where the numbers come from that are pending and have not been given out.
-/

namespace CodeAtlas.Client

open Rpc (Message RequestId)

variable {deed : Deed}

theorem Stage.of_before_deed {supplied : Option RequestId} {next : Stage} {t : TaskId}
    (h : deed ∈ (Stage.before supplied).deeds t next) :
    ∃ id, deed = .dispatched t id ∨ deed = .refused t id := by
  unfold Stage.deeds at h
  split at h
  · next d _ =>
    exact ⟨d.id, .inr (List.mem_singleton.mp h)⟩
  · split at h
    · next d _ =>
      exact ⟨d.id, .inl (List.mem_singleton.mp h)⟩
    · cases h

namespace Ledger

variable {free : Bool} {L next : Ledger} {t : TaskId} {deeds : List Deed}

theorem give_all_next_id (outcome : RequestId → Outcome) (entries : List Pending) (L : Ledger) :
    (L.giveAll outcome entries).nextId = L.nextId := by
  induction entries generalizing L with
  | nil => rfl
  | cons entry rest ih => exact ih _

theorem resolve_next_id (L : Ledger) (id : RequestId) (outcome : Outcome) :
    (L.resolve id outcome).nextId = L.nextId := by
  unfold resolve
  split <;> rfl

theorem unregister_next_id (L : Ledger) (t : TaskId) (id : RequestId) :
    (L.unregister t id).nextId = L.nextId := by
  unfold unregister
  split
  · rfl
  · split <;> rfl

theorem Does.next_id_eq (h : L.Does deed next) (hother : deed.isOwn = false) :
    next.nextId = L.nextId := by
  cases h with
  | response id outcome => exact resolve_next_id L id outcome
  | cancel id => exact resolve_next_id L id _
  | fail => exact give_all_next_id _ _ _
  | dispatch | refuse | settle | drop => cases hother

theorem Does.next_id_le (h : L.Does deed next) : L.nextId ≤ next.nextId := by
  have hnumber (supplied : Option RequestId) : L.nextId ≤ (L.number supplied).2.nextId := by
    cases supplied with
    | none =>
      show L.nextId ≤ L.nextId + 1
      omega
    | some => exact Int.le_refl _
  cases h with
  | dispatch | refuse => exact hnumber _
  | response id outcome => exact Int.le_of_eq (resolve_next_id L id outcome).symm
  | cancel id => exact Int.le_of_eq (resolve_next_id L id _).symm
  | fail => exact Int.le_of_eq (give_all_next_id _ _ { L with pending := [] }).symm
  | settle => exact Int.le_of_eq (unregister_next_id L _ _).symm
  | drop => exact Int.le_of_eq (unregister_next_id (L.setPhase _ _) _ _).symm

theorem Quiet.next_id_eq (h : L.Quiet free next) : next.nextId = L.nextId := by
  cases h <;> rfl

/-- A task without an id of its own gets none by quiet changes. -/
theorem Quiet.unsupplied (h : L.Quiet free next) {stage : Stage} (hat : L.At t stage)
    (hnone : ∀ id, stage ≠ .before (some id)) :
    ∃ later, next.At t later ∧ ∀ id, later ≠ .before (some id) := by
  cases h with
  | @advance u seat phase hseat hquiet =>
    by_cases htu : u = t
    · subst htu
      refine ⟨phase.stage, hat.set_phase phase, fun id hid => ?_⟩
      obtain ⟨old, hold, rfl⟩ := hat
      cases hseat.symm.trans hold
      rw [hid] at hquiet
      cases hquiet with
      | wait hstage => exact hnone id hstage
    · obtain ⟨old, hold, rfl⟩ := hat
      refine ⟨old.stage, ⟨old, ?_, rfl⟩, hnone⟩
      rw [seat_set_phase, hold, Option.map_some, if_neg htu]
  | call | spawn => exact ⟨stage, hat.spawn _, hnone⟩

namespace Moves

variable (h : L.Moves free deeds next)

include h

theorem next_id_eq (hothers : ∀ deed ∈ deeds, deed.isOwn = false) : next.nextId = L.nextId := by
  induction h with
  | done => rfl
  | quiet hquiet _ ih => exact (ih hothers).trans hquiet.next_id_eq
  | does hdoes _ ih =>
    have hrest := ih fun deed hdeed => hothers deed (.tail _ hdeed)
    exact hrest.trans (hdoes.next_id_eq (hothers _ (.head _)))

theorem next_id_le : L.nextId ≤ next.nextId := by
  induction h with
  | done => exact Int.le_refl _
  | quiet hquiet _ ih => exact hquiet.next_id_eq ▸ ih
  | does hdoes _ ih => exact Int.le_trans hdoes.next_id_le ih

theorem pending_eq (hnone : deeds = []) : next.pending = L.pending := by
  induction h with
  | done => rfl
  | quiet hquiet _ ih =>
    rw [ih hnone]
    cases hquiet <;> rfl
  | does => cases hnone

theorem unsupplied (hquiet : deeds = []) {stage : Stage} (hat : L.At t stage)
    (hnone : ∀ id, stage ≠ .before (some id)) :
    ∃ later, next.At t later ∧ ∀ id, later ≠ .before (some id) := by
  induction h generalizing stage with
  | done => exact ⟨stage, hat, hnone⟩
  | quiet hfirst _ ih =>
    obtain ⟨later, hlater, hstill⟩ := hfirst.unsupplied hat hnone
    exact ih hquiet hlater hstill
  | does => cases hquiet

end Moves

theorem At.unique {first second : Stage} (hfirst : L.At t first) (hsecond : L.At t second) :
    first = second :=
  hfirst.stage_of.symm.trans hsecond.stage_of

/-- What becomes of a request under the next number. -/
def nextDeed (L : Ledger) (t : TaskId) : Deed :=
  if L.isPending (.number L.nextId) then .refused t (.number L.nextId)
  else .dispatched t (.number L.nextId)

theorem refused_eq_next_deed {id : RequestId} :
    .refused t id = L.nextDeed t ↔ id = .number L.nextId ∧ L.isPending id = true := by
  unfold nextDeed
  grind

theorem dispatched_eq_next_deed {id : RequestId} :
    .dispatched t id = L.nextDeed t ↔ id = .number L.nextId ∧ L.isPending id = false := by
  unfold nextDeed
  grind

/-- A turn of a task that has no id of its own: it makes no request, or it takes the next number and
makes a request under it, which is refused exactly if that number is pending. -/
theorem Turn.unsupplied (h : L.Turn free t deeds next)
    (hothers : ∀ deed ∈ deeds, deed.isOwn = false) (hat : L.At t (.before none)) :
    next.nextId = L.nextId ∧ (L.stageOf t).deeds t (next.stageOf t) = [] ∨
      next.nextId = L.nextId + 1 ∧ (L.stageOf t).deeds t (next.stageOf t) = [L.nextDeed t] := by
  cases h with
  | idle => exact .inl ⟨rfl, Stage.deeds_self _ t⟩
  | @advance _ middle seat phase hmoves hold hseat hquiet =>
    have hmiddle : middle.At t seat.stage := ⟨seat, hseat, rfl⟩
    refine .inl ⟨hmoves.next_id_eq hothers, ?_⟩
    rw [hold.stage_of, (hmiddle.set_phase phase).stage_of, hquiet.deeds_eq]
  | @request deed middle _ supplied stage hmoves hold hdoes hlast hdeeds =>
    cases hat.unique hold
    have hnumber : middle.nextId = L.nextId := hmoves.next_id_eq (List.forall_mem_nil _)
    have hpending : middle.isPending = L.isPending := by
      funext id
      rw [isPending, isPending, hmoves.pending_eq rfl]
    have hunsupplied {other : Option RequestId} (hbefore : middle.At t (.before other)) :
        other = none := by
      obtain ⟨later, hlater, hnone⟩ := hmoves.unsupplied rfl hat (by intro id hid; cases hid)
      cases other with
      | none => rfl
      | some id => exact absurd (hlater.unique hbefore) (hnone id)
    rw [hat.stage_of, hlast.stage_of, hdeeds, nextDeed, ← hnumber, ← hpending]
    -- The deed that shows is the one that is done.
    obtain ⟨id, hdeed⟩ := Stage.of_before_deed (hdeeds ▸ List.mem_singleton_self deed)
    cases hdoes with
    | @dispatch u other d phase hbefore hid hfree hstage =>
      rcases hdeed with hdeed | hdeed <;> cases hdeed
      cases hunsupplied hbefore
      change d.id = .number middle.nextId at hid
      rw [hid] at hfree
      exact .inr ⟨rfl, by rw [if_neg (Bool.eq_false_iff.mp hfree), hid]⟩
    | @refuse u other d phase hbefore hid htaken hstage =>
      rcases hdeed with hdeed | hdeed <;> cases hdeed
      cases hunsupplied hbefore
      change d.id = .number middle.nextId at hid
      rw [hid] at htaken
      exact .inr ⟨rfl, by rw [if_pos htaken, hid]⟩
    | response | cancel | fail | settle | drop => rcases hdeed with hdeed | hdeed <;> cases hdeed
  | settle hold => cases hat.unique hold

end Ledger

namespace Machine

variable {m : Machine} {t : TaskId} {id : RequestId}

/-- Whether a turn of a task takes the next number of the client. -/
def TakesNumber (m : Machine) (t : TaskId) : Prop :=
  (m.perform (.turn t)).nextId = m.nextId + 1

/-- What a turn does to the request of its own task shows in the stages of the task. -/
theorem mem_deeds_of_own (hown : deed.isOwn = true) :
    deed ∈ m.deeds (.turn t) ↔
      deed ∈ (m.stageOf t).deeds t ((m.perform (.turn t)).stageOf t) := by
  rw [deeds, List.mem_append]
  refine or_iff_right fun hothers => ?_
  cases hown.symm.trans (not_own_of_turn m t deed hothers)

/-- A turn of a task for which no id was supplied makes a request, or is refused one, exactly if it
takes the next number. -/
theorem mem_deeds_unsupplied (h : m.stageOf t = .before none) (hown : deed.isOwn = true) :
    deed ∈ m.deeds (.turn t) ↔ m.TakesNumber t ∧ deed = m.ledger.nextDeed t := by
  obtain ⟨task, htask, hstage⟩ := task_of_stage (t := t) (by rw [h]; intro hafter; cases hafter)
  have hat := ledger_at htask
  rw [← hstage, h] at hat
  have hturn := (perform_turn true m t).unsupplied (not_own_of_turn m t) hat
  rw [← stage_of_ledger, ← stage_of_ledger] at hturn
  rw [mem_deeds_of_own hown]
  rcases hturn with ⟨hsame, hdeeds⟩ | ⟨htakes, hdeeds⟩
  · rw [hdeeds]
    refine ⟨fun hmem => (by cases hmem), fun ⟨htakes, _⟩ => ?_⟩
    have hgrows : m.nextId = m.nextId + 1 := hsame.symm.trans htakes
    omega
  · rw [hdeeds, List.mem_singleton]
    exact ⟨fun heq => ⟨htakes, heq⟩, fun hboth => hboth.2⟩

/-- A request for which no id was supplied is refused exactly if the next number is pending. -/
theorem refused_iff (h : m.stageOf t = .before none) :
    .refused t id ∈ m.deeds (.turn t) ↔
      m.TakesNumber t ∧ id = .number m.nextId ∧ m.isPending id = true := by
  rw [mem_deeds_unsupplied h rfl, Ledger.refused_eq_next_deed]
  rfl

/-- A request for which no id was supplied is made under the next number unless that is pending. -/
theorem dispatched_iff (h : m.stageOf t = .before none) :
    .dispatched t id ∈ m.deeds (.turn t) ↔
      m.TakesNumber t ∧ id = .number m.nextId ∧ m.isPending id = false := by
  rw [mem_deeds_unsupplied h rfl, Ledger.dispatched_eq_next_deed]
  rfl

/-- A request for which an id was supplied is made under that id. -/
theorem supplied_of_dispatched (htidy : m.view.IsTidy) {other : RequestId}
    (h : m.stageOf t = .before (some id)) (hmem : .dispatched t other ∈ m.deeds (.turn t)) :
    other = id := by
  obtain ⟨-, old, message, d, rfl, hold, hregisters, -⟩ := registers_of_dispatched htidy hmem
  have hbefore := h.symm.trans (stage_of_phase hold)
  cases hregisters with
  | traffic hsupplied => exact hsupplied id (Stage.before.inj hbefore).symm
  | part | greet => cases hbefore

/-! ## Numbers that callers supply -/

/-- The number under which a turn makes a request, if it was supplied and the client has not given
it out yet. -/
def guess? (m : Machine) : Occurrence → Option Int
  | .turn t =>
    match m.stageOf t with
    | .before (some (.number n)) => if m.nextId ≤ n then some n else none
    | _ => none
  | _ => none

/-- The numbers that callers supplied in a run before the client gave them out. -/
def guesses (m : Machine) : List Occurrence → List Int
  | [] => []
  | occurrence :: rest => (m.guess? occurrence).toList ++ (m.perform occurrence).guesses rest

/-- Every number that is pending and has not been given out is among those that callers supplied. -/
def IsForeseen (m : Machine) (guesses : List Int) : Prop :=
  ∀ n, m.nextId ≤ n → m.isPending (.number n) = true → n ∈ guesses

variable {guesses : List Int}

/-- Whatever happens, a number that is pending and has not been given out was supplied. -/
theorem IsForeseen.perform (h : m.IsForeseen guesses) (htidy : m.view.IsTidy)
    (occurrence : Occurrence) :
    (m.perform occurrence).IsForeseen (guesses ++ (m.guess? occurrence).toList) := by
  intro n hle hpending
  have hmoves := perform_moves true m occurrence (by intro hfree; cases hfree)
  have hbefore : m.nextId ≤ n := Int.le_trans hmoves.next_id_le hle
  obtain ⟨⟨_, owner⟩, hentry, hid⟩ := List.any_eq_true.mp hpending
  cases eq_of_beq hid
  rcases hmoves.added hentry with hold | hnew
  · exact List.mem_append_left _ (h n hbefore (List.any_eq_true.mpr ⟨_, hold, hid⟩))
  · refine List.mem_append_right _ ?_
    obtain ⟨supplied, hstage⟩ := before_of_dispatched hnew
    obtain ⟨rfl, -⟩ := own_of_dispatched hnew
    cases supplied with
    | none =>
      -- The number has just been given out.
      obtain ⟨htakes, hnumber, -⟩ := (dispatched_iff hstage).mp hnew
      have hgiven : (m.perform (.turn owner)).nextId = m.nextId + 1 := htakes
      have hn : n = m.nextId := RequestId.number.inj hnumber
      change (m.perform (.turn owner)).nextId ≤ n at hle
      omega
    | some id =>
      cases supplied_of_dispatched htidy hstage hnew
      rw [guess?, hstage]
      dsimp only
      rw [if_pos hbefore]
      exact List.mem_singleton_self n

theorem run_foreseen (h : m.IsForeseen guesses) (hm : m.IsRegular) (occurrences : List Occurrence) :
    (m.run occurrences).IsForeseen (guesses ++ m.guesses occurrences) := by
  induction occurrences generalizing m guesses with
  | nil =>
    rw [Machine.guesses, List.append_nil]
    exact h
  | cons occurrence rest ih =>
    have hrest := ih (h.perform hm.tidy occurrence) (hm.perform occurrence)
    rw [Machine.guesses, ← List.append_assoc]
    exact hrest

/-! ## Handshakes -/

/-- A handshake is refused only for a request of a late call. -/
theorem late_of_handshake_refused {late : List TaskId} (hidle : m.IsIdle late)
    (htidy : m.view.IsTidy) {task : Task} {c : ConnectionId} (htask : m.tasks[t]? = some task)
    (hphase : task.phase = .opened c) (hmem : .refused t id ∈ m.deeds (.turn t)) :
    ∃ entry ∈ m.pending, entry.id = id ∧ entry.owner ∈ late := by
  have haborted := not_aborted htidy htask (by rw [hphase]; rfl)
  obtain ⟨phase, inbox, isQueued, isAborted, joiner⟩ := task
  cases hphase
  cases haborted
  have hstage : m.stageOf t = .before none := by
    rw [stageOf, htask]
    rfl
  obtain ⟨htakes, -, hpending⟩ := (refused_iff hstage).mp hmem
  have hnext : m.perform (.turn t) = m.shakeHands t c := by
    rw [perform, step, htask]
    rfl
  by_cases hstate : m.state = .connecting
  · obtain ⟨entry, hentry, hid⟩ := List.any_eq_true.mp hpending
    exact ⟨entry, hentry, eq_of_beq hid, hidle (by rw [hstate]; rfl) entry hentry⟩
  · -- In any other state the startup fails before it takes a number.
    have hrefused : m.transition .connected = .error (.invalidTransition m.state .connected) :=
      if_neg (by cases hother : m.state <;> simp_all [State.canBecome])
    have hsame : (m.shakeHands t c).ledger.nextId = m.ledger.nextId := by
      simp only [shakeHands, hrefused]
      rw [ledger_fail_startup]
      rfl
    have hgrows : m.nextId = m.nextId + 1 := by
      rw [TakesNumber, hnext] at htakes
      exact hsame.symm.trans htakes
    omega

section

variable (setup : Setup)

/-- After any run, a request for which no id was supplied takes the next number, and is refused if
that number is pending and made under it if not. A number that has not been given out is pending
only if a caller supplied it. So nothing is refused if callers supply no such numbers. A handshake
is refused only for a request of a call that was overtaken, and not at all if every call goes on as
soon as it is admitted. Runs take fewer than `2 ^ 63` numbers. -/
theorem unsupplied_refused_iff (occurrences : List Occurrence) :
    let client := unused setup
    let m := client.run occurrences
    (∀ t id, m.stageOf t = .before none →
      (.refused t id ∈ m.deeds (.turn t) ↔
        m.TakesNumber t ∧ id = .number m.nextId ∧ m.isPending id = true) ∧
      (.dispatched t id ∈ m.deeds (.turn t) ↔
        m.TakesNumber t ∧ id = .number m.nextId ∧ m.isPending id = false)) ∧
    (∀ n, m.nextId ≤ n → m.isPending (.number n) = true → n ∈ client.guesses occurrences) ∧
    (client.guesses occurrences = [] → ∀ t id, m.stageOf t = .before none →
      .refused t id ∉ m.deeds (.turn t)) ∧
    (∀ (t : TaskId) (task : Task) c, m.tasks[t]? = some task → task.phase = .opened c →
      ∀ id, .refused t id ∈ m.deeds (.turn t) →
        ∃ entry ∈ m.pending, entry.id = id ∧ entry.owner ∈ client.overtaken occurrences) ∧
    (client.isPrompt occurrences = true → client.overtaken occurrences = []) := by
  intro client m
  have hfresh := unused_regular setup
  have htidy : m.view.IsTidy := (hfresh.run occurrences).tidy
  have hnone : client.IsForeseen [] := by
    intro n _ hpending
    cases hpending
  have hforeseen : m.IsForeseen (client.guesses occurrences) :=
    run_foreseen hnone hfresh occurrences
  have hidle : m.IsIdle (client.overtaken occurrences) :=
    run_idle (fun _ => List.forall_mem_nil _) hfresh (List.Subset.refl _)
  refine ⟨fun t id hstage => ⟨refused_iff hstage, dispatched_iff hstage⟩, hforeseen, ?_, ?_,
    overtaken_of_prompt hfresh nofun⟩
  · intro hnone t id hstage hrefused
    obtain ⟨-, rfl, hpending⟩ := (refused_iff hstage).mp hrefused
    have hguess := hforeseen _ (Int.le_refl _) hpending
    rw [hnone] at hguess
    cases hguess
  · intro t task c htask hphase id
    exact late_of_handshake_refused hidle htidy htask hphase

end

/-- Requests under a text, and under a number that was given out before. -/
def suppliedIds : List Occurrence :=
  handshake ++
    [.call (.request "first" none (some (.text "2")) none), .turn 2, .turn 2,
      .call (.request "second" none (some (.number 1)) none), .turn 3, .turn 3]

/-- Whether a task may still make a request for which no id was supplied. -/
def isUnsupplied : Stage → Bool
  | .before none => true
  | _ => false

theorem before_of_unsupplied {stage : Stage} (h : isUnsupplied stage = true) :
    stage = .before none := by
  unfold isUnsupplied at h
  split at h
  · rfl
  · cases h

/-- A request without an id is called, and admitted with a turn of its task. -/
def unsupplied (t : TaskId) : List Occurrence := [.call (.request "last" none none none), .turn t]

/-- A request without an id is made under the next number, although others have supplied ids. -/
theorem unsupplied_refused_iff_supplied_ids :
    (sampleClient.run (suppliedIds ++ unsupplied 4)).pending =
        [⟨.text "2", 2⟩, ⟨.number 1, 3⟩] ∧
      .dispatched 4 (.number 2) ∈
        (sampleClient.run (suppliedIds ++ unsupplied 4)).deeds (.turn 4) ∧
      ∀ id, .refused 4 id ∉ (sampleClient.run (suppliedIds ++ unsupplied 4)).deeds (.turn 4) := by
  have hstage : (sampleClient.run (suppliedIds ++ unsupplied 4)).stageOf 4 = .before none :=
    before_of_unsupplied (by decide +kernel)
  obtain ⟨hiff, -, hnone, -⟩ :=
    unsupplied_refused_iff sampleClient.toSetup (suppliedIds ++ unsupplied 4)
  refine ⟨by decide +kernel, (hiff 4 (.number 2) hstage).2.mpr ?_, fun id => ?_⟩
  · exact ⟨show (_ : Int) = _ by decide +kernel, by decide +kernel, by decide +kernel⟩
  · exact hnone (by decide +kernel) 4 id hstage

/-- A request under the number that the client gives out next. -/
def guessedNumber : List Occurrence :=
  handshake ++ [.call (.request "first" none (some (.number 2)) none), .turn 2, .turn 2]

def isDuplicate : Outcome → Bool
  | .error (.duplicateId _) => true
  | _ => false

/-- A request without an id is refused as a duplicate when its number was guessed. -/
theorem guessed_number_refused :
    (sampleClient.run (guessedNumber ++ unsupplied 3)).stageOf 3 = .before none ∧
      .refused 3 (.number 2) ∈
        (sampleClient.run (guessedNumber ++ unsupplied 3)).deeds (.turn 3) ∧
      ((sampleClient.run (guessedNumber ++ unsupplied 3 ++ [.turn 3, .turn 3])).returned.map
        fun (t, outcome) => (t, isDuplicate outcome)) = [(0, false), (3, true)] := by
  have hstage : (sampleClient.run (guessedNumber ++ unsupplied 3)).stageOf 3 = .before none :=
    before_of_unsupplied (by decide +kernel)
  refine ⟨hstage, (refused_iff hstage).mpr ?_, by decide +kernel⟩
  exact ⟨show (_ : Int) = _ by decide +kernel, by decide +kernel, by decide +kernel⟩

end Machine

end CodeAtlas.Client
