import CodeAtlas.Store.Retry

/-!
# What holds when an operation ends

An operation makes attempts until one of them succeeds or there is no use in another. `Attempts`
says what every attempt has to lead to: a condition on the session from which the next attempt is
made, or a condition on the result and the session at the end. `Attempts.run` follows the attempts
to the end of the operation, however often they fail and for whichever reasons.
-/

namespace CodeAtlas.Store

open Logging (Event)

variable {κ ω α : Type}

/-- What every attempt leads to. `Next` is required of the sessions that attempts are made from, and
`End` of the result and the session with which the operation ends. -/
structure Attempts (op : Operation) (access : Access κ ω) (body : Body κ ω α)
    (Next : Session κ ω → Prop) (End : Except Error α → Session κ ω → Prop) : Prop where
  note : ∀ s event, Next s → Next (s.note event)
  success : ∀ s a next, Next s → s.attempt access body = (.ok a, next) → End (.ok a) next
  permanent : ∀ s e next, Next s → s.attempt access body = (.error e, next) →
    e.classify = .permanent → End (.error (.database e)) next
  transient : ∀ s e next, Next s → s.attempt access body = (.error e, next) →
    e.classify = .transient → Next (next.forget access) ∧
      End (.error (.retriesExhausted op.name op.limit e)) (next.forget access)
  /-- Damage is met with a replacement the first time, and reported the second time. -/
  corruption : ∀ s e next, Next s → s.attempt access body = (.error e, next) →
    e.classify = .corruption →
      End (.error (.corrupted op.path e.message)) (next.forget access) ∧
      (∀ last, Operation.recover access (next.note (op.damaged e)) = (.ok (), last) → Next last) ∧
      ∀ cause last, Operation.recover access (next.note (op.damaged e)) = (.error cause, last) →
        End (.error cause) last

namespace Attempts

variable {op : Operation} {access : Access κ ω} {body : Body κ ω α}
  {Next : Session κ ω → Prop} {End : Except Error α → Session κ ω → Prop}

/-- The end of attempts that are followed by others, if what takes over on damage ends so too. -/
theorem tries (h : Attempts op access body Next End)
    {corrupted : Nat → DatabaseError → Session κ ω → Except Error α × Session κ ω}
    (hcorrupted : ∀ left s e next, Next s → s.attempt access body = (.error e, next) →
      e.classify = .corruption → End (corrupted left e next).1 (corrupted left e next).2)
    (left : Nat) {s : Session κ ω} (hs : Next s) :
    End (op.tries access body corrupted left s).1 (op.tries access body corrupted left s).2 := by
  induction left using Nat.strongRecOn generalizing s with
  | _ left ih =>
    rw [Operation.tries.eq_def]
    dsimp only
    cases hattempt : s.attempt access body with
    | mk result next =>
      cases result with
      | ok a => exact h.success s a next hs hattempt
      | error e =>
        dsimp only
        cases hclass : e.classify with
        | permanent => exact h.permanent s e next hs hattempt hclass
        | corruption => exact hcorrupted _ s e next hs hattempt hclass
        | transient =>
          obtain ⟨hnext, hlast⟩ := h.transient s e next hs hattempt hclass
          cases left with
          | zero => exact hlast
          | succ left => exact ih left (Nat.lt_succ_self left) (h.note _ _ hnext)

theorem run (h : Attempts op access body Next End) {s : Session κ ω} (hs : Next s) :
    End (op.run access body s).1 (op.run access body s).2 := by
  -- once the world was replaced, damage is the end
  have hsecond (left : Nat) {s : Session κ ω} (hs : Next s) :
      End (op.tries access body (op.giveUp access) left s).1
        (op.tries access body (op.giveUp access) left s).2 :=
    h.tries (fun _ s e next hs hattempt hclass => (h.corruption s e next hs hattempt hclass).1)
      left hs
  refine h.tries (fun left s e next hs hattempt hclass => ?_) _ hs
  obtain ⟨_, hreplaced, hfailed⟩ := h.corruption s e next hs hattempt hclass
  rw [Operation.restart]
  cases hrecover : Operation.recover access (next.note (op.damaged e)) with
  | mk result last =>
    cases result with
    | ok => exact hsecond left (hreplaced last hrecover)
    | error cause => exact hfailed cause last hrecover

end Attempts

theorem Session.read_ends {access : Access κ ω} {body : Body κ ω α}
    (End : Except Error α → Session κ ω → Prop) {s : Session κ ω}
    (hsuccess : ∀ a next, s.attempt access body = (.ok a, next) → End (.ok a) next)
    (hpermanent : ∀ e next, s.attempt access body = (.error e, next) → e.classify = .permanent →
      End (.error (.database e)) next)
    (hother : ∀ e next, s.attempt access body = (.error e, next) → e.classify ≠ .permanent →
      End (.error (.database e)) (next.forget access)) :
    End (s.read access body).1 (s.read access body).2 := by
  rw [Session.read]
  cases hattempt : s.attempt access body with
  | mk result next =>
    cases result with
    | ok a => exact hsuccess a next hattempt
    | error e =>
      dsimp only
      split
      · next hclass => exact hpermanent e next hattempt hclass
      · next hclass => exact hother e next hattempt hclass

end CodeAtlas.Store
