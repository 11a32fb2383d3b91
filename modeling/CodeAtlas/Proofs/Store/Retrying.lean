import CodeAtlas.Store.Basic
import Mathlib.Control.Monad.Basic
import Mathlib.Logic.Relation

/-!
# How retries end

The failures of an operation are of three kinds, in any order. `Operation.Course` follows the
attempts from one failure to the next as long as another attempt makes sense, without counting
them. `Operation.turn` is one turn of a loop that counts: attempts are counted before they are made,
and one that met with damage is taken back when the damage is replaced. Both lead to the same
sessions, and the loop ends as `Operation.run` does (`turns_eq_run`).

`Operation.Obeys` says how an operation ends by what its attempts came to, and `retries_obey` that
every operation of an index obeys it.
-/

namespace CodeAtlas.Store

variable {κ ω α : Type}

/-! ## Attempts in their course -/

/-- How many failures may pass. -/
def transients (failures : List DatabaseError) : Nat :=
  failures.countP fun e => e.classify = .transient

/-- How many failures are damage. -/
def corruptions (failures : List DatabaseError) : Nat :=
  failures.countP fun e => e.classify = .corruption

section Course

variable (op : Operation) (access : Access κ ω) (body : Body κ ω α) (start : Session κ ω)

/-- The sessions from which attempts are made, with the failures before them: a failure that may
pass is followed by an attempt on a new connection, and damage by one on a replacement. -/
inductive Operation.Course : List DatabaseError → Session κ ω → Prop where
  | start : Course [] start
  | retried {failures : List DatabaseError} {s next : Session κ ω} {e : DatabaseError} :
      Course failures s → s.attempt access body = (.error e, next) → e.classify = .transient →
      Course (failures ++ [e])
        ((next.forget access).note (op.retrying (transients failures + 1) e))
  | replaced {failures : List DatabaseError} {s next last : Session κ ω} {e : DatabaseError} :
      Course failures s → s.attempt access body = (.error e, next) → e.classify = .corruption →
      recover access (next.note (op.damaged e)) = (.ok (), last) → Course (failures ++ [e]) last

/-- An attempt is made from a session if fewer than `m` failures that may pass came before it, and
at most one damage. -/
structure Operation.Due (m : Nat) (failures : List DatabaseError) (s : Session κ ω) : Prop where
  course : op.Course access body start failures s
  transients : transients failures < m
  corruptions : corruptions failures ≤ 1

end Course

section Counts

variable {e : DatabaseError}

theorem counts_transient (h : e.classify = .transient) (failures : List DatabaseError) :
    transients (failures ++ [e]) = transients failures + 1 ∧
      corruptions (failures ++ [e]) = corruptions failures := by
  simp [transients, corruptions, h]

theorem counts_corruption (h : e.classify = .corruption) (failures : List DatabaseError) :
    transients (failures ++ [e]) = transients failures ∧
      corruptions (failures ++ [e]) = corruptions failures + 1 := by
  simp [transients, corruptions, h]

end Counts

/-! ## Connections -/

namespace Session

variable {access : Access κ ω} {body : Body κ ω α}
  {s next : Session κ ω}

/-- There is no connection, and none is to be had. -/
def FailsToConnect (access : Access κ ω) (s : Session κ ω) : Prop :=
  s.connection = none ∧ ∃ e, (access.connect s.world).1 = .error e

/-- An attempt leaves a connection, unless it failed to connect. -/
theorem connection_of_attempt {result : Result α} (h : s.attempt access body = (result, next)) :
    next.connection = none ↔ s.FailsToConnect access := by
  rw [attempt] at h
  cases hconnection : s.connection with
  | some connection =>
    rw [hconnection] at h
    cases h
    simp [FailsToConnect, hconnection]
  | none =>
    rw [hconnection] at h
    rcases hconnect : access.connect s.world with ⟨_ | _, world⟩ <;>
    · rw [hconnect] at h
      cases h
      simp [FailsToConnect, hconnection, hconnect]

theorem connection_of_success {a : α} (h : s.attempt access body = (.ok a, next)) :
    next.connection.isSome = true := by
  rw [attempt] at h
  cases hconnection : s.connection with
  | some connection =>
    rw [hconnection] at h
    rw [← (Prod.mk.inj h).2]
    rfl
  | none =>
    rw [hconnection] at h
    rcases hconnect : access.connect s.world with ⟨e | connection, world⟩
    · rw [hconnect] at h
      cases h
    · rw [hconnect] at h
      rw [← (Prod.mk.inj h).2]
      rfl

theorem connection_forget (access : Access κ ω) (s : Session κ ω) :
    (s.forget access).connection = none := by
  rw [forget]
  split
  · rfl
  · next hnone => exact hnone

end Session

/-- A replacement that fails leaves no connection, and has the error of the replacement. -/
theorem Operation.recover_failed {access : Access κ ω} {s last : Session κ ω} {cause : Error}
    (h : recover access s = (.error cause, last)) :
    last.connection = none ∧ ∃ world, (access.replace world).1 = .error cause := by
  rw [recover] at h
  rcases hreplace : access.replace (s.forget access).world with ⟨e | connection, world, events⟩
  · rw [hreplace] at h
    cases h
    exact ⟨rfl, (s.forget access).world, congrArg Prod.fst hreplace⟩
  · rw [hreplace] at h
    cases h

/-! ## A loop with a counter -/

/-- A loop of attempts between two turns. -/
structure Loop (κ ω : Type) where
  attempt : Nat
  recovered : Bool
  session : Session κ ω

/-- What the counter shows during the next turn. -/
def Loop.counter (loop : Loop κ ω) : Nat := loop.attempt + 1

/-- The loop before its first turn. -/
def Loop.begin (s : Session κ ω) : Loop κ ω := ⟨0, false, s⟩

namespace Operation

section Loop

variable (op : Operation) (access : Access κ ω) (body : Body κ ω α) (loop : Loop κ ω)

/-- One turn of the loop: what it goes on with, or how it ends. -/
def turn : Loop κ ω ⊕ (Except Error α × Session κ ω) :=
  match loop.session.attempt access body with
  | (.ok a, s) => .inr (.ok a, s)
  | (.error e, s) =>
    match e.classify with
    | .permanent => .inr (.error (.database e), s)
    | .corruption =>
      if loop.recovered then .inr (.error (.corrupted op.path e.message), s.forget access)
      else
        match recover access (s.note (op.damaged e)) with
        | (.ok (), s) => .inl { attempt := loop.counter - 1, recovered := true, session := s }
        | (.error e, s) => .inr (.error e, s)
    | .transient =>
      if op.limit ≤ loop.counter then
        .inr (.error (.retriesExhausted op.name op.limit e), s.forget access)
      else
        .inl { loop with
          attempt := loop.counter
          session := (s.forget access).note (op.retrying loop.counter e) }

/-- The end of a loop within a number of turns. -/
def turns : Nat → Loop κ ω → Option (Except Error α × Session κ ω)
  | 0, _ => none
  | left + 1, loop =>
    match op.turn access body loop with
    | .inl next => turns left next
    | .inr outcome => some outcome

/-- Whether the loop comes from one turn to another. -/
def Turns : Loop κ ω → Loop κ ω → Prop :=
  Relation.ReflTransGen fun loop next => op.turn access body loop = .inl next

/-- How an operation goes on from a turn of the loop. -/
def resume : Except Error α × Session κ ω :=
  op.tries access body (if loop.recovered then op.giveUp access else op.restart access body)
    (op.limit - loop.counter) loop.session

theorem resume_eq_turn :
    op.resume access body loop = (op.turn access body loop).elim (op.resume access body) id := by
  rw [resume, tries, turn]
  rcases loop.session.attempt access body with ⟨e | a, s⟩
  · dsimp only
    cases e.classify with
    | permanent => rfl
    | corruption =>
      cases hrecovered : loop.recovered with
      | true => rfl
      | false =>
        simp only [Bool.false_eq_true, ↓reduceIte, restart]
        rcases recover access (s.note (op.damaged e)) with ⟨_ | _, last⟩ <;> rfl
    | transient =>
      dsimp only
      by_cases hlast : op.limit ≤ loop.counter
      · rw [if_pos hlast, Nat.sub_eq_zero_of_le hlast]
        rfl
      · -- the number of tries that are left and the counter make up the limit
        obtain ⟨left, hleft⟩ : ∃ left, op.limit - loop.counter = left + 1 :=
          ⟨op.limit - loop.counter - 1, by omega⟩
        have hcounter : op.limit - left - 1 = loop.counter := by omega
        have hnext : op.limit - (loop.counter + 1) = left := by omega
        rw [if_neg hlast, hleft]
        simp only [Sum.elim_inl, resume, Loop.counter] at hcounter hnext ⊢
        rw [hcounter, hnext]
  · rfl

theorem resume_begin (start : Session κ ω) :
    op.resume access body (.begin start) = op.run access body start := rfl

variable {op access body} {loop next : Loop κ ω} {failures : List DatabaseError}
  {start s : Session κ ω}

/-- A turn that is followed by another: a failure that may pass was counted, or damage was
replaced. -/
theorem turn_again (h : op.turn access body loop = .inl next) :
    ∃ e after, loop.session.attempt access body = (.error e, after) ∧
      ((e.classify = .transient ∧ loop.counter < op.limit ∧
          next = ⟨loop.counter, loop.recovered,
            (after.forget access).note (op.retrying loop.counter e)⟩) ∨
        (e.classify = .corruption ∧ loop.recovered = false ∧
          ∃ last, recover access (after.note (op.damaged e)) = (.ok (), last) ∧
            next = ⟨loop.attempt, true, last⟩)) := by
  revert h
  fun_cases op.turn access body loop with
  | case4 e after hattempt hclass hrecovered last hrecover =>
    rintro ⟨⟩
    exact ⟨e, after, hattempt, .inr ⟨hclass, by simpa using hrecovered, last, hrecover, rfl⟩⟩
  | case7 e after hattempt hclass hlimit =>
    rintro ⟨⟩
    exact ⟨e, after, hattempt, .inl ⟨hclass, Nat.lt_of_not_le hlimit, rfl⟩⟩
  | case1 | case2 | case3 | case5 | case6 => exact nofun

theorem counter_le_of_turn (h : op.turn access body loop = .inl next)
    (hcounter : loop.counter ≤ op.limit) : next.counter ≤ op.limit := by
  obtain ⟨e, after, _, ⟨_, hlimit, rfl⟩ | ⟨_, _, last, _, rfl⟩⟩ := turn_again h
  · exact hlimit
  · exact hcounter

theorem Turns.counter_le (h : op.Turns access body loop next) (hcounter : loop.counter ≤ op.limit) :
    next.counter ≤ op.limit := by
  induction h with
  | refl => exact hcounter
  | tail _ hturn ih => exact counter_le_of_turn hturn ih

theorem Turns.resume_eq (h : op.Turns access body loop next) :
    op.resume access body next = op.resume access body loop := by
  induction h with
  | refl => rfl
  | @tail middle next _ hturn ih =>
    rw [← ih, resume_eq_turn op access body middle, hturn]
    rfl

/-- How many turns a loop has at most: as many as the counter has left, and one for damage. -/
def turnsLeft (op : Operation) (loop : Loop κ ω) : Nat :=
  op.limit - loop.attempt + if loop.recovered then 0 else 1

theorem turns_left_of_turn (h : op.turn access body loop = .inl next) :
    op.turnsLeft next < op.turnsLeft loop := by
  obtain ⟨e, after, _, ⟨_, hlimit, rfl⟩ | ⟨_, hrecovered, last, _, rfl⟩⟩ := turn_again h
  · simp only [turnsLeft, Loop.counter] at hlimit ⊢
    omega
  · simp only [turnsLeft, hrecovered, ↓reduceIte, Bool.false_eq_true]
    omega

theorem Turns.turns_left_le (h : op.Turns access body loop next) :
    op.turnsLeft next ≤ op.turnsLeft loop := by
  induction h with
  | refl => exact Nat.le_refl _
  | tail _ hturn ih => exact Nat.le_trans (Nat.le_of_lt (turns_left_of_turn hturn)) ih

/-- The last turn of a loop comes after all others. -/
theorem Turns.last {last : Loop κ ω} {outcome : Except Error α × Session κ ω}
    (h : op.Turns access body loop last) (hlast : op.turn access body last = .inr outcome)
    (hnext : op.Turns access body loop next) : op.Turns access body next last := by
  have hunique : Relator.RightUnique fun loop next => op.turn access body loop = .inl next :=
    fun _ _ _ hfirst hsecond => Sum.inl.inj (hfirst.symm.trans hsecond)
  rcases Relation.ReflTransGen.total_of_right_unique hunique h hnext with hlater | hearlier
  · rcases hlater.cases_head with rfl | ⟨_, hturn, _⟩
    · exact .refl
    · cases hlast.symm.trans hturn
  · exact hearlier

/-- A loop ends within the turns that it has at most. -/
theorem turns_of_turns_left (hcounter : loop.counter ≤ op.limit) {left : Nat}
    (hleft : op.turnsLeft loop ≤ left) :
    op.turns access body left loop = some (op.resume access body loop) := by
  induction left generalizing loop with
  | zero =>
    rw [turnsLeft] at hleft
    rw [Loop.counter] at hcounter
    omega
  | succ left ih =>
    rw [turns, resume_eq_turn]
    cases hturn : op.turn access body loop with
    | inr outcome => rfl
    | inl next =>
      have hfewer := turns_left_of_turn hturn
      exact ih (counter_le_of_turn hturn hcounter) (by omega)

/-- The loop ends as the operation does, within one turn more than the limit. -/
theorem turns_eq_run (hlimit : 0 < op.limit) (start : Session κ ω) :
    op.turns access body (op.limit + 1) (.begin start) = some (op.run access body start) := by
  have hcounter : (Loop.begin start).counter ≤ op.limit := hlimit
  exact turns_of_turns_left hcounter (Nat.le_refl _)

/-! ## The loop follows the course -/

/-- The loop at an attempt: the failures that may pass are counted, and damage is noted. -/
def loopAt (failures : List DatabaseError) (s : Session κ ω) : Loop κ ω :=
  ⟨transients failures, corruptions failures == 1, s⟩

theorem Due.turns (h : op.Due access body start op.limit failures s) :
    op.Turns access body (.begin start) (loopAt failures s) := by
  obtain ⟨hcourse, htransients, hcorruptions⟩ := h
  induction hcourse with
  | start => exact .refl
  | @retried failures s next e _ hattempt hclass ih =>
    obtain ⟨hcount, hsame⟩ := counts_transient hclass failures
    rw [hcount] at htransients
    rw [hsame] at hcorruptions
    refine (ih (by omega) hcorruptions).tail ?_
    simp only [turn, loopAt, hattempt, hclass, hcount, hsame]
    exact if_neg (Nat.not_le_of_lt htransients)
  | @replaced failures s next last e _ hattempt hclass hrecover ih =>
    obtain ⟨hsame, hcount⟩ := counts_corruption hclass failures
    rw [hcount] at hcorruptions
    rw [hsame] at htransients
    refine (ih htransients (by omega)).tail ?_
    have hnone : Store.corruptions failures = 0 := by omega
    simp only [turn, loopAt, hattempt, hclass, hrecover, hcount, hsame, hnone]
    rfl

variable {outcome : Except Error α × Session κ ω}

/-- What an attempt that is due decides, the operation ends with. -/
theorem Due.decides (h : op.Due access body start op.limit failures s)
    (hturn : op.turn access body (loopAt failures s) = .inr outcome) :
    op.run access body start = outcome := by
  rw [← resume_begin, ← Turns.resume_eq h.turns, resume_eq_turn, hturn]
  rfl

theorem Turns.due (h : op.Turns access body (.begin start) loop) (hlimit : 0 < op.limit) :
    ∃ failures s, op.Due access body start op.limit failures s ∧ loop = loopAt failures s := by
  induction h with
  | refl => exact ⟨[], start, ⟨.start, hlimit, Nat.zero_le 1⟩, rfl⟩
  | @tail loop next _ hturn ih =>
    obtain ⟨failures, s, ⟨hcourse, htransients, hcorruptions⟩, rfl⟩ := ih
    obtain ⟨e, after, hattempt, hagain⟩ := turn_again hturn
    rcases hagain with ⟨hclass, hcounter, rfl⟩ | ⟨hclass, hrecovered, last, hrecover, rfl⟩
    · obtain ⟨hcount, hsame⟩ := counts_transient hclass failures
      refine ⟨failures ++ [e], _, ⟨hcourse.retried hattempt hclass, ?_, ?_⟩, ?_⟩
      · rw [hcount]
        exact hcounter
      · rw [hsame]
        exact hcorruptions
      · simp only [loopAt, hcount, hsame, Loop.counter]
    · obtain ⟨hsame, hcount⟩ := counts_corruption hclass failures
      have hfirst : corruptions failures = 0 := by
        have hone : corruptions failures ≠ 1 := by simpa [loopAt] using hrecovered
        omega
      refine ⟨failures ++ [e], last, ⟨hcourse.replaced hattempt hclass hrecover, ?_, ?_⟩, ?_⟩
      · rw [hsame]
        exact htransients
      · omega
      · simp only [loopAt, hcount, hsame, hfirst]
        rfl

/-- Every failure in a course may pass or is damage. -/
theorem Course.length_eq (h : op.Course access body start failures s) :
    failures.length = transients failures + corruptions failures := by
  induction h with
  | start => rfl
  | @retried failures s next e _ _ hclass ih =>
    obtain ⟨hcount, hsame⟩ := counts_transient hclass failures
    rw [List.length_append, List.length_singleton, hcount, hsame, ih]
    omega
  | @replaced failures s next last e _ _ hclass _ ih =>
    obtain ⟨hsame, hcount⟩ := counts_corruption hclass failures
    rw [List.length_append, List.length_singleton, hcount, hsame, ih]
    omega

/-- Every failure takes one of the turns that a loop has at most. -/
theorem Due.turns_left (h : op.Due access body start op.limit failures s) :
    failures.length + op.turnsLeft (loopAt failures s) = op.limit + 1 := by
  have hlength := h.course.length_eq
  have htransients := h.transients
  have hcorruptions := h.corruptions
  simp only [turnsLeft, loopAt, beq_iff_eq]
  split <;> omega

theorem last_turn {left : Nat} (h : op.turns access body left loop = some outcome) :
    ∃ last, op.Turns access body loop last ∧ op.turn access body last = .inr outcome := by
  induction left generalizing loop with
  | zero => cases h
  | succ left ih =>
    rw [turns] at h
    cases hturn : op.turn access body loop with
    | inr ending =>
      rw [hturn] at h
      cases h
      exact ⟨loop, .refl, hturn⟩
    | inl next =>
      rw [hturn] at h
      obtain ⟨last, hturns, hlast⟩ := ih h
      exact ⟨last, .head hturn hturns, hlast⟩

/-- How a last turn ends: with a success and a connection, or with an error. There is no connection
after an error exactly if the last failure may pass, is damage, or is one to connect. -/
theorem turn_ends (h : op.turn access body loop = .inr outcome) :
    (∃ a next, loop.session.attempt access body = (.ok a, next) ∧ outcome = (.ok a, next) ∧
        next.connection.isSome = true) ∨
      ∃ e next error last, loop.session.attempt access body = (.error e, next) ∧
        outcome = (.error error, last) ∧
        (last.connection = none ↔ e.classify = .transient ∨ e.classify = .corruption ∨
          loop.session.FailsToConnect access) := by
  revert h
  fun_cases op.turn access body loop with
  | case1 a next hattempt =>
    rintro ⟨⟩
    exact .inl ⟨a, next, hattempt, rfl, Session.connection_of_success hattempt⟩
  | case2 e next hattempt hclass =>
    rintro ⟨⟩
    exact .inr ⟨e, next, _, _, hattempt, rfl,
      by simp [hclass, Session.connection_of_attempt hattempt]⟩
  | case3 e next hattempt hclass | case6 e next hattempt hclass =>
    rintro ⟨⟩
    exact .inr ⟨e, next, _, _, hattempt, rfl,
      by simp [hclass, Session.connection_forget access next]⟩
  | case5 e next hattempt hclass _ _ _ hrecover =>
    rintro ⟨⟩
    exact .inr ⟨e, next, _, _, hattempt, rfl, by simp [hclass, (recover_failed hrecover).1]⟩
  | case4 | case7 => exact nofun

end Loop

/-! ## What decides -/

/-- How an operation that is tried up to `m` times ends, by what its attempts come to. Whichever of
the first five comes first decides, and one of them comes. -/
structure Obeys (op : Operation) (access : Access κ ω) (body : Body κ ω α) (start : Session κ ω)
    (m : Nat) : Prop where
  success : ∀ failures s a next, op.Due access body start m failures s →
    s.attempt access body = (.ok a, next) → op.run access body start = (.ok a, next)
  permanent : ∀ failures s e next, op.Due access body start m failures s →
    s.attempt access body = (.error e, next) → e.classify = .permanent →
      op.run access body start = (.error (.database e), next)
  exhausted : ∀ failures s e next, op.Due access body start m failures s →
    s.attempt access body = (.error e, next) → e.classify = .transient →
    transients failures + 1 = m →
      op.run access body start =
        (.error (.retriesExhausted op.name m e), next.forget access)
  corrupted : ∀ failures s e next, op.Due access body start m failures s →
    s.attempt access body = (.error e, next) → e.classify = .corruption →
    corruptions failures = 1 →
      op.run access body start = (.error (.corrupted op.path e.message), next.forget access)
  unrecovered : ∀ failures s e next cause last, op.Due access body start m failures s →
    s.attempt access body = (.error e, next) → e.classify = .corruption →
    corruptions failures = 0 → recover access (next.note (op.damaged e)) = (.error cause, last) →
      op.run access body start = (.error cause, last) ∧
        ∃ source, cause = .recoveryFailed op.path source
  /-- There is a last attempt, at most the one after `m` others, and the operation ends with it. A
  connection is kept after a success, and none after a failure that may pass, damage, or a failure to
  connect. -/
  ends : ∃ failures s, op.Due access body start m failures s ∧ failures.length + 1 ≤ m + 1 ∧
    (∀ others earlier, op.Due access body start m others earlier →
      others.length ≤ failures.length) ∧
    ((∃ a next, s.attempt access body = (.ok a, next) ∧
        op.run access body start = (.ok a, next) ∧ next.connection.isSome = true) ∨
      ∃ e next error last, s.attempt access body = (.error e, next) ∧
        op.run access body start = (.error error, last) ∧
        (last.connection = none ↔ e.classify = .transient ∨ e.classify = .corruption ∨
          s.FailsToConnect access))
  /-- The loop that counts ends in the same way, within the same number of turns. -/
  turns : op.turns access body (m + 1) (.begin start) = some (op.run access body start)
  /-- The counter is above zero and within the limit in every turn. -/
  counter : ∀ loop, op.Turns access body (.begin start) loop → 0 < loop.counter ∧ loop.counter ≤ m

/-- Operations end by what their attempts come to, if replacements fail with the error for that. -/
theorem obeys {op : Operation} {access : Access κ ω} (hlimit : 0 < op.limit)
    (hreplace : ∀ world e, (access.replace world).1 = .error e →
      ∃ source, e = .recoveryFailed op.path source)
    (body : Body κ ω α) (start : Session κ ω) :
    op.Obeys access body start op.limit where
  success failures s a next hdue hattempt := by
    refine hdue.decides ?_
    simp only [turn, loopAt, hattempt]
  permanent failures s e next hdue hattempt hclass := by
    refine hdue.decides ?_
    simp only [turn, loopAt, hattempt, hclass]
  exhausted failures s e next hdue hattempt hclass hcount := by
    refine hdue.decides ?_
    simp only [turn, loopAt, hattempt, hclass]
    exact if_pos (Nat.le_of_eq hcount.symm)
  corrupted failures s e next hdue hattempt hclass hcount := by
    refine hdue.decides ?_
    simp only [turn, loopAt, hattempt, hclass, hcount]
    rfl
  unrecovered failures s e next cause last hdue hattempt hclass hcount hrecover := by
    obtain ⟨_, world, hfailed⟩ := recover_failed hrecover
    refine ⟨hdue.decides ?_, hreplace world cause hfailed⟩
    simp only [turn, loopAt, hattempt, hclass, hcount, hrecover]
    rfl
  ends := by
    have hrun : op.turns access body (op.limit + 1) (.begin start) = _ := turns_eq_run hlimit start
    obtain ⟨loop, hturns, hlast⟩ := last_turn hrun
    obtain ⟨failures, s, hdue, rfl⟩ := hturns.due hlimit
    have hleft := hdue.turns_left
    refine ⟨failures, s, hdue, ?_, fun others earlier hearlier => ?_, turn_ends hlast⟩
    · have htransients := hdue.transients
      simp only [turnsLeft, loopAt] at hleft
      omega
    · have hfewer := (hturns.last hlast hearlier.turns).turns_left_le
      have hothers := hearlier.turns_left
      omega
  turns := turns_eq_run hlimit start
  counter loop hturns := ⟨Nat.succ_pos _, hturns.counter_le hlimit⟩

end Operation

theorem replace_damaged_failed {path : String} {disk : Disk} {e : Error}
    (h : (replaceDamaged path disk).1 = .error e) : ∃ source, e = .recoveryFailed path source := by
  revert h
  fun_cases replaceDamaged <;> rintro ⟨⟩ <;> exact ⟨_, rfl⟩

/-- Every operation of an index that is tried up to `m` times ends by what its attempts come to,
whatever it does and whatever happens to the disk. -/
theorem retries_obey {store : Store} {m : Nat} (hretries : store.options.maxRetries = m)
    (hm : 1 ≤ m) (name : String) (body : Use α) :
    (store.operation name).Obeys (diskAccess store.path) body store.session m := by
  have hlimit : (store.operation name).limit = m := by
    rw [operation, hretries]
    exact Nat.max_eq_left hm
  have hobeys : (store.operation name).Obeys (diskAccess store.path) body store.session
      (store.operation name).limit :=
    Operation.obeys (by omega) (fun _ _ h => replace_damaged_failed h) body store.session
  rwa [hlimit] at hobeys

/-- An index that has not connected yet, on a disk on which the next uses meet with a lock, damage,
and a lock again. -/
def troubledStore : Store :=
  { path := "index.db"
    options := {}
    session := {
      connection := none
      world := {
        tree := { entries := [], current := [] }
        now := 0
        incidents := [{ cause := some lockedFailure }, {}, { cause := some damagedFailure }, {},
          { cause := some lockedFailure }] } } }

/-- Two locks and one damage are within the limit of three, so the fourth attempt succeeds. -/
theorem retries_obey_mixed_failures :
    (troubledStore.write "cleanup_old_replies" (.deleteRepliesBefore 0)).1 = .ok 0 ∧
    (troubledStore.operation "cleanup_old_replies").Obeys (diskAccess "index.db")
      (Disk.tryUse (Disk.write (.deleteRepliesBefore 0))) troubledStore.session 3 :=
  ⟨by decide +kernel, retries_obey rfl (by decide) _ _⟩

end CodeAtlas.Store
