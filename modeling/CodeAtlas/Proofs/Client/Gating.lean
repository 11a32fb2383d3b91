import CodeAtlas.Proofs.Client.Overtaking
import CodeAtlas.Proofs.Client.WriterLine

/-!
# Calls of users are kept behind the handshake

Requests and notifications of users are refused unless the client is initialized, and a call that is
refused changes nothing but its own task. What is written for those that are not refused follows the
handshake of the session it is written in, unless the call was overtaken: `traffic_gated`.

The `Stream` of a session is what has been written since its writer was installed, and `streams`
reads the streams off a run. Between the moment at which a call is admitted and the one at which its
message is written the session may end and another one begin, so the second part does not follow
from the first alone: it needs the order of the line at the writer (`Desk.IsInLine`). The invariant
`Desk.IsKept` says that for each task the stream of the session already has what it must have before
the task goes on (`Phase.need`).
-/

namespace CodeAtlas.Client

open Json (Value)
open Rpc (Message)

/-- The call of a task in this phase, if it has not begun. -/
def Phase.newCall? : Phase → Option Call
  | .ready call => some call
  | _ => none

/-- A message that was written, by which task and what for. -/
structure Letter where
  sender : TaskId
  message : Message
  errand : Errand
deriving DecidableEq

/-- What was written in one session. -/
structure Stream where
  connection : ConnectionId
  letters : List Letter
deriving DecidableEq

/-- What a task can do with the writer that shows in the streams. -/
inductive Output where
  | opened (connection : ConnectionId)
  | wrote (letter : Letter)

/-- What a task has done with the writer, by its phases before and after a turn. -/
def Phase.output? (t : TaskId) : Phase → Phase → Option Output
  | .lockWriter (.install _), .opened c => some (.opened c)
  | .writing message errand, .sent _ (.ok ()) => some (.wrote ⟨t, message, errand⟩)
  | _, _ => none

/-- The streams after one more use of the writer, the newest first. -/
def Output.record : Output → List Stream → List Stream
  | .opened c, streams => ⟨c, []⟩ :: streams
  | .wrote letter, stream :: rest => { stream with letters := stream.letters ++ [letter] } :: rest
  | .wrote _, [] => []

def record (output : Option Output) (streams : List Stream) : List Stream :=
  match output with
  | some output => output.record streams
  | none => streams

def lastLetters : List Stream → List Letter
  | [] => []
  | stream :: _ => stream.letters

/-- The messages that were written to a connection in all sessions. -/
def sentTo (c : ConnectionId) : List Stream → List Message
  | [] => []
  | stream :: rest =>
    sentTo c rest ++ if stream.connection = c then stream.letters.map Letter.message else []

variable (letters : List Letter)

/-- The request of a handshake is among some letters. -/
def IsAsked : Prop :=
  ∃ t d id params, d.purpose = .handshake ∧
    ⟨t, .request id "initialize" params, .request d⟩ ∈ letters

/-- The request of a handshake is among some letters, and later the message that confirms it. -/
def IsGreeted : Prop :=
  ∃ t first rest, letters = first ++ ⟨t, initializedMessage, .initialized⟩ :: rest ∧ IsAsked first

/-- Whatever is written for a call of a user, unless it is a late one, comes after the handshake. -/
def IsGated (late : List TaskId) (letters : List Letter) : Prop :=
  ∀ first letter rest, letters = first ++ letter :: rest → letter.errand.isTraffic = true →
    letter.sender ∉ late → IsGreeted first

/-- How much of a handshake is among some letters: its request (1), or also the message that
confirms it (2). -/
def Meets : Nat → Prop
  | 0 => True
  | 1 => IsAsked letters
  | _ => IsGreeted letters

variable {errand : Errand} {message : Message} {t : TaskId} {late : List TaskId}

section Letters

variable {letters : List Letter} {letter : Letter} {n k : Nat}

theorem IsAsked.append (h : IsAsked letters) (more : List Letter) : IsAsked (letters ++ more) := by
  obtain ⟨t, d, id, params, hpurpose, hmem⟩ := h
  exact ⟨t, d, id, params, hpurpose, List.mem_append_left more hmem⟩

theorem IsGreeted.asked (h : IsGreeted letters) : IsAsked letters := by
  obtain ⟨t, first, rest, rfl, hasked⟩ := h
  exact hasked.append _

theorem Meets.append (h : Meets letters n) (more : List Letter) : Meets (letters ++ more) n := by
  match n, h with
  | 0, _ => trivial
  | 1, h => exact IsAsked.append h more
  | _ + 2, h =>
    obtain ⟨t, first, rest, rfl, hasked⟩ := h
    exact ⟨t, first, rest ++ more, by simp, hasked⟩

theorem Meets.mono (h : Meets letters n) (hle : k ≤ n) : Meets letters k := by
  match n, k, hle, h with
  | _, 0, _, _ => trivial
  | 1, 1, _, h => exact h
  | _ + 2, 1, _, h => exact IsGreeted.asked h
  | _ + 2, _ + 2, _, h => exact h

theorem IsGated.append (h : IsGated late letters)
    (hletter : letter.errand.isTraffic = true → letter.sender ∉ late → IsGreeted letters) :
    IsGated late (letters ++ [letter]) := by
  intro first other rest hsplit htraffic hsender
  rcases rest.eq_nil_or_concat with rfl | ⟨init, last, rfl⟩
  · obtain ⟨rfl, hother⟩ := List.append_inj' hsplit rfl
    cases hother
    exact hletter htraffic hsender
  · have hlonger : letters ++ [letter] = (first ++ other :: init) ++ [last] := by
      simpa using hsplit
    exact h first other init (List.append_inj' hlonger rfl).1 htraffic hsender

theorem Errand.meets_gain (hneed : Meets letters errand.need) (hmeant : errand.Means message) :
    Meets (letters ++ [⟨t, message, errand⟩]) errand.gain := by
  cases errand with
  | request d =>
    cases hpurpose : d.purpose with
    | handshake =>
      obtain ⟨id, params, rfl⟩ := hmeant hpurpose
      have hasked : IsAsked (letters ++ [⟨t, .request id "initialize" params, .request d⟩]) :=
        ⟨t, d, id, params, hpurpose, List.mem_append_right _ (List.mem_singleton_self _)⟩
      simp only [Errand.gain, hpurpose, Purpose.gain]
      exact hasked
    | user | shutdown => simp only [Errand.gain, hpurpose, Purpose.gain, Meets]
  | initialized =>
    cases (hmeant : message = initializedMessage)
    exact ⟨t, letters, [], rfl, hneed⟩
  | notification | cancellation | exit | reply => trivial

theorem Errand.need_of_traffic (h : errand.isTraffic = true) : errand.need = 2 := by
  cases errand with
  | initialized => cases h
  | request | notification | cancellation | exit | reply =>
    unfold Errand.need
    exact if_pos h

theorem Errand.gain_of_traffic (h : errand.isTraffic = true) : errand.gain = 0 := by
  cases errand with
  | request d =>
    obtain ⟨id, method, after, purpose⟩ := d
    cases purpose with
    | user => rfl
    | handshake | shutdown => cases h
  | initialized => cases h
  | notification | cancellation | exit | reply => rfl

end Letters

namespace Phase

variable {phase old new : Phase} {c : ConnectionId} {letters : List Letter}

/-- The letters of a session allow a task to go on in this phase, unless it is a call of a user that
is late. -/
def Accords (phase : Phase) (late : List TaskId) (letters : List Letter) (t : TaskId) : Prop :=
  phase.IsMeant ∧ (Meets letters phase.need ∨ phase.isTraffic = true ∧ t ∈ late)

theorem Accords.meets (h : phase.Accords late letters t) (hother : phase.isTraffic = false) :
    Meets letters phase.need :=
  h.2.resolve_right fun hlate => Bool.false_ne_true (hother.symm.trans hlate.1)

theorem accords_of_need (hmeant : phase.IsMeant) (hneed : phase.need = 0) :
    phase.Accords late letters t := by
  refine ⟨hmeant, .inl ?_⟩
  rw [hneed]
  trivial

theorem output_of_away (h : old.isAtWriter = false) (new : Phase) : old.output? t new = none := by
  cases old with
  | lockWriter | writing | shutting => cases h
  | _ => rfl

theorem output_self (phase : Phase) : phase.output? t phase = none := by
  cases phase with
  | lockWriter job => cases job <;> rfl
  | _ => rfl

theorem installing_of_opened (h : old.output? t new = some (.opened c)) :
    old.isInstalling = true := by
  unfold output? at h
  split at h
  · rfl
  · cases h
  · cases h

theorem need_le (phase : Phase) : phase.need ≤ 2 := by
  have hpurpose (purpose : Purpose) : purpose.gain ≤ 2 := by fun_cases Purpose.gain <;> simp
  have herrand (errand : Errand) : errand.need ≤ 2 := by fun_cases Errand.need <;> simp
  fun_cases Phase.need with
  | case3 errand => fun_cases Errand.gain <;> simp [hpurpose]
  | _ => first | exact herrand _ | exact hpurpose _ | exact Nat.zero_le 2

/-- Only calls of users at the writer and whoever works on the session under the lifecycle lock need
anything of a handshake. -/
theorem need_cases (phase : Phase) :
    phase.need = 0 ∨ phase.isTraffic = true ∨ phase.duty.isLocked = true := by
  have hpurpose (purpose : Purpose) : purpose.gain = 0 ∨ purpose.duty.isLocked = true := by
    cases purpose with
    | handshake => exact .inr rfl
    | user | shutdown => exact .inl rfl
  have herrand (message : Message) (errand : Errand) : errand.need = 0 ∨
      errand.isTraffic = true ∨ (errand.duty message).isLocked = true := by
    fun_cases Errand.need with
    | case1 => exact .inr (.inr rfl)
    | case2 _ _ htraffic => exact .inr (.inl htraffic)
    | case3 => exact .inl rfl
  fun_cases Phase.need with
  | case1 message errand | case2 message errand => exact herrand message errand
  | case3 errand =>
    fun_cases Errand.gain with
    | case1 d => exact (hpurpose d.purpose).imp_right .inr
    | case2 => exact .inr (.inr rfl)
    | case3 => exact .inl rfl
  | case4 d | case5 d | case6 d => exact (hpurpose d.purpose).imp_right .inr
  | case7 => exact .inl rfl

theorem sent_of_confirmed (h : phase.duty = .confirmed) : phase = .sent .initialized (.ok ()) := by
  have hpurpose (purpose : Purpose) : purpose.duty ≠ .confirmed := by
    cases purpose <;> intro h <;> cases h
  have herrand (message : Message) (errand : Errand) : errand.duty message ≠ .confirmed := by
    fun_cases errand.duty message with
    | case1 d => exact hpurpose d.purpose
    | _ => intro h; cases h
  revert h
  fun_cases Phase.duty with
  | case1 call | case6 call => cases call <;> intro h <;> cases h
  | case7 job =>
    cases job with
    | send message errand => exact fun h => absurd h (herrand message errand)
    | _ => intro h; cases h
  | case8 message errand => exact fun h => absurd h (herrand message errand)
  | case9 errand result =>
    fun_cases errand.dutyAfter result with
    | case1 d => exact fun h => absurd h (hpurpose d.purpose)
    | case2 => exact fun _ => rfl
    | _ => intro h; cases h
  | case3 _ d | case10 d | case11 d | case12 d => exact fun h => absurd h (hpurpose d.purpose)
  | _ => intro h; cases h

end Phase

namespace Desk

variable {isOpen : Prop} {d next : Desk} {streams : List Stream} {old new : Phase}

/-- What a turn of a task has done with the writer. -/
def output? (d next : Desk) (t : TaskId) : Option Output :=
  match d.phases[t]?, next.phases[t]? with
  | some old, some new => old.output? t new
  | _, _ => none

theorem output_eq (hold : d.phases[t]? = some old) (hnew : next.phases[t]? = some new) :
    d.output? next t = old.output? t new := by
  rw [output?, hold, hnew]

theorem record_quiet (hold : d.phases[t]? = some old) (hnew : next.phases[t]? = some new)
    (hquiet : old.output? t new = none) : record (d.output? next t) streams = streams := by
  rw [output_eq hold hnew, hquiet]
  rfl

theorem record_stay (d : Desk) (t : TaskId) : record (d.output? d t) streams = streams := by
  cases hphase : d.phases[t]? with
  | none =>
    rw [output?, hphase]
    rfl
  | some phase => exact record_quiet hphase hphase phase.output_self

/-- Each task goes on as the stream of the session allows unless it is late, and the streams are
what the connections have accepted. -/
structure IsKept (late : List TaskId) (d : Desk) (streams : List Stream) : Prop where
  accords : ∀ t (phase : Phase), d.phases[t]? = some phase →
    phase.Accords late (lastLetters streams) t
  written : ∀ c, d.writer = some c → ∃ letters rest, streams = ⟨c, letters⟩ :: rest
  gated : ∀ stream ∈ streams, IsGated late stream.letters
  sent : ∀ c, (d.sent[c]?).getD [] = sentTo c streams

namespace IsKept

variable (h : d.IsKept late streams)

include h

theorem go_on (hphases : next.phases = d.phases.set t new) (hsent : next.sent = d.sent)
    (hwriter : ∀ c, next.writer = some c → d.writer = some c)
    (hnew : new.Accords late (lastLetters streams) t) : next.IsKept late streams := by
  refine ⟨?_, fun c hc => h.written c (hwriter c hc), h.gated, fun c => hsent ▸ h.sent c⟩
  intro u phase hphase
  rw [hphases] at hphase
  rcases item_set hphase with ⟨rfl, rfl⟩ | ⟨-, hold⟩
  · exact hnew
  · exact h.accords u phase hold

theorem spawn {spawned : List Phase}
    (hspawned : ∀ phase ∈ spawned, phase.isAtWriter = false ∧ phase.need = 0 ∧ phase.IsMeant) :
    (d.spawn spawned).IsKept late streams := by
  refine ⟨?_, h.written, h.gated, h.sent⟩
  intro u phase hphase
  rcases item_appended hphase with hold | ⟨-, hmem⟩
  · exact h.accords u phase hold
  · obtain ⟨-, hneed, hmeant⟩ := hspawned phase hmem
    exact Phase.accords_of_need hmeant hneed

/-- A session gets its writer when nobody who is not late needs anything of a handshake. -/
theorem install {c : ConnectionId}
    (hidle : ∀ u (phase : Phase), u ≠ t → d.phases[u]? = some phase →
      phase.need = 0 ∨ phase.isTraffic = true ∧ u ∈ late) :
    ({ d with writer := some c }.pass.setPhase t (.opened c)).IsKept late
      (⟨c, []⟩ :: streams) := by
  refine ⟨?_, ?_, ?_, ?_⟩
  · intro u phase hphase
    rcases item_set hphase with ⟨rfl, rfl⟩ | ⟨hne, hold⟩
    · exact Phase.accords_of_need trivial rfl
    · have hmeant := (h.accords u phase hold).1
      rcases hidle u phase (Ne.symm hne) hold with hneed | hlate
      · exact Phase.accords_of_need hmeant hneed
      · exact ⟨hmeant, .inr hlate⟩
  · intro other hother
    cases hother
    exact ⟨[], streams, rfl⟩
  · intro stream hstream
    rcases List.mem_cons.mp hstream with rfl | hmem
    · intro first letter rest hsplit
      simp at hsplit
    · exact h.gated stream hmem
  · intro other
    refine (h.sent other).trans ?_
    simp [sentTo]

/-- A message is written that comes after the handshake if it has to. -/
theorem write {c : ConnectionId} (hold : d.phases[t]? = some (.writing message errand))
    (hwriter : d.writer = some c) (hconnection : c < d.sent.length) :
    ((d.accept c message).pass.setPhase t (.sent errand (.ok ()))).IsKept late
      ((Output.wrote ⟨t, message, errand⟩).record streams) := by
  obtain ⟨hmeant, hneed⟩ := h.accords _ _ hold
  obtain ⟨letters, rest, rfl⟩ := h.written c hwriter
  refine ⟨?_, ?_, ?_, ?_⟩
  · intro u phase hphase
    rcases item_set hphase with ⟨rfl, rfl⟩ | ⟨-, hother⟩
    · refine ⟨trivial, .inl ?_⟩
      rcases hneed with hmeets | ⟨htraffic, -⟩
      · exact Errand.meets_gain hmeets hmeant
      · show Meets _ errand.gain
        rw [Errand.gain_of_traffic htraffic]
        trivial
    · exact (h.accords u phase hother).imp_right (.imp_left fun hmeets => hmeets.append _)
  · intro other hother
    cases hwriter.symm.trans hother
    exact ⟨letters ++ [⟨t, message, errand⟩], rest, rfl⟩
  · intro stream hstream
    rcases List.mem_cons.mp hstream with rfl | hmem
    · refine (h.gated ⟨c, letters⟩ List.mem_cons_self).append ?_
      intro htraffic hsender
      have hall : Meets letters errand.need := hneed.resolve_right fun hlate => hsender hlate.2
      rw [Errand.need_of_traffic htraffic] at hall
      exact hall
    · exact h.gated stream (List.mem_cons_of_mem _ hmem)
  · intro other
    have hbefore := h.sent other
    show ((d.sent.modify c (· ++ [message]))[other]?).getD [] = _
    by_cases hother : c = other
    · subst hother
      have hsent : d.sent[c]? = some d.sent[c] := List.getElem?_eq_getElem hconnection
      rw [hsent, Option.getD_some] at hbefore
      simp [hsent, hbefore, sentTo, Output.record]
    · simp only [sentTo, hother, if_false, List.append_nil] at hbefore
      simp [hother, hbefore, sentTo, Output.record]

theorem turn (hopen : isOpen → Meets (lastLetters streams) 2 ∨ t ∈ late)
    (hidle : d.isIn Phase.isInstalling t = true → d.lock.owner = some t →
      ∀ u (phase : Phase), u ≠ t → d.phases[u]? = some phase →
        phase.need = 0 ∨ phase.isTraffic = true ∧ u ∈ late)
    (hturn : d.Turn isOpen t next) : next.IsKept late (record (d.output? next t) streams) := by
  cases hturn with
  | stay =>
    rw [record_stay]
    exact h
  | move hold hleaves hstays hneed hmeant hspawned =>
    rw [record_quiet hold (phase_set (phase_spawn hold)) (Phase.output_of_away hleaves _)]
    have hmeets := (h.accords _ _ hold).meets (Phase.not_at_writer hleaves).2.2
    exact (h.spawn hspawned).go_on rfl rfl (fun _ => id)
      ⟨hmeant, .inl (hmeets.mono hneed)⟩
  | @ask old job hold hleaves hmeant hneed =>
    rw [record_quiet hold (phase_set hold) (Phase.output_of_away hleaves _)]
    refine h.go_on rfl rfl (fun _ => id) ⟨hmeant (h.accords _ _ hold).1, ?_⟩
    rcases hneed with ⟨-, hless⟩ | ⟨htraffic, hisOpen⟩
    · have hmeets := (h.accords _ _ hold).meets (Phase.not_at_writer hleaves).2.2
      exact .inl (hmeets.mono hless)
    · exact (hopen hisOpen).imp (Meets.mono · (Phase.need_le _)) (⟨htraffic, ·⟩)
  | take howner hold =>
    rw [record_quiet hold (phase_set hold) rfl]
    have hmeant := h.accords _ _ hold
    exact h.go_on rfl rfl (fun _ => id) hmeant
  | @install c howner hold =>
    rw [output_eq hold (phase_set hold)]
    exact h.install (hidle (isIn_eq hold) howner)
  | close howner hold =>
    rw [record_quiet hold (phase_set hold) rfl]
    exact h.go_on rfl rfl nofun (Phase.accords_of_need trivial rfl)
  | skip _ hold | balk hold | shut hold =>
    rw [record_quiet hold (phase_set hold) rfl]
    exact h.go_on rfl rfl (fun _ => id) (Phase.accords_of_need trivial rfl)
  | write hold hwriter hconnection =>
    rw [output_eq hold (phase_set hold)]
    exact h.write hold hwriter hconnection

end IsKept

theorem IsKept.outside {occurrence : Occurrence} (h : d.IsKept late streams)
    (hstep : d.Step isOpen occurrence next) (hturn : ∀ t, occurrence ≠ .turn t) :
    next.IsKept late streams := by
  cases hstep with
  | turn => exact absurd rfl (hturn _)
  | drop hdrop =>
    cases hdrop with
    | stay => exact h
    | leave hold => exact h.go_on rfl rfl (fun _ => id) (Phase.accords_of_need trivial rfl)
  | call call =>
    refine h.spawn ?_
    intro phase hphase
    rw [List.mem_singleton.mp hphase]
    exact ⟨rfl, rfl, trivial⟩
  | connect =>
    refine ⟨h.accords, h.written, h.gated, fun c => ?_⟩
    refine Eq.trans (?_ : ((d.sent ++ [[]])[c]?).getD [] = _) (h.sent c)
    rw [List.getElem?_append]
    grind
  | pass => exact h

end Desk

/-- A turn of a task completes the handshake, or the client was initialized before. -/
theorem View.initialized_of_turn {v next : View} {t : TaskId} (hturn : v.Turn t next)
    (hstate : next.state = .initialized) :
    v.state = .initialized ∨ v.duty? t = some .confirmed := by
  cases hturn with
  | fail | lose => exact absurd hstate v.state.failed_not_live.2
  | complete hduty => exact .inr hduty
  | begin | misfire | halt | greet | stumble | giveUp | dismiss | quit | conclude => cases hstate
  | _ => exact .inl hstate

namespace Machine

/-- What an occurrence has done with the writer. -/
def output? (m : Machine) : Occurrence → Option Output
  | .turn t => m.desk.output? (m.perform (.turn t)).desk t
  | _ => none

/-- The streams of a run after the streams before it, the newest first. -/
def streams (m : Machine) (before : List Stream) : List Occurrence → List Stream
  | [] => before
  | occurrence :: rest =>
    (m.perform occurrence).streams (record (m.output? occurrence) before) rest

def newCall? (m : Machine) (t : TaskId) : Option Call :=
  (m.tasks[t]?).bind fun task => task.phase.newCall?

/-- The next turn of a task returns an error and changes nothing else that matters to anyone. -/
structure Refuses (m : Machine) (t : TaskId) (e : Error) : Prop where
  returned : (m.perform (.turn t)).returned = m.returned ++ [(t, .error e)]
  state : (m.perform (.turn t)).state = m.state
  nextId : (m.perform (.turn t)).nextId = m.nextId
  pending : (m.perform (.turn t)).pending = m.pending
  connections : (m.perform (.turn t)).connections = m.connections

variable {m : Machine} {log : List Message} {streams : List Stream}

theorem wake_frame (m : Machine) (t : TaskId) :
    ∃ tasks queue, m.wake t = { m with tasks, queue } := by
  fun_cases wake <;> exact ⟨_, _, rfl⟩

theorem return_frame (m : Machine) (t : TaskId) (outcome : Outcome) :
    ∃ tasks queue, m.return_ t outcome =
      { m with tasks, queue, returned := m.returned ++ [(t, outcome)] } := by
  unfold return_
  fun_cases finish with
  | case1 task =>
    cases task.joiner with
    | none => exact ⟨_, _, rfl⟩
    | some joiner =>
      obtain ⟨tasks, queue, hwake⟩ := wake_frame (m.goTo t .finished) joiner
      exact ⟨tasks, queue, by rw [wakeAny, hwake]; rfl⟩
  | case2 => exact ⟨_, _, rfl⟩

/-- A call of a user is refused unless the client is initialized. -/
theorem refuses_traffic {call : Call} (htidy : m.view.IsTidy) (hnew : m.newCall? t = some call)
    (htraffic : call.isTraffic = true) (hstate : m.state ≠ .initialized) :
    m.Refuses t (.notInitialized m.state) := by
  obtain ⟨task, htask, hcall⟩ := Option.bind_eq_some_iff.mp hnew
  have hphase : task.phase = .ready call := by
    unfold Phase.newCall? at hcall
    split at hcall
    · next hready =>
      cases hcall
      exact hready
    · cases hcall
  have hbegin : m.begin_ t call = m.return_ t (.error (.notInitialized m.state)) := by
    cases call with
    | request | ask | notify => exact if_neg hstate
    | start | attach | stop | cancel => cases htraffic
  have haborted := not_aborted htidy htask (by rw [hphase]; rfl)
  have hnext : m.perform (.turn t) = m.return_ t (.error (.notInitialized m.state)) := by
    obtain ⟨phase, inbox, isQueued, isAborted, joiner⟩ := task
    cases hphase
    cases haborted
    rw [← hbegin]
    simp only [perform, step, htask]
    rfl
  obtain ⟨tasks, queue, hreturn⟩ := return_frame m t (.error (.notInitialized m.state))
  have hframe := hnext.trans hreturn
  constructor <;> rw [hframe]

/-- When a session gets its writer, nobody else needs anything of a handshake, save late calls. -/
theorem no_need_at_install (hcoherent : m.view.IsCoherent log) (hline : m.desk.IsInLine late)
    (hinstalling : m.desk.isIn Phase.isInstalling t = true) (howner : m.desk.lock.owner = some t)
    (u : TaskId) (phase : Phase) (hne : u ≠ t) (hphase : m.desk.phases[u]? = some phase) :
    phase.need = 0 ∨ phase.isTraffic = true ∧ u ∈ late := by
  rcases phase.need_cases with hnone | htraffic | hlocked
  · exact .inl hnone
  · -- A call of a user at the writer stands behind the one who installs it.
    have hplace : phase.isAtWriter = true := by
      rw [← Bool.not_eq_false]
      intro haway
      exact Bool.false_ne_true ((Phase.not_at_writer haway).2.2.symm.trans htraffic)
    have hmem := (hline.lined u).mpr ((Desk.isIn_eq hphase).trans hplace)
    have hordered := hline.ordered
    rw [Lock.line_of_owner howner] at hmem hordered
    have hbehind := (List.mem_cons.mp hmem).resolve_left hne
    have hlate := (List.pairwise_cons.mp hordered).1 u hbehind hinstalling
    exact .inr ⟨htraffic, hlate ((Desk.isIn_eq hphase).trans htraffic)⟩
  · -- Whoever works on the session has the lifecycle lock, and so has the one who installs.
    obtain ⟨other, hother, htest⟩ := (Option.any_eq_true _ _).mp hinstalling
    have hopening : other.duty.isLocked = true := by
      cases other with
      | lockWriter job =>
        cases job with
        | install => rfl
        | send | close => cases htest
      | _ => cases htest
    have ht := hcoherent.owned t _ (desk_duty hother) hopening
    have hu := hcoherent.owned u _ (desk_duty hphase) hlocked
    exact absurd (Option.some.inj (hu.symm.trans ht)) hne

/-- What is known of the sessions of a run: save what late calls write, their streams stay behind
the handshake, and if the client is initialized, the last one has it. -/
structure Follows (m : Machine) (late : List TaskId) (log : List Message)
    (streams : List Stream) : Prop where
  coherent : m.view.IsCoherent log
  tidy : m.view.IsTidy
  line : m.desk.IsInLine late
  kept : m.desk.IsKept late streams
  greeted : m.state = .initialized → Meets (lastLetters streams) 2

/-- More is written in a session unless another one gets its writer. -/
theorem meets_record {output : Option Output} {n : Nat} (h : Meets (lastLetters streams) n)
    (hsame : ∀ c, output ≠ some (.opened c)) :
    Meets (lastLetters (record output streams)) n := by
  match output, streams, h, hsame with
  | none, _, h, _ => exact h
  | some (.opened c), _, _, hsame => exact absurd rfl (hsame c)
  | some (.wrote letter), [], h, _ => exact h
  | some (.wrote letter), _ :: _, h, _ => exact h.append [letter]

theorem not_opened {d next : Desk} (h : d.isIn Phase.isInstalling t = false) (c : ConnectionId) :
    d.output? next t ≠ some (.opened c) := by
  fun_cases d.output? next t with
  | case1 old new _ hold =>
    intro hopened
    rw [Desk.isIn_eq hold, Phase.installing_of_opened hopened] at h
    cases h
  | case2 => nofun

/-- A turn that leaves the client initialized leaves the handshake in the stream of the session. -/
theorem Follows.greeted_turn (h : m.Follows late log streams)
    (hstate : (m.perform (.turn t)).state = .initialized) :
    Meets (lastLetters (record (m.output? (.turn t)) streams)) 2 := by
  have hcases := View.initialized_of_turn (perform_step m (.turn t)).turn_of hstate
  have hready : Meets (lastLetters streams) 2 ∧ m.desk.isIn Phase.isInstalling t = false := by
    rcases hcases with hbefore | hconfirmed
    · exact ⟨h.greeted hbefore, not_installing h.coherent hbefore t⟩
    · obtain ⟨phase, hphase, hduty⟩ := phase_of_duty hconfirmed
      cases Phase.sent_of_confirmed hduty
      exact ⟨(h.kept.accords _ _ hphase).meets rfl, Desk.isIn_eq hphase⟩
  exact meets_record hready.1 (not_opened hready.2)

theorem Follows.perform {occurrence : Occurrence} (h : m.Follows late log streams)
    (hlate : m.overtakenBy occurrence ⊆ late) :
    (m.perform occurrence).Follows late (m.view.record log (m.perform occurrence).view)
      (record (m.output? occurrence) streams) := by
  have hview := perform_step m occurrence
  have hdesk := perform_desk h.tidy occurrence
  refine ⟨h.coherent.step hview, h.tidy.step h.coherent hview, h.line.step ?_ hdesk, ?_, ?_⟩
  · rintro t rfl hlets
    exact (Or.symm hlets).imp (hlate ·) (not_installing h.coherent)
  · cases occurrence with
    | turn t =>
      refine h.kept.turn ?_ (no_need_at_install h.coherent h.line) hdesk.turn_of
      exact fun hlets => hlets.imp h.greeted (hlate ·)
    | _ => exact h.kept.outside hdesk nofun
  · intro hstate
    cases occurrence with
    | turn t => exact h.greeted_turn hstate
    | _ => exact h.greeted ((hview.state_eq nofun).symm.trans hstate)

/-- The streams of a run stay behind the handshake if those before it do, save what is written for
calls that are overtaken. -/
theorem run_follows (h : m.Follows late log streams) {occurrences : List Occurrence}
    (hlate : m.overtaken occurrences ⊆ late) :
    (m.run occurrences).Follows late (m.written log occurrences)
      (m.streams streams occurrences) := by
  induction occurrences generalizing m log streams with
  | nil => exact h
  | cons occurrence rest ih =>
    obtain ⟨hfirst, hrest⟩ := List.append_subset.mp hlate
    exact ih (h.perform hfirst) hrest

theorem unused_follows (setup : Setup) : (unused setup).Follows late [] [] where
  coherent := unused_coherent ..
  tidy := unused_tidy ..
  line := ⟨⟨fun _ => rfl, .nil⟩, fun _ => ⟨nofun, nofun⟩, fun _ => nofun, .nil⟩
  kept := ⟨fun _ _ h => (nomatch List.getElem?_nil.symm.trans h), nofun, List.forall_mem_nil _,
    fun _ => rfl⟩
  greeted := nofun

-- The exception is real. Task 2 is admitted to the first session, asks for the writer when the one
-- of the second session has been installed, and is written before the request of its handshake.
example :
    let occurrences := handshake ++ [.call (.notify "late" none), .turn 2, .call .stop] ++
      List.replicate 6 (.turn 3) ++ [.passTime sampleClient.options.shutdownTimeout] ++
      List.replicate 7 (.turn 3) ++ [.turn 1] ++ List.replicate 4 (.turn 3) ++
      [.connect, .call (.attach 1)] ++ List.replicate 3 (.turn 4) ++
      List.replicate 3 (.turn 2) ++ List.replicate 4 (.turn 4)
    sampleClient.overtaken occurrences = [2] ∧
      (lastLetters (sampleClient.streams [] occurrences)).map (fun letter => letter.sender) =
        [2, 4] := by
  decide +kernel

end Machine

end CodeAtlas.Client
