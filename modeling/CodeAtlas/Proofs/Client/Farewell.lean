import CodeAtlas.Proofs.Client.Gating
import CodeAtlas.Proofs.Client.Requests
import CodeAtlas.Proofs.Client.Stops
import Mathlib.Data.List.Basic

/-!
# What follows the request to shut down

The writer lock is passed on in the order in which tasks have asked for it, so what a session writes
is what was asked for, in that order and perhaps with gaps: `Desk.mail` joins what was written to
what is in line, and `Turn.mails` says what a turn does to it. Whether the messages of a stop stay
the last ones is then decided when another task asks: the request to shut down leaves the state as
it is, so a call of a user that comes while the stop waits for the answer is not refused.
`sessions_parted` says what follows the farewells of a stop in every session, and that a stop that
nobody disturbs has the last word.
-/

namespace CodeAtlas.Client

open Rpc (Message RequestId)

/-- The message that a task in this phase has for the writer. -/
def Phase.letter? (t : TaskId) : Phase → Option Letter
  | .lockWriter (.send message errand) => some ⟨t, message, errand⟩
  | .writing message errand => some ⟨t, message, errand⟩
  | _ => none

theorem Phase.letter_of_away {phase : Phase} (h : phase.isAtWriter = false) (t : TaskId) :
    phase.letter? t = none := by
  cases phase with
  | lockWriter | writing | shutting => cases h
  | _ => rfl

variable {letter : Letter} {occurrence : Occurrence} {errand : Errand} {late : List TaskId}

namespace Desk

variable {isOpen : Prop} {d next : Desk} {streams : List Stream} {t u : TaskId} {old new : Phase}

/-- The message that a task has for the writer. -/
def letterOf? (d : Desk) (t : TaskId) : Option Letter := (d.phases[t]?).bind (Phase.letter? t)

/-- The messages of the tasks at the writer, in the order of their line. -/
def lineLetters (d : Desk) : List Letter := d.lock.line.filterMap d.letterOf?

/-- What was written in the last session, and what is in the line to be written in it. -/
def mail (d : Desk) (streams : List Stream) : List Letter :=
  lastLetters streams ++ if d.writer.isSome then d.lineLetters else []

theorem letterOf_set_phase (h : d.phases[t]? = some old) (new : Phase) (u : TaskId) :
    (d.setPhase t new).letterOf? u = if t = u then new.letter? t else d.letterOf? u := by
  by_cases htu : t = u
  · subst htu
    obtain ⟨hlength, -⟩ := List.getElem?_eq_some_iff.mp h
    simp [letterOf?, setPhase, hlength]
  · simp [letterOf?, setPhase, htu]

theorem letterOf_spawn {spawned : List Phase} (h : ∀ phase ∈ spawned, phase.isAtWriter = false)
    (u : TaskId) : (d.spawn spawned).letterOf? u = d.letterOf? u := by
  unfold letterOf? spawn
  rw [List.getElem?_append]
  split
  · rfl
  · next hlength =>
    rw [List.getElem?_eq_none (Nat.not_lt.mp hlength)]
    cases hphase : spawned[u - d.phases.length]? with
    | none => rfl
    | some phase => exact Phase.letter_of_away (h phase (List.mem_of_getElem? hphase)) u

theorem line_letters_eq {line : List TaskId} (hline : next.lock.line = line)
    (hkept : ∀ u ∈ line, next.letterOf? u = d.letterOf? u) :
    next.lineLetters = line.filterMap d.letterOf? := by
  rw [lineLetters, hline]
  exact List.filterMap_congr hkept

theorem line_letters_same (hlock : next.lock = d.lock)
    (hkept : ∀ u ∈ d.lock.line, next.letterOf? u = d.letterOf? u) :
    next.lineLetters = d.lineLetters :=
  line_letters_eq (by rw [hlock]) hkept

theorem line_letters_go_on (h : d.IsInLine late) (hold : d.phases[t]? = some old)
    (hleaves : old.isAtWriter = false) (new : Phase) :
    (d.setPhase t new).lineLetters = d.lineLetters := by
  refine line_letters_same rfl ?_
  intro u hu
  rw [letterOf_set_phase hold, if_neg]
  rintro rfl
  exact h.not_mem hold hleaves hu

theorem line_letters_spawn {spawned : List Phase}
    (h : ∀ phase ∈ spawned, phase.isAtWriter = false) :
    (d.spawn spawned).lineLetters = d.lineLetters :=
  line_letters_same rfl fun u _ => letterOf_spawn h u

theorem line_letters_take {message : Message}
    (hold : d.phases[t]? = some (.lockWriter (.send message errand))) :
    (d.setPhase t (.writing message errand)).lineLetters = d.lineLetters := by
  refine line_letters_same rfl ?_
  intro u _
  rw [letterOf_set_phase hold]
  split
  · next htu =>
    rw [← htu, letterOf?, hold]
    rfl
  · rfl

theorem line_letters_ask (job : Job) (h : d.IsInLine late) (hold : d.phases[t]? = some old)
    (hleaves : old.isAtWriter = false) :
    (d.ask t job).lineLetters = d.lineLetters ++ ((Phase.lockWriter job).letter? t).toList := by
  have hnew := h.not_mem hold hleaves
  have hline : (d.ask t job).lock.line = d.lock.line ++ [t] := Lock.line_ask h.proper t
  have hletter (u : TaskId) : (d.ask t job).letterOf? u =
      if t = u then (Phase.lockWriter job).letter? t else d.letterOf? u :=
    letterOf_set_phase hold _ u
  have hothers : d.lock.line.filterMap (d.ask t job).letterOf? = d.lineLetters := by
    refine List.filterMap_congr ?_
    intro u hu
    rw [hletter, if_neg]
    rintro rfl
    exact hnew hu
  rw [lineLetters, hline, List.filterMap_append, hothers]
  congr 1
  simp only [List.filterMap_cons, List.filterMap_nil, hletter, ↓reduceIte]
  cases (Phase.lockWriter job).letter? t <;> rfl

/-- The first task of a line that is taken has its message before all others. -/
theorem line_letters_of_owner (howner : d.lock.owner = some t) (hold : d.phases[t]? = some old) :
    d.lineLetters = (old.letter? t).toList ++ d.lock.waiting.filterMap d.letterOf? := by
  have hletter : d.letterOf? t = old.letter? t := by rw [letterOf?, hold, Option.bind_some]
  rw [lineLetters, Lock.line_of_owner howner, List.filterMap_cons, hletter]
  cases old.letter? t <;> rfl

theorem line_letters_pass (h : d.IsInLine late) (howner : d.lock.owner = some t) (next : Desk)
    (hphases : next.phases = d.phases.set t new) (hlock : next.lock = d.lock.pass) :
    next.lineLetters = d.lock.waiting.filterMap d.letterOf? := by
  have hdistinct := h.proper.distinct
  rw [Lock.line_of_owner howner, List.nodup_cons] at hdistinct
  have hline : next.lock.line = d.lock.waiting := by
    rw [hlock, Lock.line_pass h.proper, Lock.line_of_owner howner, List.tail_cons]
  refine line_letters_eq hline ?_
  intro u hu
  have hne : t ≠ u := fun htu => hdistinct.1 (htu ▸ hu)
  simp [letterOf?, hphases, hne]

theorem line_letters_leave (h : d.IsInLine late) (t : TaskId) :
    ({ d with lock := d.lock.leave t }.setPhase t .finished).lineLetters.Sublist
      d.lineLetters := by
  have hline : (d.lock.leave t).line = d.lock.line.filter (· ≠ t) := Lock.line_leave h.proper t
  rw [line_letters_eq (d := d) hline]
  · exact List.filter_sublist.filterMap _
  · intro u hu
    have hne : t ≠ u := by
      have hkept := (List.mem_filter.mp hu).2
      exact Ne.symm (by simpa using hkept)
    simp [letterOf?, setPhase, hne]

theorem mail_sublist (hwriter : next.writer.isSome = true → d.writer.isSome = true)
    (hline : next.lineLetters.Sublist d.lineLetters) :
    (next.mail streams).Sublist (d.mail streams) := by
  refine List.Sublist.append (List.Sublist.refl _) ?_
  by_cases hnext : next.writer.isSome = true
  · rw [if_pos hnext, if_pos (hwriter hnext)]
    exact hline
  · rw [if_neg hnext]
    exact List.nil_sublist _

/-- What becomes of the mail of a session when a task takes a turn. -/
inductive Mails (d : Desk) (t : TaskId) (streams : List Stream) (next : Desk) :
    List Stream → Prop where
  /-- Nothing is added. A message may be written, or may be lost. -/
  | keep {more : List Stream} (htail : more.tail = streams.tail)
      (hmail : (next.mail more).Sublist (d.mail streams))
      (hwriter : next.writer.isSome = true → d.writer.isSome = true) :
      Mails d t streams next more
  /-- The task goes to the end of the line with a message. -/
  | ask {old : Phase} {message : Message} {errand : Errand} (hwriter : d.writer.isSome = true)
      (hold : d.phases[t]? = some old) (hleaves : old.isAtWriter = false)
      (hphase : next.phases[t]? = some (.lockWriter (.send message errand)))
      (hmail : next.mail streams = d.mail streams ++ [⟨t, message, errand⟩]) :
      Mails d t streams next streams
  /-- Another session gets its writer, and what others have for the writer is written there. -/
  | install {more : List Stream} (hinstalling : d.isIn Phase.isInstalling t = true)
      (htail : more.tail = streams)
      (hmail : ∀ letter ∈ next.mail more, ∃ u, u ≠ t ∧ d.letterOf? u = some letter) :
      Mails d t streams next more

/-- A turn of a task treats the mail of a session in one of these ways. -/
theorem Turn.mails (hturn : d.Turn isOpen t next) (h : d.IsInLine late)
    (hwritten : ∀ c, d.writer = some c → ∃ letters rest, streams = ⟨c, letters⟩ :: rest) :
    d.Mails t streams next (record (d.output? next t) streams) := by
  have howns {phase : Phase} (hold : d.phases[t]? = some phase)
      (hholds : phase.hasWriter = true) : d.lock.owner = some t :=
    h.holds t ((isIn_eq hold).trans hholds)
  have hkeep (hwriter : next.writer.isSome = true → d.writer.isSome = true)
      (hline : next.lineLetters.Sublist d.lineLetters) : d.Mails t streams next streams :=
    .keep rfl (mail_sublist hwriter hline) hwriter
  -- The first of the line leaves it, and what it had for the writer is not written.
  have hpass {old new : Phase} (howner : d.lock.owner = some t)
      (hold : d.phases[t]? = some old) (hphases : next.phases = d.phases.set t new)
      (hlock : next.lock = d.lock.pass) (hwriter : next.writer = d.writer)
      (hquiet : old.output? t new = none) :
      d.Mails t streams next (record (d.output? next t) streams) := by
    rw [record_quiet hold (hphases ▸ phase_set hold) hquiet]
    refine hkeep (fun hnext => hwriter ▸ hnext) ?_
    rw [line_letters_pass h howner next hphases hlock, line_letters_of_owner howner hold]
    exact List.sublist_append_right _ _
  cases hturn with
  | stay =>
    rw [record_stay]
    exact hkeep id (List.Sublist.refl _)
  | @move old new spawned hold hleaves hstays hneed hmeant hspawned =>
    rw [record_quiet hold (phase_set (phase_spawn hold)) (Phase.output_of_away hleaves _)]
    have haway : ∀ phase ∈ spawned, phase.isAtWriter = false := fun phase hmem =>
      (hspawned phase hmem).1
    refine hkeep id ?_
    rw [line_letters_go_on (h.spawn haway) (phase_spawn hold) hleaves, line_letters_spawn haway]
  | @ask old job hold hleaves hmeant hneed =>
    have hphase : (d.ask t job).phases[t]? = some (.lockWriter job) := phase_set hold
    rw [record_quiet hold hphase (Phase.output_of_away hleaves _)]
    have hline := line_letters_ask job h hold hleaves
    cases job with
    | install | close =>
      refine hkeep id ?_
      rw [hline]
      exact (List.append_nil _).symm ▸ List.Sublist.refl _
    | send message errand =>
      by_cases hwriter : d.writer.isSome = true
      · refine .ask hwriter hold hleaves hphase ?_
        have hnext : (d.ask t (.send message errand)).writer.isSome = true := hwriter
        rw [mail, mail, if_pos hnext, if_pos hwriter, hline, List.append_assoc]
        rfl
      · refine .keep rfl ?_ (fun hnext => absurd hnext hwriter)
        have hnext : ¬ (d.ask t (.send message errand)).writer.isSome = true := hwriter
        rw [mail, mail, if_neg hnext, if_neg hwriter]
  | take howner hold =>
    rw [record_quiet hold (phase_set hold) rfl]
    refine hkeep id ?_
    rw [line_letters_take hold]
  | @install c howner hold =>
    rw [output_eq hold (phase_set hold)]
    refine .install (isIn_eq hold) rfl ?_
    intro letter hletter
    have hline := line_letters_pass h howner
      ({ d with writer := some c }.pass.setPhase t (.opened c)) rfl rfl
    have hmem : letter ∈ d.lock.waiting.filterMap d.letterOf? := hline ▸ hletter
    obtain ⟨u, hu, hletter⟩ := List.mem_filterMap.mp hmem
    have hdistinct := h.proper.distinct
    rw [Lock.line_of_owner howner, List.nodup_cons] at hdistinct
    exact ⟨u, fun hut => hdistinct.1 (hut ▸ hu), hletter⟩
  | close howner hold =>
    rw [record_quiet hold (phase_set hold) rfl]
    refine .keep rfl ?_ (fun hnext => by cases hnext)
    show (lastLetters streams ++ []).Sublist _
    rw [List.append_nil]
    exact List.sublist_append_left _ _
  | skip howner hold => exact hpass howner hold rfl rfl rfl rfl
  | @write c message errand hold hwriter hconnection =>
    rw [output_eq hold (phase_set hold)]
    obtain ⟨letters, rest, rfl⟩ := hwritten c hwriter
    have howner := howns hold rfl
    have hline := line_letters_pass h howner
      ((d.accept c message).pass.setPhase t (.sent errand (.ok ()))) rfl rfl
    have hsome : d.writer.isSome = true := by rw [hwriter]; rfl
    have hnext : ((d.accept c message).pass.setPhase t (.sent errand (.ok ()))).writer.isSome =
      true := hsome
    refine .keep rfl ?_ (fun _ => hsome)
    rw [mail, mail, if_pos hnext, if_pos hsome, hline, line_letters_of_owner howner hold,
      ← List.append_assoc]
    exact List.Sublist.refl _
  | balk hold | shut hold => exact hpass (howns hold rfl) hold rfl rfl rfl rfl

/-- What happens besides turns adds nothing to the mail of a session. -/
theorem Step.mail_outside (hstep : d.Step isOpen occurrence next) (streams : List Stream)
    (h : d.IsInLine late) (hturn : ∀ t, occurrence ≠ .turn t) :
    (next.mail streams).Sublist (d.mail streams) ∧ next.writer = d.writer := by
  cases hstep with
  | turn => exact absurd rfl (hturn _)
  | @drop t _ hdrop =>
    cases hdrop with
    | stay => exact ⟨List.Sublist.refl _, rfl⟩
    | leave => exact ⟨mail_sublist id (line_letters_leave h t), rfl⟩
  | call call =>
    refine ⟨mail_sublist id ?_, rfl⟩
    rw [line_letters_spawn]
    intro phase hphase
    rw [List.mem_singleton.mp hphase]
    rfl
  | connect | pass => exact ⟨List.Sublist.refl _, rfl⟩

end Desk

def Errand.isShutdown : Errand → Bool
  | .request ⟨_, _, _, .shutdown⟩ => true
  | _ => false

/-- Whether a message is the last but one or the last that a stop has for the server. -/
def Errand.isFarewell : Errand → Bool
  | .exit => true
  | errand => errand.isShutdown

def Errand.isReply : Errand → Bool
  | .reply _ => true
  | _ => false

/-- The message with which a task tells the server to exit. -/
def goodbye (t : TaskId) : Letter := ⟨t, .notification "exit" none, .exit⟩

/-- What may be written after what in a session; less may if all is calm while it is stopped. -/
structure Letter.MayPrecede (calm : Prop) (late : List TaskId) (first later : Letter) : Prop where
  shutdown : first.errand.isShutdown = true → calm →
    later.errand.isReply = true ∨ later = goodbye later.sender
  exit : first.errand = .exit → later.errand.isReply = true ∨
    ¬ calm ∧ (later.errand = .cancellation ∨ later.errand.isTraffic = true ∧ later.sender ∈ late)

/-- After the request to shut down nothing is written but the message to exit, and answers to the
server. -/
def IsParted (letters : List Letter) : Prop :=
  ∀ first letter rest, letters = first ++ letter :: rest → letter.errand.isShutdown = true →
    rest.filter (fun later => !later.errand.isReply) = [] ∨
      ∃ t, rest.filter (fun later => !later.errand.isReply) = [goodbye t]

theorem Errand.not_farewell (h : errand.isFarewell = false) :
    errand.isShutdown = false ∧ errand ≠ .exit := by
  cases errand with
  | exit => cases h
  | request | notification | cancellation | initialized | reply => exact ⟨h, nofun⟩

theorem Letter.mayPrecede_of_not_farewell {calm : Prop} {first : Letter}
    (h : first.errand.isFarewell = false) (later : Letter) :
    first.MayPrecede calm late later := by
  obtain ⟨hshutdown, hexit⟩ := Errand.not_farewell h
  exact ⟨fun hother => absurd (hshutdown.symm.trans hother) Bool.false_ne_true,
    fun hother => absurd hother hexit⟩

theorem isParted_of_pairwise {calm : Prop} (hcalm : calm) {letters : List Letter}
    (h : letters.Pairwise (Letter.MayPrecede calm late)) : IsParted letters := by
  intro first letter rest hsplit hshutdown
  rw [hsplit, List.pairwise_append, List.pairwise_cons] at h
  obtain ⟨-, ⟨hafter, hrest⟩, -⟩ := h
  have hothers : ∀ later ∈ rest.filter (fun later => !later.errand.isReply),
      later = goodbye later.sender := by
    intro later hlater
    obtain ⟨hmem, hother⟩ := List.mem_filter.mp hlater
    rcases (hafter later hmem).shutdown hshutdown hcalm with hreply | hgoodbye
    · rw [hreply] at hother
      cases hother
    · exact hgoodbye
  have hordered := hrest.filter fun later => !later.errand.isReply
  generalize rest.filter (fun later => !later.errand.isReply) = others at hothers hordered ⊢
  match others with
  | [] => exact .inl rfl
  | [only] =>
    have honly := hothers only List.mem_cons_self
    exact .inr ⟨only.sender, congrArg (fun letter => [letter]) honly⟩
  | one :: other :: more =>
    -- Nothing but answers follows the message to exit, so there is no second one.
    have hone : one.errand = .exit := congrArg Letter.errand (hothers one List.mem_cons_self)
    have hother : other.errand = .exit :=
      congrArg Letter.errand (hothers other (List.mem_cons_of_mem _ List.mem_cons_self))
    have hbefore := (List.pairwise_cons.mp hordered).1 other List.mem_cons_self
    rcases hbefore.exit hone with hreply | ⟨hrough, -⟩
    · rw [hother] at hreply
      cases hreply
    · exact absurd hcalm hrough

namespace Desk

variable {R : Letter → Letter → Prop} {d next : Desk} {streams more : List Stream} {t : TaskId}

/-- Whatever was written in a session, or is to be written in the last one, is in order. -/
structure IsSorted (R : Letter → Letter → Prop) (d : Desk) (streams : List Stream) : Prop where
  older : ∀ stream ∈ streams.tail, stream.letters.Pairwise R
  mail : (d.mail streams).Pairwise R

theorem IsSorted.written (h : d.IsSorted R streams) :
    ∀ stream ∈ streams, stream.letters.Pairwise R := by
  intro stream hstream
  cases streams with
  | nil => cases hstream
  | cons last older =>
    rcases List.mem_cons.mp hstream with rfl | hmem
    · exact h.mail.sublist (List.sublist_append_left _ _)
    · exact h.older stream hmem

/-- The order is kept if what is added goes with what there is. -/
theorem IsSorted.mails (h : d.IsSorted R streams) (hmails : d.Mails t streams next more)
    (hask : ∀ old message errand, d.writer.isSome = true → d.phases[t]? = some old →
      old.isAtWriter = false → next.phases[t]? = some (.lockWriter (.send message errand)) →
      ∀ first ∈ d.mail streams, R first ⟨t, message, errand⟩)
    (hinstall : d.isIn Phase.isInstalling t = true → ∀ u first, u ≠ t →
      d.letterOf? u = some first → ∀ later, R first later) : next.IsSorted R more := by
  cases hmails with
  | keep htail hmail => exact ⟨htail ▸ h.older, h.mail.sublist hmail⟩
  | ask hwriter hold hleaves hphase hmail =>
    refine ⟨h.older, ?_⟩
    rw [hmail, List.pairwise_append]
    refine ⟨h.mail, List.pairwise_singleton _ _, ?_⟩
    intro first hfirst later hlater
    rw [List.mem_singleton.mp hlater]
    exact hask _ _ _ hwriter hold hleaves hphase first hfirst
  | install hinstalling htail hmail =>
    refine ⟨htail ▸ h.written, List.pairwise_of_forall_mem_list ?_⟩
    intro first hfirst later _
    obtain ⟨u, hne, hletter⟩ := hmail first hfirst
    exact hinstall hinstalling u first hne hletter later

end Desk

/-- Whether a task with this duty is a stop that has a request to shut down, or at least tears the
session down, and has not closed the writer. -/
def Duty.isParting : Duty → Bool
  | .parting => true
  | .quitting => true
  | .tearing ending => ending.isStop
  | .releasing ending => ending.isStop
  | _ => false

theorem Duty.isLocked_of_parting {duty : Duty} (h : duty.isParting = true) :
    duty.isLocked = true := by
  cases duty with
  | parting | quitting | tearing | releasing => rfl
  | _ => cases h

/-- Whether a task in this phase is a stop that has at least asked for the writer in order to have
the server shut down, and has not closed the writer. -/
def Phase.isParting (phase : Phase) : Bool := !phase.isRegistered && phase.duty.isParting

/-- Whether a task in this phase is about to ask for the writer for a call of a user, or for the
cancellation of a request. -/
def Phase.intrudes : Phase → Bool
  | .admitted (.notification _ _) => true
  | .registered _ d => (Errand.request d).isTraffic
  | .revoked _ => true
  | _ => false

theorem Phase.parting_of_letter {phase : Phase} {t : TaskId} (h : phase.letter? t = some letter)
    (hfarewell : letter.errand.isFarewell = true) : phase.isParting = true := by
  have herrand (message : Message) (errand : Errand) (h : errand.isFarewell = true) :
      (errand.duty message).isParting = true := by
    cases errand with
    | exit => rfl
    | request d =>
      obtain ⟨id, method, after, purpose⟩ := d
      cases purpose with
      | shutdown => rfl
      | user | handshake => cases h
    | notification | cancellation | initialized | reply => cases h
  unfold Phase.letter? at h
  split at h
  · cases h
    exact herrand _ _ hfarewell
  · cases h
    exact herrand _ _ hfarewell
  · cases h

namespace View

variable {v next : View} {log : List Message} {t u : TaskId} {duty : Duty}

/-- A client that shuts down does so until its session has ended. -/
theorem Turn.shuts_down (hcoherent : v.IsCoherent log) (htidy : v.IsTidy) (hturn : v.Turn t next)
    (hstate : v.state = .shuttingDown) (hwriter : next.writer.isSome = true) :
    next.state = .shuttingDown := by
  have hfailed : v.state.failed = .shuttingDown := by rw [hstate]; rfl
  cases hturn with
  | fail | lose => exact hfailed
  | halt | dismiss | quit => rfl
  | begin _ _ hother | misfire _ _ hother | greet _ hother | stumble _ hother
  | complete _ hother => cases hstate.symm.trans hother
  | giveUp hduty hstage =>
    have hfits := hcoherent.fits _ _ hduty
    rcases hstage with ⟨c, rfl⟩ | rfl | rfl
    · rcases hfits.2 with hother | hother <;> cases hstate.symm.trans hother
    · rcases hfits with hother | hother <;> cases hstate.symm.trans hother
    · rcases hfits.1 with hother | hother <;> cases hstate.symm.trans hother
  | conclude hduty =>
    have hsome : v.writer.isSome = true := hwriter
    rw [(htidy.lacks _ _ hduty).2] at hsome
    cases hsome
  | _ => exact hstate

/-- A stop goes on until it has closed the writer. -/
theorem Turn.parting_after (htidy : v.IsTidy) (hneat : next.IsTidy) (hturn : v.Turn t next)
    (hduty : v.duty? u = some duty) (hparting : duty.isParting = true)
    (hwriter : next.writer.isSome = true) :
    ∃ after, next.duty? u = some after ∧ after.isParting = true := by
  have hstop : duty.isStop = true := by
    cases duty with
    | parting | quitting => rfl
    | tearing | releasing => exact hparting
    | _ => cases hparting
  by_cases htu : t = u
  · subst htu
    rcases stop_turn htidy hturn hduty hstop with ⟨later, hlater, hstill, hlocked⟩ | ⟨-, hends⟩
    · refine ⟨later, hlater, ?_⟩
      have howns := hlocked (Duty.isLocked_of_parting hparting)
      cases later with
      | parting | quitting => rfl
      | tearing | releasing => exact hstill
      | closed ending =>
        -- The writer of a session that is closed is gone.
        rw [(hneat.lacks _ _ hlater).2] at hwriter
        cases hwriter
      | asking | waiting => cases howns
      | _ => cases hstill
    · rw [(hneat.vacant hends).1] at hwriter
      cases hwriter
  · exact ⟨duty, hturn.duty_other htu hduty, hparting⟩

end View

namespace Machine

variable {calm : Prop} {m : Machine} {log : List Message} {streams : List Stream} {t u : TaskId}

/-- Whether a stop is under way that has not closed the writer yet. -/
def isParting (m : Machine) : Bool := m.desk.phases.any Phase.isParting

theorem isParting_iff (m : Machine) : m.isParting = true ↔
    ∃ (t : TaskId) (phase : Phase), m.desk.phases[t]? = some phase ∧ phase.isParting = true := by
  rw [isParting, List.any_eq_true]
  constructor
  · rintro ⟨phase, hmem, hparting⟩
    obtain ⟨t, ht⟩ := List.mem_iff_getElem?.mp hmem
    exact ⟨t, phase, ht, hparting⟩
  · rintro ⟨t, phase, hphase, hparting⟩
    exact ⟨phase, List.mem_of_getElem? hphase, hparting⟩

/-- A stop that is under way has the lifecycle lock. -/
theorem owned_of_parting {phase : Phase} (hcoherent : m.view.IsCoherent log)
    (hphase : m.desk.phases[t]? = some phase) (hparting : phase.isParting = true) :
    m.view.owner = some t :=
  hcoherent.owned t _ (desk_duty hphase)
    (Duty.isLocked_of_parting (Bool.and_eq_true_iff.mp hparting).2)

/-- A stop that is under way goes on until it has closed the writer. -/
theorem parting_after (htidy : m.view.IsTidy) (hneat : (m.perform (.turn t)).view.IsTidy)
    (hparting : m.isParting = true) (hwriter : (m.perform (.turn t)).writer.isSome = true) :
    (m.perform (.turn t)).isParting = true := by
  obtain ⟨u, phase, hphase, hunderWay⟩ := m.isParting_iff.mp hparting
  obtain ⟨hother, hduty⟩ := Bool.and_eq_true_iff.mp hunderWay
  have hturn := (perform_desk htidy (.turn t)).turn_of
  by_cases htu : t = u
  · subst htu
    obtain ⟨after, hafter, hgoes⟩ := (perform_step m (.turn t)).turn_of.parting_after htidy hneat
      (desk_duty hphase) hduty hwriter
    obtain ⟨new, hnew, rfl⟩ := phase_of_duty hafter
    refine (isParting_iff _).mpr ⟨t, new, hnew, Bool.and_eq_true_iff.mpr ⟨?_, hgoes⟩⟩
    -- It has asked for the writer before, so it is not about to do so with the same request.
    rw [Bool.not_eq_true', Bool.eq_false_iff]
    intro hregistered
    obtain ⟨message, d, hregisters⟩ := registers_of_turn htidy hphase
      ((Bool.not_eq_true' _).mp hother) hnew hregistered
    cases hregisters <;> cases hduty
  · exact (isParting_iff _).mpr ⟨u, phase, hturn.phase_other htu hphase, hunderWay⟩

/-- When a session gets its writer, nobody has a farewell for it. -/
theorem no_farewell_at_install (hcoherent : m.view.IsCoherent log)
    (hinstalling : m.desk.isIn Phase.isInstalling t = true) (hne : u ≠ t)
    (hletter : m.desk.letterOf? u = some letter) : letter.errand.isFarewell = false := by
  rw [Bool.eq_false_iff]
  intro hfarewell
  obtain ⟨phase, hphase, htest⟩ := (Option.any_eq_true _ _).mp hinstalling
  have hopening : phase.duty.isLocked = true := by
    unfold Phase.isInstalling at htest
    split at htest
    · rfl
    · cases htest
  have ht := hcoherent.owned t _ (desk_duty hphase) hopening
  obtain ⟨other, hother, hhas⟩ := Option.bind_eq_some_iff.mp hletter
  have hu := owned_of_parting hcoherent hother (Phase.parting_of_letter hhas hfarewell)
  exact hne (Option.some.inj (hu.symm.trans ht))

/-- A farewell that is there after a turn was there before, or the task has just asked for it. -/
theorem farewell_before {more : List Stream} (hcoherent : m.view.IsCoherent log)
    (hmails : m.desk.Mails t streams (m.perform (.turn t)).desk more)
    (hwriter : (m.perform (.turn t)).writer.isSome = true)
    (hletter : letter ∈ (m.perform (.turn t)).desk.mail more)
    (hfarewell : letter.errand.isFarewell = true) :
    m.writer.isSome = true ∧ letter ∈ m.desk.mail streams ∨
      (m.perform (.turn t)).desk.phases[t]? =
        some (.lockWriter (.send letter.message letter.errand)) := by
  cases hmails with
  | keep htail hmail hkept => exact .inl ⟨hkept hwriter, hmail.subset hletter⟩
  | ask hsome hold hleaves hphase hmail =>
    rw [hmail] at hletter
    rcases List.mem_append.mp hletter with hmem | hmem
    · exact .inl ⟨hsome, hmem⟩
    · cases List.mem_singleton.mp hmem
      exact .inr hphase
  | install hinstalling htail hmail =>
    obtain ⟨u, hne, hhas⟩ := hmail letter hletter
    have hnone := no_farewell_at_install hcoherent hinstalling hne hhas
    exact absurd (hnone.symm.trans hfarewell) Bool.false_ne_true

/-- Whether an occurrence disturbs a stop that is under way: a call of a user gets to the writer, or
the stop is dropped. -/
def disturbs (m : Machine) : Occurrence → Bool
  | .turn t => m.isParting && m.desk.isIn Phase.intrudes t
  | .drop t => m.isSuspended t && m.desk.isIn Phase.isParting t
  | _ => false

/-- Whether no stop is disturbed in a run. -/
def isInPeace (m : Machine) : List Occurrence → Bool
  | [] => true
  | occurrence :: rest => !m.disturbs occurrence && (m.perform occurrence).isInPeace rest

/-- What is known of the farewells of a session while it goes on. -/
structure Orders (calm : Prop) (late : List TaskId) (m : Machine) (streams : List Stream) :
    Prop where
  sorted : m.desk.IsSorted (Letter.MayPrecede calm late) streams
  quits : m.writer.isSome = true → ∀ letter ∈ m.desk.mail streams, letter.errand = .exit →
    m.state = .shuttingDown
  /-- If all is calm, there is a farewell only while a stop is under way. -/
  parting : calm → m.writer.isSome = true → ∀ letter ∈ m.desk.mail streams,
    letter.errand.isFarewell = true → m.isParting = true

namespace Orders

theorem asks {old : Phase} {message : Message} (h : m.Orders calm late streams)
    (hcoherent : m.view.IsCoherent log) (hpeace : calm → m.disturbs (.turn t) = false)
    (hlate : m.overtakenBy (.turn t) ⊆ late) (hwriter : m.writer.isSome = true)
    (hold : m.desk.phases[t]? = some old) (hasks : Asks old (.send message errand)) {first : Letter}
    (hfirst : first ∈ m.desk.mail streams) : first.MayPrecede calm late ⟨t, message, errand⟩ := by
  by_cases hfarewell : first.errand.isFarewell = true
  · have hduty := desk_duty hold
    have hparting (hcalm : calm) : m.isParting = true :=
      h.parting hcalm hwriter first hfirst hfarewell
    have hintrudes (hintrudes : old.intrudes = true) : ¬ calm := by
      intro hcalm
      have hquiet := hpeace hcalm
      rw [disturbs, hparting hcalm, Bool.true_and, Desk.isIn_eq hold, hintrudes] at hquiet
      cases hquiet
    -- The stop that is under way has the lifecycle lock, so no other task has it.
    have hlocked (howner : m.view.owner = some t) (hother : old.isParting = false) : ¬ calm := by
      intro hcalm
      obtain ⟨u, phase, hu, hunderWay⟩ := m.isParting_iff.mp (hparting hcalm)
      have hown := owned_of_parting hcoherent hu hunderWay
      cases Option.some.inj (hown.symm.trans howner)
      cases hu.symm.trans hold
      exact absurd (hother.symm.trans hunderWay) Bool.false_ne_true
    have hopen (hstate : m.state ≠ .shuttingDown) : first.errand ≠ .exit := fun hexit =>
      hstate (h.quits hwriter first hfirst hexit)
    have hnever (hstate : m.state ≠ .shuttingDown) (hrough : ¬ calm) :
        first.MayPrecede calm late ⟨t, message, errand⟩ :=
      ⟨fun _ hcalm => absurd hcalm hrough, fun hexit => absurd hexit (hopen hstate)⟩
    -- A call of a user that gets here after the message to exit was overtaken.
    have htraffic (hintruding : old.intrudes = true) (hadmitted : old.isAdmitted = true)
        (herrand : errand.isTraffic = true) :
        first.MayPrecede calm late ⟨t, message, errand⟩ := by
      have hrough := hintrudes hintruding
      refine ⟨fun _ hcalm => absurd hcalm hrough, fun hexit => .inr ⟨hrough, .inr ⟨herrand, ?_⟩⟩⟩
      rcases lets_of_admitted hold hadmitted with hstate | hovertaken
      · exact absurd hexit (hopen fun hends => by cases hstate.symm.trans hends)
      · exact hlate hovertaken
    cases hasks with
    | @send message d =>
      obtain ⟨id, method, after, purpose⟩ := d
      cases purpose with
      | user => exact htraffic rfl rfl rfl
      | handshake =>
        refine hnever (fun hends => ?_) (hlocked (hcoherent.owned t _ hduty rfl) rfl)
        rcases hcoherent.fits t _ hduty with hstate | hstate <;> cases hstate.symm.trans hends
      | shutdown =>
        refine hnever (fun hends => ?_) (hlocked (hcoherent.owned t _ hduty rfl) rfl)
        rcases hcoherent.fits t _ hduty with hstate | hstate | hstate <;>
          cases hstate.symm.trans hends
    | notify => exact htraffic rfl rfl rfl
    | tell =>
      have hrough := hintrudes rfl
      exact ⟨fun _ hcalm => absurd hcalm hrough, fun _ => .inr ⟨hrough, .inl rfl⟩⟩
    | reply => exact ⟨fun _ _ => .inl rfl, fun _ => .inl rfl⟩
    | @confirm d result hpurpose =>
      have hgreeting : (Phase.answered d (.ok result)).duty = .greeting :=
        congrArg Purpose.duty hpurpose
      have hother : (Phase.answered d (.ok result)).isParting = false := by
        rw [Phase.isParting, hgreeting]
        rfl
      rw [hgreeting] at hduty
      refine hnever (fun hends => ?_) (hlocked (hcoherent.owned t _ hduty rfl) hother)
      rcases hcoherent.fits t _ hduty with hstate | hstate <;> cases hstate.symm.trans hends
    | @quit d outcome hpurpose =>
      have hstops : (Phase.answered d outcome).duty = .parting :=
        congrArg Purpose.duty hpurpose
      rw [hstops] at hduty
      refine ⟨fun _ _ => .inr rfl, fun hexit => absurd hexit (hopen fun hends => ?_)⟩
      rcases hcoherent.fits t _ hduty with hstate | hstate | hstate <;>
        cases hstate.symm.trans hends
  · exact Letter.mayPrecede_of_not_farewell (Bool.not_eq_true _ ▸ hfarewell) _

/-- What happens besides turns leaves a stop under way, unless it disturbs it. -/
theorem parting_outside (htidy : m.view.IsTidy) (hturn : ∀ t, occurrence ≠ .turn t)
    (hpeace : m.disturbs occurrence = false) (hparting : m.isParting = true) :
    (m.perform occurrence).isParting = true := by
  obtain ⟨u, phase, hphase, hunderWay⟩ := m.isParting_iff.mp hparting
  by_cases hdrop : occurrence = .drop u
  · subst hdrop
    rw [disturbs, Desk.isIn_eq hphase, hunderWay, Bool.and_true] at hpeace
    rw [Machine.perform, hpeace]
    exact hparting
  · have hstays := (perform_desk htidy occurrence).phase_other (hturn u) hdrop hphase
    exact (isParting_iff _).mpr ⟨u, phase, hstays, hunderWay⟩

theorem turn (h : m.Orders calm late streams) (hfollows : m.Follows late log streams)
    (hlate : m.overtakenBy (.turn t) ⊆ late) (hpeace : calm → m.disturbs (.turn t) = false) :
    (m.perform (.turn t)).Orders calm late (record (m.output? (.turn t)) streams) := by
  have hdesk := (perform_desk hfollows.tidy (.turn t)).turn_of
  have hmails := hdesk.mails hfollows.line hfollows.kept.written
  have hnext := hfollows.perform hlate
  have hview := (perform_step m (.turn t)).turn_of
  refine ⟨h.sorted.mails hmails ?_ ?_, ?_, ?_⟩
  · intro old message errand hwriter hold hleaves hphase first hfirst
    have hasks := asks_of_turn hfollows.tidy hold hleaves hphase
    exact h.asks hfollows.coherent hpeace hlate hwriter hold hasks hfirst
  · intro hinstalling u first hne hletter
    exact Letter.mayPrecede_of_not_farewell
      (no_farewell_at_install hfollows.coherent hinstalling hne hletter)
  · intro hwriter letter hletter hexit
    rcases farewell_before hfollows.coherent hmails hwriter hletter (by rw [hexit]; rfl) with
      ⟨hsome, hmem⟩ | hasks
    · exact hview.shuts_down hfollows.coherent hfollows.tidy (h.quits hsome letter hmem hexit)
        hwriter
    · rw [hexit] at hasks
      exact hnext.coherent.fits t _ (desk_duty hasks)
  · intro hcalm hwriter letter hletter hfarewell
    rcases farewell_before hfollows.coherent hmails hwriter hletter hfarewell with
      ⟨hsome, hmem⟩ | hasks
    · have hparting := h.parting hcalm hsome letter hmem hfarewell
      exact parting_after hfollows.tidy hnext.tidy hparting hwriter
    · have hhas : (Phase.lockWriter (.send letter.message letter.errand)).letter? t =
          some ⟨t, letter.message, letter.errand⟩ := rfl
      exact (isParting_iff _).mpr ⟨t, _, hasks, Phase.parting_of_letter hhas hfarewell⟩

theorem perform (h : m.Orders calm late streams) (hfollows : m.Follows late log streams)
    (hlate : m.overtakenBy occurrence ⊆ late) (hpeace : calm → m.disturbs occurrence = false) :
    (m.perform occurrence).Orders calm late (record (m.output? occurrence) streams) := by
  have houtside (hturn : ∀ t, occurrence ≠ .turn t) :
      (m.perform occurrence).Orders calm late streams := by
    obtain ⟨hmail, hwriter⟩ :=
      (perform_desk hfollows.tidy occurrence).mail_outside streams hfollows.line hturn
    have hbefore (hsome : (m.perform occurrence).desk.writer.isSome = true) :
        m.desk.writer.isSome = true := by
      rw [← hwriter]
      exact hsome
    refine ⟨⟨h.sorted.older, h.sorted.mail.sublist hmail⟩, ?_, ?_⟩
    · intro hsome letter hletter hexit
      have hstate : (m.perform occurrence).state = m.state :=
        (perform_step m occurrence).state_eq hturn
      rw [hstate]
      exact h.quits (hbefore hsome) letter (hmail.subset hletter) hexit
    · intro hcalm hsome letter hletter hfarewell
      exact parting_outside hfollows.tidy hturn (hpeace hcalm)
        (h.parting hcalm (hbefore hsome) letter (hmail.subset hletter) hfarewell)
  cases occurrence with
  | turn t => exact h.turn hfollows hlate hpeace
  | _ => exact houtside nofun

end Orders

/-- The farewells of the sessions of a run are in order. -/
theorem run_orders (h : m.Orders calm late streams) (hfollows : m.Follows late log streams)
    {occurrences : List Occurrence} (hlate : m.overtaken occurrences ⊆ late)
    (hpeace : calm → m.isInPeace occurrences = true) :
    (m.run occurrences).Orders calm late (m.streams streams occurrences) := by
  induction occurrences generalizing m log streams with
  | nil => exact h
  | cons occurrence rest ih =>
    simp only [isInPeace, Bool.and_eq_true, Bool.not_eq_true'] at hpeace
    obtain ⟨hfirst, hrest⟩ := List.append_subset.mp hlate
    exact ih (h.perform hfollows hfirst fun hcalm => (hpeace hcalm).1) (hfollows.perform hfirst)
      hrest fun hcalm => (hpeace hcalm).2

theorem unused_orders (setup : Setup) : (unused setup).Orders calm late [] where
  sorted := ⟨List.forall_mem_nil _, .nil⟩
  quits := nofun
  parting := nofun

/-- In every session nothing is written after the message to exit but answers to the server,
cancellations, and what was overtaken; nothing is if every call goes on as soon as it is admitted.
If nobody disturbs a stop, all that is written after the request to shut down,
answers aside, is one message to exit. While a stop waits for the answer to that request, the state
does not say that the client shuts down. -/
theorem sessions_parted (setup : Setup) (occurrences : List Occurrence) :
    let start := unused setup
    let m := start.run occurrences
    let streams := start.streams [] occurrences
    let late := start.overtaken occurrences
    (∀ stream ∈ streams, stream.letters.Pairwise fun first later => first.errand = .exit →
      later.errand.isReply = true ∨ later.errand = .cancellation ∨
        later.errand.isTraffic = true ∧ later.sender ∈ late) ∧
    (start.isPrompt occurrences = true → late = []) ∧
    (start.isInPeace occurrences = true → ∀ stream ∈ streams, IsParted stream.letters) ∧
    ∀ (t : TaskId) (task : Task) (dispatch : Dispatch) (deadline : Time.Duration),
      m.tasks[t]? = some task → task.phase = .awaiting dispatch deadline →
        dispatch.purpose = .shutdown → m.state ≠ .shuttingDown := by
  intro start m streams late
  have hstart : start.Follows late [] [] := unused_follows setup
  have horders : m.Orders (start.isInPeace occurrences = true) late streams :=
    run_orders (unused_orders ..) hstart (List.Subset.refl late) id
  refine ⟨?_, overtaken_of_prompt (unused_regular setup) nofun, ?_, ?_⟩
  · intro stream hstream
    refine (horders.sorted.written stream hstream).imp ?_
    intro first later hmay hexit
    exact (hmay.exit hexit).imp_right And.right
  · intro hpeace stream hstream
    exact isParted_of_pairwise hpeace (horders.sorted.written stream hstream)
  · intro t task dispatch deadline htask hphase hpurpose hends
    have hparting : task.phase.duty = .parting := by
      rw [hphase]
      exact congrArg Purpose.duty hpurpose
    have hduty : m.view.duty? t = some .parting := (view_duty htask).trans (congrArg some hparting)
    have hcoherent := (run_follows hstart (List.Subset.refl late)).coherent
    rcases hcoherent.fits t _ hduty with hstate | hstate | hstate <;>
      cases hstate.symm.trans hends

/-- The server asks something while a stop waits, gets its answer, and lets the client go. -/
theorem sessions_parted_answering :
    let inquiry := Rpc.Message.request (.number 7) "window/workDoneProgress/create" none
    let occurrences := handshake ++ [.call (.notify "saved" none)] ++
      List.replicate 5 (.turn 2) ++ [.call .stop] ++ List.replicate 6 (.turn 3) ++
      [.arrive 0 (.octets (Wire.encode inquiry.toValue)), .turn 1] ++
      List.replicate 4 (.turn 4) ++ [respond (.number 2) .null, .turn 1] ++
      List.replicate 6 (.turn 3)
    let streams := sampleClient.streams [] occurrences
    sampleClient.isInPeace occurrences = true ∧
      streams.map (fun stream => stream.letters.map fun letter =>
        (letter.errand.isTraffic, letter.errand.isFarewell, letter.errand.isReply)) =
        [[(false, false, false), (false, false, false), (true, false, false),
          (false, true, false), (false, false, true), (false, true, false)]] ∧
      ∀ stream ∈ streams, IsParted stream.letters := by
  intro inquiry occurrences streams
  have hpeace : sampleClient.isInPeace occurrences = true := by decide +kernel
  exact ⟨hpeace, by decide +kernel, (sessions_parted _ occurrences).2.2.1 hpeace⟩

/-- A request that a user makes while a stop waits is written after the request to shut down. -/
theorem late_request_written :
    let occurrences := handshake ++ [.call .stop] ++ List.replicate 6 (.turn 2) ++
      [.call (.request "late" none none none)] ++ List.replicate 6 (.turn 3)
    (sampleClient.run occurrences).state = .initialized ∧
      ∃ stream ∈ sampleClient.streams [] occurrences, ¬ IsParted stream.letters := by
  intro occurrences
  let stream := (sampleClient.streams [] occurrences).headD ⟨0, []⟩
  let shutdown : Letter := ⟨2, .request (.number 2) "shutdown" none,
    .request ⟨.number 2, "shutdown", sampleClient.options.shutdownTimeout, .shutdown⟩⟩
  let late : Letter := ⟨3, .request (.number 3) "late" none,
    .request ⟨.number 3, "late", sampleClient.options.requestTimeout, .user none⟩⟩
  have hletters : stream.letters = stream.letters.take 2 ++ shutdown :: [late] := by decide +kernel
  refine ⟨by decide +kernel, stream, List.mem_of_mem_head? (by decide +kernel), ?_⟩
  intro hparted
  rcases hparted _ _ _ hletters rfl with hnone | ⟨t, hgoodbye⟩
  · cases hnone
  · have herrands := congrArg (List.map Letter.errand) hgoodbye
    cases herrands

end Machine

end CodeAtlas.Client
