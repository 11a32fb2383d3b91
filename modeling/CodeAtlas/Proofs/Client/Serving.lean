import CodeAtlas.Proofs.Client.Gating
import CodeAtlas.Proofs.Client.Stopping
import CodeAtlas.Proofs.Wire.Chunks
import Mathlib.Data.List.Basic

/-!
# How the server is served

What a server sends arrives in portions of any size. A reading loop takes them in turn by turn
(`Intake`), and the frames that are complete have their effects in their order (`handle_all_eq`): a
response resolves a request, a notification is handled, and a request of the server starts a task
that writes the answer. A frame that is no message is only reported (`handle_all_without`).

A `Tally` compares what has been taken in with what the tasks have made of it: the frames are those
of all the octets in a row, and every request of the server has one answer, which its task keeps
until it tries to write it (`Passes`). The tally is right along every run (`IsServing.run`), so the
server is served (`server_served`).
-/

namespace CodeAtlas.Client

open Json (Value)
open Rpc (Message RequestId)

/-- The answers that the requests of a server get. -/
inductive IsAnswer (folders : Value) (id : RequestId) : String → Option Value → Message → Prop where
  | configuration {params : Value} {items : List Value}
      (hitems : params.member? "items" = some (.arr items)) :
      IsAnswer folders id "workspace/configuration" (some params)
        (.success id (.arr (List.replicate items.length .null)))
  | noConfiguration {params : Option Value}
      (hitems : ∀ value items, params = some value → value.member? "items" ≠ some (.arr items)) :
      IsAnswer folders id "workspace/configuration" params (.success id (.arr []))
  | folders {params : Option Value} :
      IsAnswer folders id "workspace/workspaceFolders" params (.success id folders)
  | acknowledgement {method : String} {params : Option Value} (hmethod : method ∈ acknowledged) :
      IsAnswer folders id method params (.success id .null)
  | refusal {method : String} {params : Option Value} {e : Rpc.ResponseError}
      (hmethod : method ∉ "workspace/configuration" :: "workspace/workspaceFolders" :: acknowledged)
      (hcode : e.code = -32601) : IsAnswer folders id method params (.failure id e)

theorem answerTo_is_answer (folders : Value) (id : RequestId) (method : String)
    (params : Option Value) :
    IsAnswer folders id method params (answerTo folders id method params) := by
  fun_cases answerTo with
  | case1 hmethod =>
    subst hmethod
    rcases params with _ | value
    · exact .noConfiguration nofun
    · rw [itemCount, Option.bind_some]
      rcases hitems : value.member? "items" with _ | _ | _ | _ | _ | items | _
      case some.arr => exact .configuration hitems
      all_goals exact .noConfiguration (by rintro _ items ⟨⟩; simp [hitems])
  | case2 _ hmethod => exact hmethod ▸ .folders
  | case3 _ _ hmethod => exact .acknowledgement (List.contains_iff_mem.mp hmethod)
  | case4 hconfiguration hfolders hmethod => exact .refusal (by simp_all) rfl

/-- What a frame from the server leads to. -/
inductive Effect where
  | reply (inquiry : Inquiry)
  | resolution (id : RequestId) (outcome : Outcome)
  | notification (method : String) (params : Option Value)
  | report (text : String) (error : Error)

def effectOf : Except Wire.FrameError Value → Effect
  | .error e => .report "skipping malformed LSP frame" (.frame e)
  | .ok value =>
    match Message.ofValue value with
    | .error e => .report "dropping JSON-RPC message" (.message e)
    | .ok (.response id result error) => .resolution id (Machine.outcomeOf result error)
    | .ok (.request id method params) => .reply ⟨id, method, params⟩
    | .ok (.notification method params) => .notification method params

def Effect.isReport : Effect → Bool
  | .report _ _ => true
  | _ => false

namespace Machine

variable {m : Machine} {t : TaskId}

def apply (m : Machine) : Effect → Machine
  | .reply inquiry => m.spawn (inquiry.reply m.folders)
  | .resolution id outcome => m.resolve id outcome
  | .notification method params => m.handleNotification method params
  | .report text error => m.note .warn text [("error", error.text)]

theorem handle_all_eq (frames : List (Except Wire.FrameError Value)) (m : Machine) :
    m.handleAll frames = (frames.map effectOf).foldl apply m := by
  fun_induction handleAll with
  | case1 => rfl
  | case2 m value rest ih =>
    have hvalue : m.handle value = m.apply (effectOf (.ok value)) := by
      fun_cases handle <;> simp [effectOf, apply, Inquiry.reply, *]
    rw [ih, hvalue]
    rfl
  | case3 m e rest ih => exact ih

theorem apply_log (m : Machine) (log : List Logging.Event) (effect : Effect) :
    ∃ later, { m with log }.apply effect = { m.apply effect with log := later } := by
  cases effect with
  | reply | report => exact ⟨_, rfl⟩
  | resolution id outcome =>
    have hwake (m : Machine) (t : TaskId) : { m with log }.wake t = { m.wake t with log } := by
      simp only [wake]
      rcases m.tasks[t]? with _ | ⟨phase, inbox, _ | _, isAborted, joiner⟩
      · rfl
      · cases phase <;> rfl
      · rfl
    refine ⟨log, ?_⟩
    simp only [apply, resolve]
    cases m.pending.find? fun entry => entry.id == id with
    | none => rfl
    | some entry =>
      let struck := { m with pending := m.pending.filter fun other => other.id != id }
      exact hwake (struck.setTask entry.owner _) entry.owner
  | notification method params =>
    simp only [apply, handleNotification]
    rcases m.handlers.lookup method with _ | _ | _
    case some.forward =>
      simp only [forward]
      split <;> exact ⟨_, rfl⟩
    all_goals exact ⟨log, rfl⟩

theorem apply_all_log (effects : List Effect) (m : Machine) (log : List Logging.Event) :
    ∃ later, effects.foldl apply { m with log } = { effects.foldl apply m with log := later } := by
  induction effects generalizing m log with
  | nil => exact ⟨log, rfl⟩
  | cons effect rest ih =>
    obtain ⟨middle, hmiddle⟩ := m.apply_log log effect
    obtain ⟨later, hlater⟩ := ih (m.apply effect) middle
    exact ⟨later, by rw [List.foldl_cons, hmiddle, hlater, List.foldl_cons]⟩

/-- A frame that is only reported leaves the effects of the others as they are. -/
theorem handle_all_without {frame : Except Wire.FrameError Value}
    (h : (effectOf frame).isReport = true) (first rest : List (Except Wire.FrameError Value))
    (m : Machine) :
    ∃ log, m.handleAll (first ++ frame :: rest) = { m.handleAll (first ++ rest) with log } := by
  simp only [handle_all_eq, List.map_append, List.map_cons, List.foldl_append, List.foldl_cons]
  generalize (first.map effectOf).foldl apply m = middle
  cases heffect : effectOf frame with
  | report text error => exact apply_all_log _ middle _
  | reply | resolution | notification =>
    rw [heffect] at h
    cases h

end Machine

/-- An answer to a request of the server, and the method of the request. -/
structure Answer where
  message : Message
  method : String
deriving DecidableEq

/-- The answer that a task in this phase has to bring to the server. -/
def Phase.answer? : Phase → Option Answer
  | .reply message method => some ⟨message, method⟩
  | .lockWriter (.send message (.reply method)) => some ⟨message, method⟩
  | .writing message (.reply method) => some ⟨message, method⟩
  | _ => none

/-- The attempt to write an answer with which a task goes on to another phase, and whether it has
succeeded. -/
def Phase.attempt? (old : Phase) : Phase → Option (Answer × Bool)
  | .sent (.reply _) result => old.answer?.map fun answer => (answer, result.isOk)
  | _ => none

/-- The answer to a request of the server. -/
def Inquiry.answer (folders : Value) (inquiry : Inquiry) : Answer :=
  ⟨answerTo folders inquiry.id inquiry.method inquiry.params, inquiry.method⟩

/-- The octets that a reading loop has taken in. -/
def octetsOf (r : TaskId) (intakes : List Intake) : Bytes :=
  (intakes.filter fun intake => intake.reader = r).flatMap Intake.octets

/-- The frames that a reading loop has handled. -/
def framesOf (r : TaskId) (intakes : List Intake) : List (Except Wire.FrameError Value) :=
  (intakes.filter fun intake => intake.reader = r).flatMap Intake.frames

/-- The answers to the requests of the server that a reading loop has taken in. -/
def Intake.answers (intake : Intake) : List Answer :=
  (intake.frames.filterMap inquiry?).map (Inquiry.answer intake.folders)

/-- Draining a buffer, and draining it again after more octets, is draining it with all octets. -/
theorem drains_extend {buffer rest final : Wire.Buffer}
    {first second : List (Except Wire.FrameError Value)} (bytes : Bytes)
    (hfirst : buffer.Drains first rest) (hsecond : (rest.extend bytes).Drains second final) :
    (buffer.extend bytes).Drains (first ++ second) final := by
  induction hfirst with
  | done => exact hsecond
  | cons hnext _ ih => exact .cons (Wire.Buffer.next_extend bytes hnext) (ih hsecond)

theorem count_set {f : Phase → Option Answer} {phases : List Phase} {t : TaskId} {old : Phase}
    (h : phases[t]? = some old) (new : Phase) (answer : Answer) :
    ((phases.set t new).filterMap f).count answer + (f old).toList.count answer =
      (phases.filterMap f).count answer + (f new).toList.count answer := by
  simp only [List.filterMap_eq_flatMap_toList]
  induction phases generalizing t with
  | nil => cases h
  | cons first rest ih =>
    cases t with
    | zero =>
      obtain rfl : first = old := Option.some.inj h
      simp only [List.set_cons_zero, List.flatMap_cons, List.count_append]
      omega
    | succ t =>
      have hrest := ih h
      simp only [List.set_cons_succ, List.flatMap_cons, List.count_append]
      omega

/-- How a task goes on that does not read: whatever answer it has, it keeps or tries to write. -/
structure Passes (old new : Phase) : Prop where
  reading : ∀ c buffer, new ≠ .reading c buffer
  answer : new.answer? = old.answer? ∧ old.attempt? new = none ∨
    new.answer? = none ∧ (old.attempt? new).map Prod.fst = old.answer?

/-- What has been taken in, what has been tried to write and what the tasks still have to do agree:
the frames are those of the octets, and each request has one answer that was tried to be written or
that a task has. -/
structure Tally (limit : Nat) (phases : List Phase) (intakes : List Intake)
    (attempts : List (Answer × Bool)) : Prop where
  known : ∀ intake ∈ intakes, intake.reader < phases.length
  frames : ∀ r, ∃ rest,
    (Wire.Buffer.extend { limit } (octetsOf r intakes)).Drains (framesOf r intakes) rest ∧
      ∀ c buffer, phases[r]? = some (.reading c buffer) → buffer = rest
  answers : (phases.filterMap Phase.answer? ++ attempts.map Prod.fst).Perm
    (intakes.flatMap Intake.answers)

namespace Tally

variable {limit : Nat} {phases : List Phase} {intakes : List Intake}
  {attempts : List (Answer × Bool)} {t : TaskId} {old new : Phase}
  (h : Tally limit phases intakes attempts)

include h

/-- Tasks are started that have no answer; the reading loops among them have taken in nothing. -/
theorem spawn {spawned : List Phase}
    (hspawned : ∀ phase ∈ spawned, phase.answer? = none ∧
      ∀ c buffer, phase = .reading c buffer → buffer = { limit }) :
    Tally limit (phases ++ spawned) intakes attempts := by
  refine ⟨?_, ?_, ?_⟩
  · intro intake hintake
    exact Nat.lt_of_lt_of_le (h.known intake hintake) (by simp)
  · intro r
    obtain ⟨rest, hdrains, hrest⟩ := h.frames r
    refine ⟨rest, hdrains, fun c buffer hr => ?_⟩
    rcases item_appended hr with hr | ⟨hfresh, hnew⟩
    · exact hrest c buffer hr
    · have hnone : intakes.filter (fun intake => intake.reader = r) = [] := by
        rw [List.filter_eq_nil_iff]
        intro intake hintake
        have hknown := Nat.lt_of_lt_of_le (h.known intake hintake) hfresh
        simp [Nat.ne_of_lt hknown]
      rw [octetsOf, framesOf, hnone] at hdrains
      rw [(hspawned _ hnew).2 c buffer rfl]
      exact ((Wire.Buffer.drain_drains { limit }).unique hdrains).2
  · have hnone : spawned.filterMap Phase.answer? = [] :=
      List.filterMap_eq_nil_iff.mpr fun phase hphase => (hspawned phase hphase).1
    rw [List.filterMap_append, hnone, List.append_nil]
    exact h.answers

theorem pass (hold : phases[t]? = some old) (hpasses : Passes old new) :
    Tally limit (phases.set t new) intakes (attempts ++ (old.attempt? new).toList) := by
  refine ⟨by simpa using h.known, ?_, ?_⟩
  · intro r
    obtain ⟨rest, hdrains, hrest⟩ := h.frames r
    refine ⟨rest, hdrains, fun c buffer hr => ?_⟩
    rw [List.getElem?_set] at hr
    split at hr
    · split at hr
      · exact absurd (Option.some.inj hr) (hpasses.reading c buffer)
      · cases hr
    · exact hrest c buffer hr
  · rw [List.perm_iff_count]
    intro answer
    have hset := count_set (f := Phase.answer?) hold new answer
    have hsum := h.answers.count_eq answer
    rw [List.count_append] at hsum
    rw [List.map_append, List.count_append, List.count_append, ← Option.toList_map]
    rcases hpasses.answer with ⟨hsame, hnone⟩ | ⟨hnone, hattempt⟩
    · rw [hsame] at hset
      simp only [hnone, Option.map_none, Option.toList_none, List.count_nil]
      omega
    · rw [hnone] at hset
      simp only [hattempt, Option.toList_none, List.count_nil] at hset ⊢
      omega

/-- A reading loop takes something in, and starts the tasks that answer the requests in it. -/
theorem take {c : ConnectionId} {buffer : Wire.Buffer}
    (hold : phases[t]? = some (.reading c buffer)) (bytes : Bytes) (folders : Value) :
    let drained := (buffer.extend bytes).drain
    Tally limit
      ((phases ++ (drained.1.filterMap inquiry?).map (Inquiry.reply folders)).set t
        (.reading c drained.2))
      (intakes ++ [⟨t, bytes, drained.1, folders⟩]) attempts := by
  intro drained
  obtain ⟨hlt, -⟩ := List.getElem?_eq_some_iff.mp hold
  refine ⟨?_, ?_, ?_⟩
  · intro intake hintake
    have hreader : intake.reader < phases.length := by
      rcases List.mem_append.mp hintake with hintake | hintake
      · exact h.known intake hintake
      · rw [List.mem_singleton.mp hintake]
        exact hlt
    exact Nat.lt_of_lt_of_le hreader (by simp)
  · intro r
    obtain ⟨rest, hdrains, hrest⟩ := h.frames r
    by_cases htr : t = r
    · subst htr
      rw [← hrest c buffer hold] at hdrains
      refine ⟨drained.2, ?_, fun d other hr => ?_⟩
      · have hall : (Wire.Buffer.extend { limit } (octetsOf t intakes ++ bytes)).Drains
            (framesOf t intakes ++ drained.1) drained.2 :=
          drains_extend bytes hdrains (Wire.Buffer.drain_drains _)
        simpa [octetsOf, framesOf] using hall
      · rw [List.getElem?_set_self (by simp; omega)] at hr
        cases hr
        rfl
    · refine ⟨rest, by simpa [octetsOf, framesOf, htr] using hdrains, fun d other hr => ?_⟩
      rw [List.getElem?_set_ne htr] at hr
      rcases item_appended hr with hr | ⟨-, hnew⟩
      · exact hrest d other hr
      · obtain ⟨inquiry, -, hreply⟩ := List.mem_map.mp hnew
        cases hreply
  · have hreplies : ((drained.1.filterMap inquiry?).map (Inquiry.reply folders)).filterMap
        Phase.answer? = (drained.1.filterMap inquiry?).map (Inquiry.answer folders) := by
      rw [List.filterMap_map]
      exact congrFun List.filterMap_eq_map _
    rw [List.set_append_left _ _ hlt, List.filterMap_append, hreplies, List.perm_iff_count]
    intro answer
    have hset := count_set (f := Phase.answer?) hold (.reading c drained.2) answer
    have hsum := h.answers.count_eq answer
    simp only [Phase.answer?, Option.toList_none, List.count_nil] at hset
    simp only [Intake.answers, List.flatMap_append, List.flatMap_cons, List.flatMap_nil,
      List.append_nil, List.count_append] at hsum ⊢
    omega

end Tally

theorem Phase.answer_of_plain {phase : Phase} (h : phase.isPlain = true) :
    phase.answer? = none ∧ ∀ c buffer, phase ≠ .reading c buffer := by
  cases phase with
  | reply | lockWriter | writing | shutting | reading => cases h
  | _ => exact ⟨rfl, nofun⟩

theorem Phase.attempt_of_none {old : Phase} (h : old.answer? = none) (new : Phase) :
    old.attempt? new = none := by
  unfold Phase.attempt?
  split
  · rw [h]
    rfl
  · rfl

theorem Passes.of_plain {old new : Phase} (hold : old.answer? = none) (hnew : new.isPlain = true) :
    Passes old new := by
  obtain ⟨hnone, hreading⟩ := Phase.answer_of_plain hnew
  exact ⟨hreading, .inl ⟨hnone.trans hold.symm, Phase.attempt_of_none hold new⟩⟩

/-- What the server is to be told about a workspace: nothing if that has no URI. -/
def workspaceFolders (folder : Except Error Uri) (workspace : String) : Value :=
  match folder with
  | .ok root => foldersValue root workspace
  | .error _ => .null

/-- What a client says about its workspace comes from one of some folders. -/
def IsKnown (known : Except Error Uri → Prop) (workspace : String) (folders : Value) : Prop :=
  ∃ folder, known folder ∧ folders = workspaceFolders folder workspace

/-- The server is told about the workspace from when its requests are read. -/
def View.IsFurnished (known : Except Error Uri → Prop) (v : View) : Prop :=
  IsKnown known v.workspace v.folders ∨ v.folders = .null ∧ v.reader = none

/-- The start of a reading loop is where the server gets to know about the workspace. -/
theorem View.IsFurnished.step {known : Except Error Uri → Prop} {v next : View}
    {occurrence : Occurrence} (h : v.IsFurnished known) (hfolder : known v.folder)
    (hstep : v.Step occurrence next) : next.IsFurnished known := by
  cases hstep with
  | turn hturn =>
    cases hturn with
    | greet _ _ hroot =>
      refine .inl ⟨v.folder, hfolder, ?_⟩
      rw [hroot]
      rfl
    | stumble _ _ hnone =>
      rcases h with h | ⟨hnull, -⟩
      · exact .inl h
      · refine .inl ⟨v.folder, hfolder, ?_⟩
        rw [hnone]
        exact hnull
    | unread => exact h.imp_right fun hnull => ⟨hnull.1, rfl⟩
    | _ => exact h
  | drop hdrop => cases hdrop <;> exact h
  | call | connect | relocate | pass => exact h

/-- The folder of a client stays among those that are known. -/
theorem View.Step.folder_of {known : Except Error Uri → Prop} {v next : View}
    {occurrence : Occurrence} (h : v.Step occurrence next) (hfolder : known v.folder)
    (hknown : ∀ folder, occurrence = .relocate folder → known folder) : known next.folder := by
  cases h with
  | turn hturn => cases hturn <;> exact hfolder
  | drop hdrop => cases hdrop <;> exact hfolder
  | relocate folder => exact hknown folder rfl
  | call | connect | pass => exact hfolder

namespace Machine

variable {m next : Machine} {t : TaskId} {old : Phase} {job : Job} {intake : Intake} {limit : Nat}
  {known : Except Error Uri → Prop} {taken : List Intake} {made : List (Answer × Bool)}

def intakesOf (m : Machine) : Occurrence → List Intake
  | .turn t => (m.intake? t).toList
  | _ => []

/-- The attempt to write an answer that an occurrence is. -/
def attemptsOf (m : Machine) : Occurrence → List (Answer × Bool)
  | .turn t =>
    ((m.desk.phases[t]?).bind fun old =>
      ((m.perform (.turn t)).desk.phases[t]?).bind old.attempt?).toList
  | _ => []

def intakes (m : Machine) : List Occurrence → List Intake
  | [] => []
  | occurrence :: rest => m.intakesOf occurrence ++ (m.perform occurrence).intakes rest

def attempts (m : Machine) : List Occurrence → List (Answer × Bool)
  | [] => []
  | occurrence :: rest => m.attemptsOf occurrence ++ (m.perform occurrence).attempts rest

/-- The answers that have not been tried to be written yet. -/
def unanswered (m : Machine) : List Answer := m.desk.phases.filterMap Phase.answer?

theorem Asks.passes (h : Asks old job) : Passes old (.lockWriter job) := by
  refine ⟨nofun, .inl ⟨?_, rfl⟩⟩
  cases h with
  | close hold => exact (Phase.answer_of_plain hold.1).1.symm
  | _ => rfl

theorem Registers.passes {message : Message} {d : Dispatch} (h : m.Registers t old message d) :
    Passes old (.registered message d) := by
  refine ⟨nofun, .inl ⟨?_, rfl⟩⟩
  cases h <;> rfl

/-- A turn of a task at the writer leaves the answer that it has, or tries to write it. -/
theorem passes_at_writer {isOpen : Prop} {d last : Desk} (hold : d.phases[t]? = some old)
    (hat : old.isAtWriter = true) (hturn : d.Turn isOpen t last) :
    last = d ∨ ∃ new, last.phases = d.phases.set t new ∧ Passes old new := by
  cases hturn with
  | stay => exact .inl rfl
  | move hphase hleaves | ask hphase hleaves =>
    cases hold.symm.trans hphase
    cases hleaves.symm.trans hat
  | @take message errand _ hphase =>
    cases hold.symm.trans hphase
    exact .inr ⟨_, rfl, nofun, .inl ⟨by cases errand <;> rfl, rfl⟩⟩
  | install _ hphase | close _ hphase | skip _ hphase | shut hphase =>
    cases hold.symm.trans hphase
    exact .inr ⟨_, rfl, nofun, .inl ⟨rfl, rfl⟩⟩
  | @write _ message errand hphase | @balk message errand _ hphase =>
    cases hold.symm.trans hphase
    refine .inr ⟨_, rfl, nofun, ?_⟩
    cases errand with
    | reply => exact .inr ⟨rfl, rfl⟩
    | request | notification | cancellation | initialized | exit => exact .inl ⟨rfl, rfl⟩

/-- A loop that takes something in is not aborted, and handles the frames that are complete. -/
theorem intake_step (h : m.intake? t = some intake) :
    ∃ task c buffer connection, m.tasks[t]? = some task ∧ task.phase = .reading c buffer ∧
      task.isAborted = false ∧
      (m.connection? c).bind Connection.read = some (.octets intake.octets, connection) ∧
      m.step t = some (((m.setConnection c fun _ => connection).handleAll intake.frames).goTo t
        (.reading c (buffer.extend intake.octets).drain.2)) := by
  revert h
  fun_cases m.intake? t with
  | case1 c buffer inbox isQueued joiner htask bytes connection hread =>
    rintro ⟨⟩
    exact ⟨_, c, buffer, connection, htask, rfl, rfl, hread, by simp [step, htask, readOnce, hread]⟩
  | _ => rintro ⟨⟩

theorem intake_of_mem {occurrence : Occurrence} (h : intake ∈ m.intakesOf occurrence) :
    ∃ t, m.intake? t = some intake := by
  cases occurrence with
  | turn t => exact ⟨t, Option.mem_toList.mp h⟩
  | _ => cases h

/-- A client answers the requests of its server. -/
structure IsServing (limit : Nat) (known : Except Error Uri → Prop) (m : Machine)
    (taken : List Intake) (made : List (Answer × Bool)) : Prop where
  limit_eq : m.options.maxBody = limit
  located : known m.folder
  furnished : m.view.IsFurnished known
  informed : ∀ intake ∈ taken, IsKnown known m.workspace intake.folders
  tally : Tally limit m.desk.phases taken made

namespace IsServing

variable (h : m.IsServing limit known taken made)

include h

theorem take (htidy : m.view.IsTidy) (hintake : m.intake? t = some intake) :
    Tally limit (m.perform (.turn t)).desk.phases (taken ++ [intake])
      (made ++ m.attemptsOf (.turn t)) := by
  obtain ⟨task, c, buffer, connection, htask, hphase, haborted, -, hstep⟩ := intake_step hintake
  have hold : m.desk.phases[t]? = some (.reading c buffer) := hphase ▸ desk_phase htask
  have hnone : m.attemptsOf (.turn t) = [] := by
    rw [attemptsOf, hold, Option.bind_some]
    cases (m.perform (.turn t)).desk.phases[t]? with
    | none => rfl
    | some new => exact congrArg Option.toList (Phase.attempt_of_none rfl new)
  have hgoes := turn_goes htidy htask (by rw [hphase]; rfl) hstep
  rw [hnone, List.append_nil, perform, hstep, Option.getD_some]
  rw [hphase] at hgoes
  generalize Machine.desk (goTo ..) = last at hgoes ⊢
  cases hgoes with
  | moves hplain => cases hplain
  | registers hregisters => cases hregisters
  | asks hasks =>
    cases hasks with
    | close hplain => cases hplain.1
  | reads hother =>
    cases hintake.symm.trans hother
    exact h.tally.take hold _ m.folders
  | leaves hother => cases hintake.symm.trans hother

/-- What a loop takes in comes with folders that are known: it reads for the session, so the server
has been told about the workspace. -/
theorem inform (htidy : m.view.IsTidy) (hintake : m.intake? t = some intake) :
    IsKnown known m.workspace intake.folders := by
  obtain ⟨task, c, buffer, connection, htask, hphase, haborted, -, -⟩ := intake_step hintake
  have hpost : m.view.posts[t]? = some ⟨.reading c, false⟩ := by
    rw [view_post htask, Task.post, hphase, haborted]
    rfl
  have hfolders : intake.folders = m.folders := by
    revert hintake
    fun_cases m.intake? t with
    | case1 => rintro ⟨⟩; rfl
    | _ => rintro ⟨⟩
  rw [hfolders]
  rcases h.furnished with htold | ⟨-, hnone⟩
  · exact htold
  · cases hnone.symm.trans (htidy.reads.attached t c hpost)

theorem pass (hold : m.desk.phases[t]? = some old) {new : Phase} {spawned : List Phase}
    (hspawned : ∀ phase ∈ spawned, ∃ c, phase = .reading c { limit := m.options.maxBody })
    (hphases : (m.perform (.turn t)).desk.phases = (m.desk.phases ++ spawned).set t new)
    (hpasses : Passes old new) :
    Tally limit (m.perform (.turn t)).desk.phases taken
      (made ++ m.attemptsOf (.turn t)) := by
  have hstill : (m.desk.phases ++ spawned)[t]? = some old := Desk.phase_spawn hold
  obtain ⟨hlt, -⟩ := List.getElem?_eq_some_iff.mp hstill
  have hattempt : m.attemptsOf (.turn t) = (old.attempt? new).toList := by
    rw [attemptsOf, hold, hphases, List.getElem?_set_self hlt]
    rfl
  rw [hattempt, hphases]
  refine (h.tally.spawn fun phase hphase => ?_).pass hstill hpasses
  obtain ⟨c, rfl⟩ := hspawned phase hphase
  exact ⟨rfl, by rintro _ _ ⟨⟩; rw [h.limit_eq]⟩

theorem stay (hdesk : (m.perform (.turn t)).desk = m.desk) :
    Tally limit (m.perform (.turn t)).desk.phases taken
      (made ++ m.attemptsOf (.turn t)) := by
  have hnone : m.attemptsOf (.turn t) = [] := by
    rw [attemptsOf, hdesk]
    cases m.desk.phases[t]? with
    | none => rfl
    | some phase =>
      show (phase.attempt? phase).toList = []
      cases phase with
      | sent errand => cases errand <;> rfl
      | _ => rfl
  rw [hnone, hdesk, List.append_nil]
  exact h.tally

/-- Every turn of a task agrees with what has been taken in and tried to write. -/
theorem turn (htidy : m.view.IsTidy) (t : TaskId) :
    Tally limit (m.perform (.turn t)).desk.phases (taken ++ m.intakesOf (.turn t))
      (made ++ m.attemptsOf (.turn t)) := by
  cases hintake : m.intake? t with
  | some intake =>
    rw [intakesOf, hintake]
    exact h.take htidy hintake
  | none =>
    rw [intakesOf, hintake, Option.toList_none, List.append_nil]
    cases hstep : m.step t with
    | none => exact h.stay (by rw [perform, hstep]; rfl)
    | some next =>
      cases htask : m.tasks[t]? with
      | none => simp only [step, htask, reduceCtorEq] at hstep
      | some task =>
        have hold := desk_phase htask
        have hnext : (m.perform (.turn t)).desk = next.desk := by rw [perform, hstep]; rfl
        have hgo {new : Phase} (hnew : next.desk.phases = m.desk.phases.set t new) :=
          h.pass hold (List.forall_mem_nil _) (by rw [hnext, hnew, List.append_nil])
        cases hat : task.phase.isAtWriter with
        | true =>
          rcases passes_at_writer hold hat (desk_turn htidy hstep) with
            hsame | ⟨new, hnew, hpasses⟩
          · exact h.stay (hnext.trans hsame)
          · exact hgo hnew hpasses
        | false =>
          have hgoes := turn_goes htidy htask hat hstep
          generalize next.desk = last at hgoes hgo hnext
          generalize task.phase = phase at hgoes hgo hold
          cases hgoes with
          | moves hplain hnew =>
            exact hgo rfl (.of_plain (Phase.answer_of_plain hplain).1 hnew)
          | registers hregisters => exact hgo rfl hregisters.passes
          | revokes => exact hgo rfl ⟨(fun _ _ heq => by cases heq), .inl ⟨rfl, rfl⟩⟩
          | asks hasks => exact hgo rfl hasks.passes
          | opens hnew =>
            exact h.pass hold (by simp) (congrArg Desk.phases hnext) (.of_plain rfl hnew)
          | greets hregisters =>
            exact h.pass hold (by simp) (congrArg Desk.phases hnext) hregisters.passes
          | reads hother => cases hintake.symm.trans hother
          | leaves => exact hgo rfl (.of_plain rfl rfl)

/-- What happens apart from turns is no matter of the server's requests. Answers are nobody's calls,
so they cannot be dropped. -/
theorem rest {isOpen : Prop} {occurrence : Occurrence} {last : Desk}
    (hstep : m.desk.Step isOpen occurrence last)
    (hturn : ∀ t, occurrence ≠ .turn t) : Tally limit last.phases taken made := by
  cases hstep with
  | turn => exact absurd rfl (hturn _)
  | drop hdrop =>
    cases hdrop with
    | stay => exact h.tally
    | @leave old hold hsuspended =>
      have hnone : old.answer? = none := by
        unfold Phase.answer?
        split <;> first | rfl | cases hsuspended
      have hpass := h.tally.pass hold (Passes.of_plain hnone (rfl : Phase.finished.isPlain = _))
      rwa [Phase.attempt_of_none hnone, Option.toList_none, List.append_nil] at hpass
  | call call => exact h.tally.spawn (by simp [Phase.answer?])
  | connect | pass => exact h.tally

theorem perform {occurrence : Occurrence} (htidy : m.view.IsTidy)
    (hknown : ∀ folder, occurrence = .relocate folder → known folder) :
    (m.perform occurrence).IsServing limit known (taken ++ m.intakesOf occurrence)
      (made ++ m.attemptsOf occurrence) := by
  have hstep := perform_step m occurrence
  obtain ⟨-, hoptions, hworkspace⟩ : _ ∧ (m.perform occurrence).options = m.options ∧
      (m.perform occurrence).workspace = m.workspace := by
    simpa [View.origin, view] using hstep.origin_eq
  refine ⟨hoptions ▸ h.limit_eq, ?_, h.furnished.step h.located hstep, ?_, ?_⟩
  · exact hstep.folder_of h.located hknown
  · intro intake hintake
    rw [hworkspace]
    rcases List.mem_append.mp hintake with hold | hnew
    · exact h.informed intake hold
    · obtain ⟨t, hnew⟩ := intake_of_mem hnew
      exact h.inform htidy hnew
  · cases occurrence with
    | turn t => exact h.turn htidy t
    | _ =>
      simpa [intakesOf, attemptsOf] using h.rest (perform_desk htidy _) (by intro t ht; cases ht)

/-- Along every run, the requests of the server are answered. -/
theorem run (hm : m.IsRegular) {occurrences : List Occurrence}
    (hknown : ∀ folder, .relocate folder ∈ occurrences → known folder) :
    (m.run occurrences).IsServing limit known (taken ++ m.intakes occurrences)
      (made ++ m.attempts occurrences) := by
  induction occurrences generalizing m taken made with
  | nil => simpa [Machine.run, intakes, attempts] using h
  | cons occurrence rest ih =>
    have hnext := h.perform hm.tidy fun folder hfolder =>
      hknown folder (hfolder ▸ List.mem_cons_self)
    have hrest := ih hnext (hm.perform occurrence) fun folder hfolder =>
      hknown folder (List.mem_cons_of_mem _ hfolder)
    simpa [Machine.run, intakes, attempts, List.append_assoc] using hrest

end IsServing

/-- Whatever has happened to a client, the frames that a reading loop of it has handled are those of
the octets that it has taken in, however they came; each request of the server among them, and
nothing else, has one answer, which was tried to be written or is with a task that still has to do
so; and the answers are the right ones, with the folder that the client was created with or one that
it was moved to. The frames that are complete with a turn have their effects in their order, and one
that is no message only adds to the log. -/
theorem server_served (setup : Setup) (occurrences : List Occurrence) :
    let start := unused setup
    let m := start.run occurrences
    let intakes := start.intakes occurrences
    (∀ r, framesOf r intakes =
      (Wire.Buffer.extend { limit := setup.options.maxBody } (octetsOf r intakes)).drain.1) ∧
    (m.unanswered ++ (start.attempts occurrences).map Prod.fst).Perm
      (intakes.flatMap Intake.answers) ∧
    (∀ intake ∈ intakes, ∃ folder, (folder = setup.folder ∨ .relocate folder ∈ occurrences) ∧
      intake.folders = workspaceFolders folder setup.workspace) ∧
    (∀ folders (inquiry : Inquiry), IsAnswer folders inquiry.id inquiry.method inquiry.params
      (inquiry.answer folders).message) ∧
    (∀ t intake, m.intake? t = some intake → ∃ c connection buffer,
      (m.connection? c).bind Connection.read = some (.octets intake.octets, connection) ∧
        m.perform (.turn t) = ((intake.frames.map effectOf).foldl apply
          (m.setConnection c fun _ => connection)).goTo t (.reading c buffer)) ∧
    ∀ frame first rest, (effectOf frame).isReport = true → ∃ log,
      m.handleAll (first ++ frame :: rest) = { m.handleAll (first ++ rest) with log } := by
  intro start m intakes
  let known : Except Error Uri → Prop := fun folder =>
    folder = setup.folder ∨ .relocate folder ∈ occurrences
  have hfresh : ∀ r, ∃ rest : Wire.Buffer, (Wire.Buffer.extend { limit := setup.options.maxBody }
      (octetsOf r [])).Drains [] rest ∧ ∀ c buffer, start.desk.phases[r]? =
        some (.reading c buffer) → buffer = rest :=
    fun r => ⟨_, Wire.Buffer.drain_drains { limit := setup.options.maxBody }, nofun⟩
  have hstart : start.IsServing setup.options.maxBody known [] [] :=
    ⟨rfl, .inl rfl, .inr ⟨rfl, rfl⟩, List.forall_mem_nil _, List.forall_mem_nil _, hfresh, .refl _⟩
  have hserving := hstart.run (unused_regular setup) fun _ => .inr
  have hworkspace : m.workspace = setup.workspace :=
    congrArg (·.2.2) (run_origin start occurrences)
  refine ⟨fun r => ?_, hserving.tally.answers, fun intake hintake => ?_,
    fun _ _ => answerTo_is_answer .., fun t intake hintake => ?_,
    fun _ first rest h => handle_all_without h first rest m⟩
  · obtain ⟨rest, hdrains, -⟩ := hserving.tally.frames r
    exact (hdrains.unique (Wire.Buffer.drain_drains _)).1
  · rw [← hworkspace]
    exact hserving.informed intake hintake
  · obtain ⟨-, c, buffer, connection, -, -, -, hread, hstep⟩ := intake_step hintake
    refine ⟨c, connection, (buffer.extend intake.octets).drain.2, hread, ?_⟩
    rw [Machine.perform, hstep, handle_all_eq]
    rfl

end Machine

end CodeAtlas.Client
