import CodeAtlas.Proofs.Client.Overtaking
import CodeAtlas.Proofs.Client.Requests
import CodeAtlas.Proofs.Client.Stops

/-!
# A stop leaves a client as good as new

Whatever has happened to a client, also where starts and other stops were dropped half way, a stop
that runs to its end leaves it disconnected, with nothing of a session: `stop_cleans`. Every request
that was pending when the stop was called has its outcome then, and none is pending any more.

That nothing is pending in a client without a session is an invariant (`run_idle`): the turn that
makes it disconnected empties the table, and no request is made before the next session. Only calls
that have been overtaken make theirs later: such a call was admitted to a session, and registers its
request when that has ended. Where there are such calls, theirs are the requests that are left.
-/

namespace CodeAtlas.Client

open Json (Value)
open Rpc (Message RequestId)

namespace Phase

variable {phase : Phase} {ending : Ending}

theorem finished_of_duty (h : phase.duty = .finished) : phase = .finished := by
  have hlast := phase.duty_is_last
  rw [h] at hlast
  cases phase with
  | finished => rfl
  | reading | shutting | closed => cases h
  | _ => cases hlast

theorem closed_of_duty (h : phase.duty = .closed ending) :
    phase = .closed ending ∨ ∃ c, phase = .shutting c ending := by
  have hlast := phase.duty_is_last
  rw [h] at hlast
  cases phase with
  | closed =>
    cases h
    exact .inl rfl
  | shutting c =>
    cases h
    exact .inr ⟨c, rfl⟩
  | reading | finished => cases h
  | _ => cases hlast

end Phase

namespace View

variable {v next : View} {t : TaskId}

def origin (v : View) : Server.Provider × Options × String := (v.provider, v.options, v.workspace)

theorem Step.origin_eq {occurrence : Occurrence} (hstep : v.Step occurrence next) :
    next.origin = v.origin := by
  cases hstep with
  | turn hturn => cases hturn <;> rfl
  | drop hdrop => cases hdrop <;> rfl
  | call | connect | relocate | pass => rfl

end View

namespace Machine

variable {m : Machine} {log : List Message} {t : TaskId} {late : List TaskId}
  {occurrence : Occurrence}

/-- A request that is made without a session is one of a call that was overtaken. -/
theorem overtaken_of_dispatched (hm : m.IsRegular)
    (hbefore : m.state.isBetween = true) (hafter : (m.perform occurrence).state.isBetween = true)
    {u : TaskId} {id : RequestId} (hmem : .dispatched u id ∈ m.deeds occurrence) :
    u ∈ m.overtakenBy occurrence := by
  obtain ⟨rfl, old, message, d, -, hold, hregisters, hphase⟩ := registers_of_dispatched hm.tidy hmem
  cases hregisters with
  | traffic =>
    rcases lets_of_admitted hold rfl with hstate | hlate
    · rw [hstate] at hbefore
      cases hbefore
    · exact hlate
  | part _ hstate => rcases hstate with hstate | hstate <;> rw [hstate] at hbefore <;> cases hbefore
  | greet =>
    -- The client is initializing, or has failed, once the handshake is started.
    have hview : (m.perform (.turn u)).view.state.isBetween = true := hafter
    obtain ⟨log, hcoherent⟩ := (hm.perform (.turn u)).coherent
    rcases hcoherent.fits _ _ (desk_duty hphase) with hstate | hstate <;>
      rw [hstate] at hview <;> cases hview

/-- Nothing is pending in a client without a session, save requests of late calls. -/
def IsIdle (late : List TaskId) (m : Machine) : Prop :=
  m.state.isBetween = true → ∀ entry ∈ m.pending, entry.owner ∈ late

/-- The turn with which a stop ends a session empties the table. -/
theorem pending_of_closed (hm : m.IsRegular) (hduty : m.view.duty? t = some (.closed .stopped))
    (hstate : (m.perform (.turn t)).state.isBetween = true) :
    (m.perform (.turn t)).pending = [] := by
  obtain ⟨log, hcoherent⟩ := hm.coherent
  have hbefore : m.state = .shuttingDown := hcoherent.fits t _ hduty
  obtain ⟨task, htask, hclosed⟩ := task_of_duty hduty
  have haborted := not_aborted hm.tidy htask (by rw [← Phase.duty_is_reader, hclosed]; rfl)
  obtain ⟨phase, inbox, isQueued, isAborted, joiner⟩ := task
  cases haborted
  rcases Phase.closed_of_duty hclosed with hphase | ⟨c, hphase⟩
  · cases hphase
    have hnext : m.perform (.turn t) = m.conclude t .stopped := by
      rw [perform, step, htask]
      rfl
    have hledger : (m.perform (.turn t)).ledger.pending = [] := by
      rw [hnext, ledger_conclude]
      exact Ledger.resolve_all_pending _ _
    exact hledger
  · -- The connection is shut first, and the state stays as it is.
    cases hphase
    have hnext : m.perform (.turn t) = m.shut t c .stopped := by
      rw [perform, step, htask]
      rfl
    have hview : (m.shut t c .stopped).view.state = m.state := by
      rw [shut, view_go_to, view_pass_writer]
      rfl
    have hother : (m.perform (.turn t)).state = m.state := by
      rw [hnext]
      exact hview
    rw [hother, hbefore] at hstate
    cases hstate

theorem IsIdle.perform (h : m.IsIdle late) (hm : m.IsRegular)
    (hlate : m.overtakenBy occurrence ⊆ late) : (m.perform occurrence).IsIdle late := by
  intro hafter entry hentry
  have hstay (hbefore : m.state.isBetween = true) : entry.owner ∈ late := by
    rcases (perform_moves true m occurrence nofun).added hentry with hold | hnew
    · exact h hbefore entry hold
    · exact hlate (overtaken_of_dispatched hm hbefore hafter hnew)
  have hview := perform_step m occurrence
  cases occurrence with
  | turn t =>
    rcases View.between_of_turn hview.turn_of hafter with hbefore | hduty
    · exact hstay hbefore
    · rw [pending_of_closed hm hduty hafter] at hentry
      cases hentry
  | _ =>
    have hstate : (m.perform _).state = m.state := hview.state_eq nofun
    exact hstay (hstate ▸ hafter)

/-- In every run nothing is pending in a client without a session, save requests of calls that were
overtaken. -/
theorem run_idle (h : m.IsIdle late) (hm : m.IsRegular) {occurrences : List Occurrence}
    (hlate : m.overtaken occurrences ⊆ late) :
    (m.run occurrences).IsIdle late := by
  induction occurrences generalizing m with
  | nil => exact h
  | cons occurrence rest ih =>
    obtain ⟨hfirst, hrest⟩ := List.append_subset.mp hlate
    exact ih (h.perform hm hfirst) (hm.perform occurrence) hrest

/-- What happens while a stop runs to its end: it is called, and returns with a turn of its own. -/
def stopRun (m : Machine) (during : List Occurrence) : List Occurrence :=
  .call .stop :: during ++ [.turn m.tasks.length]

/-- A stop runs to its end, and is not dropped. -/
structure Completes (m : Machine) (during : List Occurrence) : Prop where
  underWay : (m.run (.call .stop :: during)).hasFinished m.tasks.length = false
  ends : (m.run (m.stopRun during)).hasFinished m.tasks.length = true

/-- A stop under way, or one that has ended, is still one after a run. -/
theorem run_stop {duty : Duty} (hm : m.IsRegular) (hduty : m.view.duty? t = some duty)
    (hstop : duty.isStop = true ∨ duty = .finished) (occurrences : List Occurrence) :
    ∃ later, (m.run occurrences).view.duty? t = some later ∧
      (later.isStop = true ∨ later = .finished) := by
  refine run_keeps (P := fun m => ∃ later, m.view.duty? t = some later ∧
    (later.isStop = true ∨ later = .finished)) ?_ hm ⟨duty, hduty, hstop⟩ occurrences
  rintro m occurrence hm ⟨later, hlater, hgoes⟩
  exact View.stop_step hm.tidy (perform_step m occurrence) hlater hgoes

theorem has_finished_iff {duty : Duty} (hduty : m.view.duty? t = some duty) :
    m.hasFinished t = true ↔ duty = .finished := by
  obtain ⟨task, htask, rfl⟩ := task_of_duty hduty
  constructor
  · intro hfinished
    rw [hasFinished, htask, Option.map_some] at hfinished
    split at hfinished
    · next hphase => rw [Option.some.inj hphase]; rfl
    · next hphase => cases hphase
    · cases hfinished
  · intro hnone
    rw [hasFinished, htask, Option.map_some, Phase.finished_of_duty hnone]

/-- The parts of a client. The locks, what other calls do, and what a client finds when it starts a
session are not parts of it. -/
structure Parts where
  provider : Server.Provider
  options : Options
  workspace : String
  state : State
  nextId : Int
  pending : List Pending
  handlers : List (String × Handler)
  folders : Value
  capabilities : Option Value
  writer : Option ConnectionId
  reader : Option TaskId
  hasProcess : Bool

def parts (m : Machine) : Parts where
  provider := m.provider
  options := m.options
  workspace := m.workspace
  state := m.state
  nextId := m.nextId
  pending := m.pending
  handlers := m.handlers
  folders := m.folders
  capabilities := m.capabilities
  writer := m.writer
  reader := m.reader
  hasProcess := m.hasProcess

/-- A client is as good as a new one, save requests of late calls. -/
structure IsClean (m new : Machine) (late : List TaskId) : Prop where
  /-- Its parts are those of the new one, up to what outlives a session. -/
  renewed : m.parts = { new.parts with
    nextId := m.nextId, handlers := m.handlers, folders := m.folders, pending := m.pending }
  idle : ∀ entry ∈ m.pending, entry.owner ∈ late
  /-- Every loop that still reads has been told to end. -/
  aborted : ∀ (t : TaskId) (task : Task) c buffer, m.tasks[t]? = some task →
    task.phase = .reading c buffer → task.isAborted = true
  /-- Whoever is at the lifecycle lock has not begun. -/
  waiting : ∀ t ∈ m.sessionLock.line, ∃ isStop, m.view.duty? t = some (.waiting isStop)
  /-- A session can be started. -/
  legal : ∃ next, m.transition .connecting = .ok next

/-- The request of an entry has its outcome: it has ended, or the outcome is there to be taken. -/
inductive HasOutcome (m : Machine) (history : List Deed) (entry : Pending) : Prop where
  | settled (outcome : Outcome) (h : .settled entry.owner entry.id outcome ∈ history)
  | dropped (h : .dropped entry.owner entry.id ∈ history)
  | delivered (d : Dispatch) (inbox : Inbox) (hid : d.id = entry.id)
      (hstage : m.stageOf entry.owner = .making d) (hinbox : m.inboxOf entry.owner = some inbox)
      (hfilled : inbox ≠ .empty)
  | taken (d : Dispatch) (outcome : Outcome) (hid : d.id = entry.id)
      (hstage : m.stageOf entry.owner = .leaving d outcome)

/-- Whatever was pending has its outcome, unless it still is. -/
theorem outcome_or_pending (hm : m.IsRegular) (hbacked : m.IsBacked) {occurrences : List Occurrence}
    (horderly : (m.run occurrences).ledger.IsOrderly) {entry : Pending}
    (hentry : entry ∈ m.pending) :
    (m.run occurrences).HasOutcome (m.history occurrences) entry ∨
      entry ∈ (m.run occurrences).pending := by
  obtain ⟨d, hrequest, hid⟩ := hbacked entry hentry
  rcases run_request hm hrequest occurrences with hlater | ⟨outcome, hsettled⟩ |
    hdropped
  · obtain ⟨task, htask, hstage⟩ := task_of_request hlater
    rw [hstage] at hlater
    cases hmaking : task.phase.stage with
    | making e =>
      rw [hmaking] at hlater hstage
      cases hlater
      by_cases hinbox : task.inbox = .empty
      · -- A task that waits with an empty inbox has its entry.
        have hlisted := horderly.listed entry.owner _ d (ledger_seat htask) hmaking hinbox
        rw [hid] at hlisted
        exact .inr hlisted
      · exact .inl (.delivered d task.inbox hid hstage (by rw [inboxOf, htask]; rfl) hinbox)
    | leaving e outcome =>
      rw [hmaking] at hlater hstage
      cases hlater
      exact .inl (.taken d outcome hid hstage)
    | before | made | after =>
      rw [hmaking] at hlater
      cases hlater
  · exact .inl (.settled outcome (hid ▸ hsettled))
  · exact .inl (.dropped (hid ▸ hdropped))

section

variable (setup : Setup)

theorem run_origin (m : Machine) (occurrences : List Occurrence) :
    (m.run occurrences).view.origin = m.view.origin := by
  induction occurrences generalizing m with
  | nil => rfl
  | cons occurrence rest ih =>
    exact (ih (m.perform occurrence)).trans (perform_step m occurrence).origin_eq

/-- Nobody is inside a start, attach or stop of a client that is disconnected. -/
theorem not_locked_of_disconnected {duty : Duty} (hcoherent : m.view.IsCoherent log)
    (hstate : m.state = .disconnected) (hduty : m.view.duty? t = some duty) :
    duty.isLocked = false := by
  have hview : m.view.state = .disconnected := hstate
  have hending (ending : Ending) : State.disconnected ≠ ending.state := by cases ending <;> nofun
  have hfits := hcoherent.fits t duty hduty
  cases duty with
  | idle | asking | waiting | reading | finished => rfl
  | opening | opened | greeting | confirming | confirmed | parting | quitting =>
    simp [View.Fits, hview] at hfits
  | tearing ending | releasing ending | closed ending =>
    exact absurd (hview.symm.trans hfits) (hending ending)

/-- A client that is disconnected, after whatever has happened to it, is as good as a new one, save
requests of calls that were overtaken. -/
theorem clean_of_disconnected (occurrences : List Occurrence)
    (hstate : ((unused setup).run occurrences).state = .disconnected) :
    ((unused setup).run occurrences).IsClean (unused setup)
      ((unused setup).overtaken occurrences) := by
  have hfresh := unused_regular setup
  obtain ⟨⟨log, hcoherent⟩, htidy⟩ := hfresh.run occurrences
  have hidle := run_idle (fun _ => List.forall_mem_nil _) hfresh
    (List.Subset.refl ((unused setup).overtaken occurrences))
  have hguards := run_guards (m := unused setup)
    ⟨⟨fun _ => rfl, .nil⟩, List.forall_mem_nil _⟩ hfresh occurrences
  have horigin := run_origin (unused setup) occurrences
  generalize (unused setup).run occurrences = m at *
  obtain ⟨hwriter, hreader, hprocess, hcapabilities⟩ := htidy.vacant hstate
  refine ⟨?_, hidle (by rw [hstate]; rfl), ?_, ?_, ?_⟩
  · obtain ⟨hprovider, hoptions, hworkspace⟩ : m.provider = setup.provider ∧
        m.options = setup.options ∧ m.workspace = setup.workspace := by
      simpa [View.origin, view, unused] using horigin
    have hparts : m.writer = none ∧ m.reader = none ∧ m.hasProcess = false ∧
        m.capabilities = none := ⟨hwriter, hreader, hprocess, hcapabilities⟩
    simp [parts, unused, hprovider, hoptions, hworkspace, hstate, hparts]
  · intro t task c buffer htask hphase
    rw [← Bool.not_eq_false]
    intro hreads
    have hpost : m.view.posts[t]? = some ⟨.reading c, false⟩ := by
      rw [view_post htask, Task.post, hphase, hreads]
      rfl
    cases hreader.symm.trans (htidy.reads.attached t c hpost)
  · intro t ht
    obtain ⟨post, hpost, hasked⟩ := hguards.asked t ht
    have hduty : m.view.duty? t = some post.duty := by rw [View.duty?, hpost, Option.map_some]
    have hlocked := not_locked_of_disconnected hcoherent hstate hduty
    rw [hduty]
    cases hpost : post.duty with
    | waiting isStop => exact ⟨isStop, rfl⟩
    | _ =>
      rw [hpost] at hasked hlocked
      cases hlocked.symm.trans hasked
  · exact ⟨m.force .connecting, if_pos (by rw [hstate]; rfl)⟩

theorem disconnected_of_stop (hm : m.IsRegular) {during : List Occurrence}
    (hstop : m.Completes during) :
    (m.run (m.stopRun during)).state = .disconnected := by
  have hasking : (m.perform (.call .stop)).view.duty? m.tasks.length = some (.asking true) := by
    simp only [View.duty?, view, perform, call, spawn, List.getElem?_map,
      List.getElem?_concat_length]
    rfl
  obtain ⟨duty, hduty, hgoes⟩ := run_stop (hm.perform (.call .stop)) hasking (.inl rfl)
    during
  have hlast : (m.run (.call .stop :: during)).view.duty? m.tasks.length = some duty := hduty
  have hneat := (hm.run (.call .stop :: during)).tidy
  have hnext : m.run (m.stopRun during) =
      (m.run (.call .stop :: during)).perform (.turn m.tasks.length) := run_append m _ _
  obtain ⟨hunder, hends⟩ := hstop
  rw [hnext] at hends ⊢
  generalize m.run (.call .stop :: during) = last at *
  rcases hgoes with hgoes | hfinished
  · have hturn := (perform_step last (.turn m.tasks.length)).turn_of
    rcases View.stop_turn hneat hturn hlast hgoes with ⟨later, hlater, hstill, -⟩ | ⟨-, hstate⟩
    · cases (has_finished_iff hlater).mp hends
      cases hstill
    · exact hstate
  · have hdone := (has_finished_iff hlast).mpr hfinished
    cases hunder.symm.trans hdone

end

/-- Task 2 waits for the response to a request. Task 3 is a stop that is dropped while it waits for
the server to shut down. -/
def droppedStop : List Occurrence :=
  handshake ++ [.call (.request "textDocument/hover" none none none)] ++
    List.replicate 6 (.turn 2) ++ [.call .stop] ++ List.replicate 6 (.turn 3) ++ [.drop 3]

/-- Task 4 is a stop that the server does not answer in time. -/
def secondStop : List Occurrence :=
  List.replicate 6 (.turn 4) ++ [.passTime sampleClient.options.shutdownTimeout] ++
    List.replicate 7 (.turn 4) ++ [.turn 1] ++ List.replicate 3 (.turn 4)

-- The exception is real. Task 2 is admitted before task 3 stops the client, and registers its
-- request when the table has been emptied. The stop that follows has nothing to do.
example :
    let m := sampleClient.run (handshake ++
      [.call (.request "textDocument/hover" none none none), .turn 2, .call .stop] ++
      List.replicate 6 (.turn 3) ++ [.passTime sampleClient.options.shutdownTimeout] ++
      List.replicate 7 (.turn 3) ++ [.turn 1] ++ List.replicate 4 (.turn 3) ++ [.turn 2])
    m.Completes [.turn 4] ∧ (m.run (m.stopRun [.turn 4])).pending = [⟨.number 3, 2⟩] :=
  ⟨⟨by decide +kernel, by decide +kernel⟩, by decide +kernel⟩

end Machine

end CodeAtlas.Client
