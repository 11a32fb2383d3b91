import CodeAtlas.Proofs.Client.Consistency

/-!
# Responses reach the requests they answer

In a run where callers supply no ids, whatever the order of turns, arrivals, cancellations, drops,
failures and sessions, every request has an id of its own and ends at most once, and an outcome that
a server sent is the one of the first response that came under the request's number while it was
pending (`run_correlated`). A message that answers no pending request leaves the table and all tasks
as they are, whatever state the client is in.
-/

namespace CodeAtlas.Client

open Json (Value)
open Rpc (Message RequestId)

namespace Machine

/-- Whether a value from the server is a response to a pending request. -/
def Expects (m : Machine) (value : Value) : Prop :=
  ∃ id result error, Message.ofValue value = .ok (.response id result error) ∧
    m.isPending id = true

/-- The requests of a client and what has come for them agree with a history. -/
structure Correlated (m : Machine) (history : List Deed) : Prop where
  /-- Different requests have different ids. -/
  ids_distinct : ((dispatches history).map Prod.snd).Nodup
  accepted : ∀ t id, .refused t id ∉ history
  /-- A request ends at most once, with one outcome or by being dropped. -/
  ended_once : (endings history).Nodup
  /-- What ends was made, by the same task and under the same id. -/
  ended_made : ∀ request ∈ endings history, request ∈ dispatches history
  /-- An outcome that a server sent is that of the first response which came under the number of
  the request while it was pending. -/
  answered : ∀ first rest t id outcome, history = first ++ .settled t id outcome :: rest →
    isAnswer outcome = true → ∃ n, id = .number n ∧ (answers first).lookup id = some outcome
  /-- A request that still waits has got the first such response. -/
  delivered : ∀ (t : TaskId) (task : Task) d deadline outcome, m.tasks[t]? = some task →
    task.phase = .awaiting d deadline → (answers history).lookup d.id = some outcome →
    task.inbox = .delivered outcome
  /-- What is pending has a number for its id, was made, has not ended and was not answered. -/
  pending : ∀ entry ∈ m.pending, (∃ n, entry.id = .number n) ∧
    (entry.owner, entry.id) ∈ dispatches history ∧ (entry.owner, entry.id) ∉ endings history ∧
    (answers history).lookup entry.id = none

/-- A ledger that tracks a history correlates the requests of its client. -/
theorem correlated_of_tracks {m : Machine} {history : List Deed} (h : m.ledger.Tracks history) :
    m.Correlated history := by
  have hconsistent := h.consistent
  constructor
  case ids_distinct =>
    rw [List.Nodup, List.pairwise_map]
    exact hconsistent.distinct.imp fun hne => hne.2
  case accepted => exact h.accepted
  case ended_once => exact hconsistent.ended_once
  case ended_made => exact hconsistent.ended_made
  case answered =>
    intro first rest t id outcome hsplit hanswer
    have hended : (t, id) ∈ endings history := by
      rw [hsplit, endings, List.mem_filterMap]
      exact ⟨_, List.mem_append_right _ (.head rest), rfl⟩
    obtain ⟨-, n, hnumber, -⟩ := hconsistent.numbered t id (hconsistent.ended_made _ hended)
    exact ⟨n, hnumber, h.settled first rest t id outcome hsplit hanswer⟩
  case delivered =>
    intro t task d deadline outcome htask hphase hanswer
    have hfits := hconsistent.seats t task.seat (ledger_seat htask)
    have hstage : task.seat.stage = .making d := congrArg Phase.stage hphase
    rw [hstage] at hfits
    exact (hfits.2.2 outcome).2 hanswer
  case pending =>
    intro entry hentry
    have hmade := hconsistent.entry_made entry hentry
    obtain ⟨-, n, hnumber, -⟩ := hconsistent.numbered _ _ hmade
    exact ⟨⟨n, hnumber⟩, hmade, hconsistent.entry_open entry hentry,
      hconsistent.entry_unanswered entry hentry⟩

/-- A message that answers no pending request leaves the table and the tasks as they are. -/
theorem handle_unexpected {m : Machine} {value : Value} (h : ¬ m.Expects value) :
    (m.handle value).pending = m.pending ∧
      ∀ (t : TaskId) (task : Task), m.tasks[t]? = some task →
        (m.handle value).tasks[t]? = some task := by
  cases hmessage : Message.ofValue value with
  | error e =>
    simp only [handle, hmessage]
    exact ⟨rfl, fun _ _ htask => htask⟩
  | ok message =>
    cases message with
    | response id result error =>
      have hnone : m.pending.find? (fun entry => entry.id == id) = none := by
        rw [List.find?_eq_none]
        intro entry hentry hid
        exact h ⟨id, result, error, hmessage, List.any_eq_true.mpr ⟨entry, hentry, hid⟩⟩
      have hhandle : m.handle value = m := by
        simp only [handle, hmessage, resolve, hnone]
      rw [hhandle]
      exact ⟨rfl, fun _ _ htask => htask⟩
    | request id method params =>
      simp only [handle, hmessage]
      refine ⟨rfl, fun t task htask => ?_⟩
      exact item_kept htask _
    | notification method params =>
      simp only [handle, hmessage, handleNotification, forward]
      split
      · split <;> exact ⟨rfl, fun _ _ htask => htask⟩
      · exact ⟨rfl, fun _ _ htask => htask⟩
      · exact ⟨rfl, fun _ _ htask => htask⟩

/-- In every run of a client whose callers supply no ids, responses reach the requests they answer,
and what answers no pending request changes nothing for any request. Runs take fewer than `2 ^ 63`
numbers. -/
theorem run_correlated (setup : Setup) (occurrences : List Occurrence)
    (hids : ∀ occurrence ∈ occurrences, occurrence.suppliedId? = none) :
    let client := unused setup
    (client.run occurrences).Correlated (client.history occurrences) ∧
      ∀ (m : Machine) (value : Value), ¬ m.Expects value →
        (m.handle value).pending = m.pending ∧
          ∀ (t : TaskId) (task : Task), m.tasks[t]? = some task →
            (m.handle value).tasks[t]? = some task := by
  have htracks := run_tracks setup occurrences hids
  exact ⟨correlated_of_tracks htracks, fun _ _ hunexpected => handle_unexpected hunexpected⟩

/-- Two requests, of which the second is answered first and twice, after a response under the text
of the first one's number; the first request is dropped. -/
def crossedAnswers : List Occurrence :=
  handshake ++
    [.call (.request "first" none none none), .call (.request "second" none none none)] ++
    List.replicate 6 (.turn 2) ++ List.replicate 6 (.turn 3) ++
    [respond (.text "2") .null, respond (.number 3) .null, respond (.number 3) (.bool true)] ++
    List.replicate 3 (.turn 1) ++ List.replicate 3 (.turn 3) ++ [.drop 2]

/-- The run with crossed answers is correlated, and both requests end. -/
theorem run_correlated_crossed_answers :
    (∀ occurrence ∈ crossedAnswers, occurrence.suppliedId? = none) ∧
      dispatches (sampleClient.history crossedAnswers) =
        [(0, .number 1), (2, .number 2), (3, .number 3)] ∧
      (answers (sampleClient.history crossedAnswers)).map Prod.fst = [.number 1, .number 3] ∧
      endings (sampleClient.history crossedAnswers) =
        [(0, .number 1), (3, .number 3), (2, .number 2)] ∧
      (sampleClient.run crossedAnswers).Correlated (sampleClient.history crossedAnswers) :=
  ⟨by decide +kernel, by decide +kernel, by decide +kernel, by decide +kernel,
    (run_correlated _ crossedAnswers (by decide +kernel)).1⟩

end Machine

end CodeAtlas.Client
