import CodeAtlas.Proofs.Client.Run

/-!
# What a task can do next

`Machine.Steps` lists what a task in a phase can do with its next step, together with the client
that it leaves and what is known of the client before. `step_cases` says that there is nothing else.
What the client reports is left out.
-/

namespace CodeAtlas.Client

open Json (Value)
open Rpc (Message RequestId)

/-- The message that ends a handshake. -/
def initializedMessage : Message := .notification "initialized" (some (.object []))

/-- Whether only an initialized session takes a call. -/
def Call.isTraffic (call : Call) : Bool := call.traffic?.isSome

/-- Whether a call starts a session. -/
def Call.isStart : Call → Bool
  | .start => true
  | .attach _ => true
  | _ => false

/-- Whether an outcome is what the server said. -/
def isAnswer : Outcome → Bool
  | .ok _ => true
  | .error (.serverError _ _) => true
  | _ => false

theorem map_modify {α β : Type} {items : List α} {i : Nat} {change : α → α} {seen : α → β}
    (onSeen : β → β) (h : ∀ item, items[i]? = some item → seen (change item) = onSeen (seen item)) :
    (items.modify i change).map seen = (items.map seen).modify i onSeen := by
  apply List.ext_getElem?
  intro j
  simp only [List.getElem?_map, List.getElem?_modify]
  cases hitem : items[j]? with
  | none => rfl
  | some item =>
    by_cases hij : i = j
    · simp [hij, h item (hij ▸ hitem)]
    · simp [hij]

section Items

variable {α : Type} {items more : List α} {i j : Nat} {item new : α} {change : α → α}

theorem item_modified (h : (items.modify i change)[j]? = some item) :
    i ≠ j ∧ items[j]? = some item ∨ i = j ∧ ∃ old, items[j]? = some old ∧ item = change old := by
  rw [List.getElem?_modify] at h
  obtain ⟨old, hold, rfl⟩ := Option.map_eq_some_iff.mp h
  by_cases hij : i = j
  · exact .inr ⟨hij, old, hold, if_pos hij⟩
  · exact .inl ⟨hij, by rw [if_neg hij, hold]⟩

theorem item_set (h : (items.set i new)[j]? = some item) :
    i = j ∧ item = new ∨ i ≠ j ∧ items[j]? = some item := by
  rw [List.getElem?_set] at h
  split at h
  · next hij =>
    split at h
    · exact .inl ⟨hij, (Option.some.inj h).symm⟩
    · cases h
  · next hij => exact .inr ⟨hij, h⟩

theorem item_kept (h : items[j]? = some item) (more : List α) :
    (items ++ more)[j]? = some item := by
  obtain ⟨hlength, -⟩ := List.getElem?_eq_some_iff.mp h
  rw [List.getElem?_append_left hlength, h]

theorem item_appended (h : (items ++ more)[j]? = some item) :
    items[j]? = some item ∨ items.length ≤ j ∧ item ∈ more := by
  rw [List.getElem?_append] at h
  split at h
  · exact .inl h
  · next hlength => exact .inr ⟨Nat.not_lt.mp hlength, List.mem_of_getElem? h⟩

theorem item_pushed (h : (items ++ [new])[j]? = some item) :
    items[j]? = some item ∨ j = items.length ∧ item = new := by
  rcases item_appended h with hold | ⟨hle, hnew⟩
  · exact .inl hold
  · obtain ⟨hlt, -⟩ := List.getElem?_eq_some_iff.mp h
    rw [List.length_append, List.length_singleton] at hlt
    exact .inr ⟨Nat.le_antisymm (Nat.le_of_lt_succ hlt) hle, List.mem_singleton.mp hnew⟩

end Items

namespace Machine

/-- What a task in a phase can do with its next step. -/
inductive Steps (m : Machine) (t : TaskId) : Phase → Machine → Prop where
  | ask {call : Call} (hcall : call.isStart = true ∨ call = .stop) :
      m.Steps t (.ready call) (m.askSession t call)
  | cancel {id : RequestId} {message : Message} (hpending : m.isPending id = true) :
      m.Steps t (.ready (.cancel id))
        ((m.resolve id (.error (.cancelled id))).goTo t (.revoked message))
  | miss {id : RequestId} {outcome : Outcome} (hpending : m.isPending id = false) :
      m.Steps t (.ready (.cancel id)) (m.return_ t outcome)
  | refuse {call : Call} {outcome : Outcome} (hcall : call.isTraffic = true) :
      m.Steps t (.ready call) (m.return_ t outcome)
  | allow {call : Call} {traffic : Traffic} (hcall : call.traffic? = some traffic)
      (hstate : m.state = .initialized) : m.Steps t (.ready call) (m.goTo t (.admitted traffic))
  | request {method : String} {params : Option Value} {id : Option RequestId}
      {timeout : Option Time.Duration} {after : Time.Duration}
      {question : Option Protocol.Question} :
      m.Steps t (.admitted (.request method params id timeout question))
        (m.dispatch t method params id after (.user question))
  | notify {method : String} {params : Option Value} :
      m.Steps t (.admitted (.notification method params))
        (m.askWriter t (.send (.notification method params) .notification))
  | send {message : Message} {d : Dispatch} :
      m.Steps t (.registered message d) (m.askWriter t (.send message (.request d)))
  | tell {message : Message} :
      m.Steps t (.revoked message) (m.askWriter t (.send message .cancellation))
  | reply {message : Message} {method : String} :
      m.Steps t (.reply message method) (m.askWriter t (.send message (.reply method)))
  /-- There is nothing to stop, or no session can be started. -/
  | decline {call : Call} {outcome : Outcome} (howner : m.sessionLock.owner = some t)
      (hstate : call = .stop ∧ m.state = .disconnected ∨
        call.isStart = true ∧ m.state ≠ .disconnected) :
      m.Steps t (.lockSession call) (m.passSession.return_ t outcome)
  | part {after : Time.Duration} (howner : m.sessionLock.owner = some t)
      (hstate : m.state = .connected ∨ m.state = .initialized) :
      m.Steps t (.lockSession .stop) (m.dispatch t "shutdown" none none after .shutdown)
  | halt (howner : m.sessionLock.owner = some t)
      (hstate : m.state ≠ .disconnected ∧ m.state ≠ .connected ∧ m.state ≠ .initialized) :
      m.Steps t (.lockSession .stop) ((m.force .shuttingDown).goTo t (.tearDown .stopped))
  | launch {call : Call} {c : ConnectionId} {hasProcess : Bool}
      (howner : m.sessionLock.owner = some t) (hcall : call.isStart = true)
      (hstate : m.state = .disconnected) :
      m.Steps t (.lockSession call)
        ({ m.force .connecting with hasProcess }.askWriter t (.install c))
  | misfire {e : Error} {hasProcess : Bool} (howner : m.sessionLock.owner = some t)
      (hstate : m.state = .disconnected) :
      m.Steps t (.lockSession .start) ({ m.force .connecting with hasProcess }.failStartup t e)
  /-- The call has no use for the lifecycle lock. -/
  | stray {call : Call} (howner : m.sessionLock.owner = some t)
      (hcall : call.isStart = false ∧ call ≠ .stop) :
      m.Steps t (.lockSession call) (m.passSession.finish t)
  | install {c : ConnectionId} (howner : m.writerLock.owner = some t) :
      m.Steps t (.lockWriter (.install c))
        ({ m with writer := some c }.passWriter.goTo t (.opened c))
  | take {message : Message} {errand : Errand} (howner : m.writerLock.owner = some t) :
      m.Steps t (.lockWriter (.send message errand)) (m.goTo t (.writing message errand))
  | close {c : ConnectionId} {ending : Ending} (howner : m.writerLock.owner = some t) :
      m.Steps t (.lockWriter (.close ending))
        ({ m with writer := none }.goTo t (.shutting c ending))
  | skip {ending : Ending} (howner : m.writerLock.owner = some t) (hwriter : m.writer = none) :
      m.Steps t (.lockWriter (.close ending)) (m.passWriter.goTo t (.closed ending))
  | write {c : ConnectionId} {connection : Connection} {message : Message} {errand : Errand}
      (hwriter : m.writer = some c) (hconnection : m.connections[c]? = some connection) :
      m.Steps t (.writing message errand)
        ((m.setConnection c fun old => { old with sent := old.sent ++ [message] }).passWriter.goTo t
          (.sent errand (.ok ())))
  | balk {message : Message} {errand : Errand} {e : Error} (hfault : isAnswer (.error e) = false) :
      m.Steps t (.writing message errand) (m.passWriter.goTo t (.sent errand (.error e)))
  | wait {d : Dispatch} {deadline : Time.Duration} :
      m.Steps t (.sent (.request d) (.ok ())) (m.goTo t (.awaiting d deadline))
  | unsent {d : Dispatch} {e : Error} {log : List Logging.Event} :
      m.Steps t (.sent (.request d) (.error e))
        (({ m with log }.failOn e).goTo t (.leaving d (.error e)))
  | told {errand : Errand} {outcome : Outcome}
      (herrand : errand = .notification ∨ errand = .cancellation) :
      m.Steps t (.sent errand (.ok ())) (m.return_ t outcome)
  | untold {errand : Errand} {e : Error}
      (herrand : errand = .notification ∨ errand = .cancellation) :
      m.Steps t (.sent errand (.error e)) ((m.failOn e).return_ t (.error e))
  | complete (hstate : m.state = .initializing) :
      m.Steps t (.sent .initialized (.ok ()))
        ((m.force .initialized).passSession.return_ t (.ok .null))
  | late {e : Error} : m.Steps t (.sent .initialized (.ok ())) (m.failStartup t e)
  | unconfirmed {e : Error} :
      m.Steps t (.sent .initialized (.error e)) ((m.failOn e).failStartup t e)
  | quit {result : Except Error Unit} :
      m.Steps t (.sent .exit result) ((m.force .shuttingDown).goTo t (.tearDown .stopped))
  | replied {method : String} {result : Except Error Unit} {log : List Logging.Event} :
      m.Steps t (.sent (.reply method) result) ({ m with log }.finish t)
  | accept {d : Dispatch} {deadline : Time.Duration} {outcome : Outcome} {task : Task}
      (htask : m.tasks[t]? = some task) (hinbox : task.inbox = .delivered outcome) :
      m.Steps t (.awaiting d deadline) (m.goTo t (.leaving d outcome))
  | lapse {d : Dispatch} {deadline : Time.Duration} {outcome : Outcome} {log : List Logging.Event}
      (hfault : isAnswer outcome = false) :
      m.Steps t (.awaiting d deadline) ({ m with log }.goTo t (.leaving d outcome))
  | leave {d : Dispatch} {outcome : Outcome} :
      m.Steps t (.leaving d outcome) (m.leave t d outcome)
  | answer {d : Dispatch} {outcome result : Outcome} {question : Option Protocol.Question}
      (hpurpose : d.purpose = .user question) :
      m.Steps t (.answered d outcome) (m.return_ t result)
  | rebuff {d : Dispatch} {outcome : Outcome} {e : Error} (hpurpose : d.purpose = .handshake) :
      m.Steps t (.answered d outcome) (m.failStartup t e)
  | approve {d : Dispatch} {result : Value} (hpurpose : d.purpose = .handshake)
      (hvalid : m.provider.validate result = .ok ()) :
      m.Steps t (.answered d (.ok result))
        ({ m with capabilities := result.member? "capabilities" }.askWriter t
          (.send initializedMessage .initialized))
  | dismiss {d : Dispatch} {outcome : Outcome} {log : List Logging.Event}
      (hpurpose : d.purpose = .shutdown) :
      m.Steps t (.answered d outcome) ({ m with log }.sayGoodbye t)
  | giveUp {c : ConnectionId} {e : Error} : m.Steps t (.opened c) (m.failStartup t e)
  | stumble {c : ConnectionId} {e : Error} (hstate : m.state = .connecting)
      (hfolder : m.folder = .error e) :
      m.Steps t (.opened c)
        ({ (m.force .connected).spawn (.reading c { limit := m.options.maxBody }) with
          reader := some m.tasks.length }.failStartup t e)
  | greet {c : ConnectionId} {root : Uri} {params : Option Value} {after : Time.Duration}
      (hstate : m.state = .connecting) (hfolder : m.folder = .ok root) :
      m.Steps t (.opened c)
        (({ (m.force .connected).spawn (.reading c { limit := m.options.maxBody }) with
          reader := some m.tasks.length
          folders := foldersValue root m.workspace }.force .initializing).dispatch t "initialize"
          params none after .handshake)
  | forgo {ending : Ending} (hreader : m.reader = none) :
      m.Steps t (.tearDown ending) (m.askWriter t (.close ending))
  | unread {r : TaskId} {ending : Ending} (hreader : m.reader = some r) :
      m.Steps t (.tearDown ending)
        ((({ m with reader := none }.setTask r fun task =>
          { task with isAborted := true, joiner := some t }).wake r).goTo t (.joining r ending))
  | join {r : TaskId} {ending : Ending} :
      m.Steps t (.joining r ending) (m.askWriter t (.close ending))
  | shut {c : ConnectionId} {ending : Ending} :
      m.Steps t (.shutting c ending) (m.shut t c ending)
  | conclude {ending : Ending} : m.Steps t (.closed ending) (m.conclude t ending)
  | lose {c : ConnectionId} {buffer : Wire.Buffer} {reading : Reading} {connection : Connection}
      {fault : Option String}
      (hread : (m.connection? c).bind Connection.read = some (reading, connection))
      (hreading : ∀ bytes, reading ≠ .octets bytes) :
      m.Steps t (.reading c buffer)
        (((m.setConnection c fun _ => connection).loseConnection fault).finish t)
  | read {c : ConnectionId} {buffer : Wire.Buffer} {bytes : Bytes} {connection : Connection}
      (hread : (m.connection? c).bind Connection.read = some (.octets bytes, connection)) :
      m.Steps t (.reading c buffer)
        (((m.setConnection c fun _ => connection).handleAll (buffer.extend bytes).drain.1).goTo t
          (.reading c (buffer.extend bytes).drain.2))

variable {m next : Machine} {t : TaskId}

theorem handle_notification_eq (m : Machine) (method : String) (params : Option Value) :
    ∃ notified log, m.handleNotification method params = { m with notified, log } := by
  unfold handleNotification
  split
  · unfold forward
    split <;> exact ⟨_, _, rfl⟩
  · exact ⟨_, _, rfl⟩
  · exact ⟨_, _, rfl⟩

theorem transition_ok {target : State} (h : m.transition target = .ok next) :
    m.state.canBecome target = true ∧ next = m.force target := by
  unfold transition at h
  split at h
  · next hlegal => exact ⟨hlegal, (Except.ok.inj h).symm⟩
  · cases h

theorem can_become_connecting {state : State} :
    state.canBecome .connecting = true ↔ state = .disconnected := by
  cases state <;> simp [State.canBecome]

theorem begin_steps (call : Call) : m.Steps t (.ready call) (m.begin_ t call) := by
  fun_cases begin_ with
  | case1 _ _ hcall =>
    unfold allow
    split
    · next h => exact .allow hcall h
    · exact .refuse (Option.isSome_of_eq_some hcall)
  | case2 _ h => exact .cancel h
  | case3 _ h => exact .miss (eq_false_of_ne_true h)
  | case4 _ hcall hcancel =>
    cases call with
    | start | attach => exact .ask (.inl rfl)
    | stop => exact .ask (.inr rfl)
    | cancel id => exact absurd rfl (hcancel id)
    | request | ask | notify => cases hcall

theorem enter_steps (howner : m.sessionLock.owner = some t) (call : Call) :
    m.Steps t (.lockSession call) (m.enter t call) := by
  have hlegal {next : Machine} (h : m.transition .connecting = .ok next) :
      m.state = .disconnected ∧ next = m.force .connecting :=
    (transition_ok h).imp_left can_become_connecting.mp
  have hillegal {e : Error} (h : m.transition .connecting = .error e) :
      m.state ≠ .disconnected := by
    intro hstate
    rw [transition, if_pos (can_become_connecting.mpr hstate)] at h
    cases h
  fun_cases enter with
  | case1 h => exact .decline howner (.inl ⟨rfl, h⟩)
  | case2 h => exact .part howner (.inr h)
  | case3 h => exact .part howner (.inl h)
  | case4 hd hi hc => exact .halt howner ⟨hd, hc, hi⟩
  | case5 _ _ h | case9 _ h => 
    obtain ⟨hstate, rfl⟩ := hlegal h
    exact .launch howner rfl hstate
  | case6 _ _ h | case10 _ h => exact .decline howner (.inr ⟨rfl, hillegal h⟩)
  | case7 _ h | case8 _ h =>
    obtain ⟨hstate, rfl⟩ := hlegal h
    exact .misfire howner hstate
  | case11 _ hstop hattach hstart =>
    refine .stray howner ⟨eq_false_of_ne_true fun h => ?_, hstop⟩
    cases call with
    | start => exact hstart rfl
    | attach c => exact hattach c rfl
    | _ => cases h

theorem shake_hands_steps (c : ConnectionId) : m.Steps t (.opened c) (m.shakeHands t c) := by
  unfold shakeHands
  split
  · exact .giveUp
  · next h =>
    obtain ⟨hlegal, rfl⟩ := transition_ok h
    have hstate : m.state = .connecting := by
      cases hstate : m.state <;> simp_all [State.canBecome]
    simp only
    split
    · next hfolder => exact .stumble hstate hfolder
    · next hfolder =>
      split
      · next h => cases h
      · next h =>
        obtain ⟨-, rfl⟩ := transition_ok h
        exact .greet hstate hfolder

theorem write_steps {message : Message} {errand : Errand}
    (h : m.write t message errand = some next) : m.Steps t (.writing message errand) next := by
  revert h
  fun_cases write with
  | case2 c hwriter haccept =>
    rintro ⟨⟩
    obtain ⟨connection, hconnection, -⟩ := Option.map_eq_some_iff.mp haccept
    exact .write hwriter hconnection
  | case1 | case3 =>
    rintro ⟨⟩
    exact .balk rfl
  | case4 | case5 => exact nofun

theorem after_send_steps (errand : Errand) (result : Except Error Unit) :
    m.Steps t (.sent errand result) (m.afterSend t errand result) := by
  fun_cases afterSend with
  | case1 => exact .wait
  | case2 => exact .unsent
  | case3 => exact .told (.inl rfl)
  | case4 => exact .untold (.inl rfl)
  | case5 => exact .told (.inr rfl)
  | case6 => exact .untold (.inr rfl)
  | case7 made h =>
    obtain ⟨hlegal, rfl⟩ := transition_ok h
    exact .complete (by cases hstate : m.state <;> simp_all [State.canBecome])
  | case8 => exact .late
  | case9 => exact .unconfirmed
  | case10 => exact .quit
  | case11 | case12 => exact .replied

theorem after_answer_steps (d : Dispatch) (outcome : Outcome) :
    m.Steps t (.answered d outcome) (m.afterAnswer t d outcome) := by
  fun_cases afterAnswer with
  | case1 _ h | case2 _ _ h | case3 _ _ h | case4 _ _ h => exact .answer h
  | case5 _ h | case6 _ h => exact .rebuff h
  | case7 _ h hvalid => exact .approve h hvalid
  | case8 _ h | case9 _ h => exact .dismiss h

theorem read_once_steps {c : ConnectionId} {buffer : Wire.Buffer}
    (h : m.readOnce t c buffer = some next) : m.Steps t (.reading c buffer) next := by
  unfold readOnce at h
  split at h
  · cases h
  · next reading connection hread =>
    cases reading with
    | ended | fault =>
      cases h
      exact .lose hread nofun
    | octets bytes =>
      cases h
      exact .read hread

/-- A task takes its next step in one of the listed ways, or ends if it was aborted. -/
theorem step_cases (h : m.step t = some next) :
    ∃ task, m.tasks[t]? = some task ∧
      (task.isAborted = true ∧ next = m.finish t ∨
        task.isAborted = false ∧ m.Steps t task.phase next) := by
  unfold step at h
  split at h
  · cases h
  · next task htask =>
    refine ⟨task, htask, ?_⟩
    obtain ⟨phase, inbox, isQueued, isAborted, joiner⟩ := task
    cases isAborted with
    | true =>
      left
      cases phase
      case finished => cases h
      all_goals exact ⟨rfl, (Option.some.inj h).symm⟩
    | false =>
      refine .inr ⟨rfl, ?_⟩
      cases phase with
      | finished => cases h
      | ready call =>
        cases h
        exact begin_steps call
      | admitted traffic =>
        cases h
        cases traffic with
        | request => exact .request
        | notification => exact .notify
      | registered =>
        cases h
        exact .send
      | revoked =>
        cases h
        exact .tell
      | reply =>
        cases h
        exact .reply
      | lockSession call =>
        obtain ⟨howner, hnext⟩ := Option.ite_none_right_eq_some.mp h
        cases hnext
        exact enter_steps howner call
      | lockWriter job =>
        obtain ⟨howner, hnext⟩ := Option.ite_none_right_eq_some.mp h
        cases hnext
        cases job with
        | install => exact .install howner
        | send => exact .take howner
        | close =>
          simp only [useWriter]
          split
          · exact .close howner
          · next hwriter => exact .skip howner hwriter
      | writing => exact write_steps h
      | sent errand result =>
        cases h
        exact after_send_steps errand result
      | awaiting =>
        cases inbox with
        | delivered =>
          cases h
          exact .accept htask rfl
        | abandoned =>
          cases h
          exact .lapse rfl
        | empty =>
          obtain ⟨-, hnext⟩ := Option.ite_none_right_eq_some.mp h
          cases hnext
          exact .lapse rfl
      | leaving =>
        cases h
        exact .leave
      | answered d outcome =>
        cases h
        exact after_answer_steps d outcome
      | opened c =>
        cases h
        exact shake_hands_steps c
      | tearDown =>
        cases h
        unfold tearDown
        split
        · next hreader => exact .forgo hreader
        · next hreader => exact .unread hreader
      | joining =>
        obtain ⟨-, hnext⟩ := Option.ite_none_right_eq_some.mp h
        cases hnext
        exact .join
      | shutting =>
        cases h
        exact .shut
      | closed =>
        cases h
        exact .conclude
      | reading => exact read_once_steps h

/-! ## Parts of a client -/

variable {α : Type} {part : Machine → α}

/-- A part of a client that does not say which tasks are in the queue. -/
def IsDull (part : Machine → α) : Prop := ∀ m t queue isQueued,
  part { m.setTask t fun task => { task with isQueued } with queue } = part m

/-- A part of a client that says neither that nor what becomes of requests. -/
structure IsDeaf (part : Machine → α) : Prop where
  dull : IsDull part
  pending : ∀ m pending, part { m with pending } = part m
  inbox : ∀ m t change, (∀ task, ∃ inbox, change task = { task with inbox }) →
    part (m.setTask t change) = part m

namespace IsDull

variable (h : IsDull part) (m : Machine) (t : TaskId)

include h

theorem wake : part (m.wake t) = part m := by
  fun_cases m.wake t with
  | case2 => exact h m t _ true
  | _ => rfl

theorem wake_any (t : Option TaskId) : part (m.wakeAny t) = part m := by
  cases t with
  | none => rfl
  | some t => exact h.wake m t

theorem wake_all (ts : List TaskId) : part (m.wakeAll ts) = part m := by
  unfold wakeAll
  induction ts generalizing m with
  | nil => rfl
  | cons t ts ih => rw [List.foldl_cons, ih, h.wake]

theorem wake_if {holds : Prop} [Decidable holds] {m : Machine} {t : Option TaskId} :
    part (if holds then m.wakeAny t else m) = part m := by
  split
  · exact h.wake_any m t
  · rfl

theorem dequeue : part m.dequeue = part m := by
  unfold Machine.dequeue
  split
  · rfl
  · exact h m _ _ false

theorem finish : part (m.finish t) = part (m.goTo t .finished) := by
  unfold Machine.finish
  split
  · exact h.wake_any _ _
  · next htask => rw [goTo, setTask, List.modify_eq_self (List.getElem?_eq_none_iff.mp htask)]

end IsDull

namespace IsDeaf

variable (h : IsDeaf part) (m : Machine) (t : TaskId)

include h

theorem deliver (outcome : Outcome) : part (m.deliver t outcome) = part m := by
  refine (h.dull.wake _ t).trans (h.inbox m t _ fun task => ?_)
  split <;> exact ⟨_, rfl⟩

theorem resolve (id : RequestId) (outcome : Outcome) : part (m.resolve id outcome) = part m := by
  unfold Machine.resolve
  split
  · exact (h.deliver _ _ _).trans (h.pending m _)
  · rfl

theorem resolve_all (outcome : RequestId → Outcome) : part (m.resolveAll outcome) = part m := by
  have hdeliver (entries : List Pending) (m : Machine) :
      part (deliverAll outcome entries m) = part m := by
    induction entries generalizing m with
    | nil => rfl
    | cons entry rest ih => rw [deliverAll, ih, h.deliver]
  exact (hdeliver m.pending _).trans (h.pending m [])

theorem unregister (id : RequestId) : part (m.unregister t id) = part m := by
  fun_cases m.unregister t id with
  | case1 => rfl
  | case2 => exact h.pending m _
  | case3 =>
    refine (h.dull.wake _ _).trans ((h.inbox _ _ _ fun task => ?_).trans (h.pending m _))
    split <;> exact ⟨_, rfl⟩

theorem register (id : RequestId) : part (m.register t id) = part m :=
  (h.pending _ _).trans (h.inbox m t _ fun _ => ⟨_, rfl⟩)

end IsDeaf

end Machine

end CodeAtlas.Client
