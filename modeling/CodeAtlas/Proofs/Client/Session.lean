import CodeAtlas.Proofs.Client.Lifecycle

/-!
# What it means to be initialized

A client that is initialized has a session that can be used: a writer is installed, a loop that has
found no end reads from the same connection, the server's answer to the handshake was valid and its
capabilities are kept, and the message that ends the handshake has been written in this session.

The invariant `View.IsCoherent` says so of every state, and says what is known while a handshake or
its end is under way: only the task with the lifecycle lock has a part in them, and each of its
duties fits some states only, so a session that has failed in between is not completed.
-/

namespace CodeAtlas.Client

open Json (Value)
open Rpc (Message)

/-- Whether a duty is done under the lifecycle lock. -/
def Duty.isLocked : Duty → Bool
  | .idle => false
  | .asking _ => false
  | .waiting _ => false
  | .reading _ => false
  | .finished => false
  | _ => true

def Ending.state : Ending → State
  | .failed _ => .error
  | .stopped => .shuttingDown

theorem State.failed_cases (state : State) : state.failed = .error ∨ state.failed = state := by
  cases state with
  | disconnected | shuttingDown => exact .inr rfl
  | connecting | connected | initializing | initialized | error => exact .inl rfl

theorem State.disconnected_of_failed {state : State} (h : state.failed = .disconnected) :
    state = .disconnected := by
  rcases state.failed_cases with herror | hsame
  · cases herror.symm.trans h
  · exact hsame.symm.trans h

theorem State.failed_not_live (state : State) :
    state.failed ≠ .initializing ∧ state.failed ≠ .initialized := by
  cases state <;> exact ⟨nofun, nofun⟩

namespace View

variable {v next base : View} {log : List Message} {t : TaskId} {duty : Duty}

/-- The capabilities are those of an answer that the provider has found valid. -/
def IsApproved (v : View) : Prop :=
  ∃ result, v.provider.validate result = .ok () ∧ v.capabilities = result.member? "capabilities"

/-- A writer is installed, and a loop that has found no end reads from the same connection. -/
def IsAlive (v : View) : Prop :=
  ∃ c r, v.writer = some c ∧ v.reader = some r ∧ v.posts[r]? = some ⟨.reading c, false⟩

/-- What is known while a duty is done, with the messages of the session so far. -/
def Fits (v : View) (log : List Message) : Duty → Prop
  | .idle => True
  | .asking _ => True
  | .waiting _ => True
  | .reading _ => True
  | .opening _ => v.state = .connecting ∨ v.state = .error
  | .opened c => v.writer = some c ∧ (v.state = .connecting ∨ v.state = .error)
  | .greeting => v.state = .initializing ∨ v.state = .error
  | .confirming message =>
    (v.state = .initializing ∨ v.state = .error) ∧ message = initializedMessage ∧ v.IsApproved
  | .confirmed =>
    (v.state = .initializing ∨ v.state = .error) ∧ initializedMessage ∈ log ∧ v.IsApproved
  | .parting => v.state = .connected ∨ v.state = .initialized ∨ v.state = .error
  | .quitting => v.state = .shuttingDown
  | .tearing ending => v.state = ending.state
  | .releasing ending => v.state = ending.state
  | .closed ending => v.state = ending.state
  | .finished => True

/-- The invariant of a session, with the messages that it has written. -/
structure IsCoherent (v : View) (log : List Message) : Prop where
  owned : ∀ t duty, v.duty? t = some duty → duty.isLocked = true → v.owner = some t
  fits : ∀ t duty, v.duty? t = some duty → v.Fits log duty
  alive : v.state = .initializing ∨ v.state = .initialized → v.IsAlive
  agreed : v.state = .initialized → v.IsApproved ∧ initializedMessage ∈ log

def accepted (v : View) (c : Option ConnectionId) : List Message :=
  (c.bind fun c => v.sent[c]?).getD []

/-- The messages of a session after one more change: what its writer has accepted since the client
was last connecting. -/
def record (v : View) (log : List Message) (next : View) : List Message :=
  if next.state = .connecting then []
  else log ++ (next.accepted next.writer).drop (v.accepted next.writer).length

theorem fits_of_not_locked (h : duty.isLocked = false) : v.Fits log duty := by
  cases duty <;> trivial

theorem IsAlive.set_duty (h : v.IsAlive) {post : Post} (hpost : v.posts[t]? = some post)
    (hreading : post.isAborted = true ∨ ∀ c, post.duty ≠ .reading c) :
    (v.setDuty t duty).IsAlive := by
  obtain ⟨c, r, hwriter, hreader, hr⟩ := h
  have hne : t ≠ r := by
    rintro rfl
    obtain rfl : post = ⟨.reading c, false⟩ := Option.some.inj (hpost.symm.trans hr)
    rcases hreading with haborted | hduty
    · cases haborted
    · exact hduty c rfl
  refine ⟨c, r, hwriter, hreader, ?_⟩
  simp only [setDuty, List.getElem?_modify, hr, if_neg hne, Option.map_eq_map, Option.map_some]

variable {c : ConnectionId} {message : Message}

theorem record_write (hwriter : v.writer = some c) (hconnection : c < v.sent.length)
    (hstate : v.state ≠ .connecting) :
    v.record log ((v.accept c message).setDuty t duty) = log ++ [message] := by
  have hsent : v.sent[c]? = some v.sent[c] := List.getElem?_eq_getElem hconnection
  have hbefore : v.accepted (some c) = v.sent[c] := by
    rw [accepted, Option.bind_some, hsent, Option.getD_some]
  have hafter : (v.accept c message).accepted (some c) = v.sent[c] ++ [message] := by
    rw [accepted, Option.bind_some, accept, List.getElem?_modify_eq, hsent]
    rfl
  have hrecord : v.record log ((v.accept c message).setDuty t duty) =
      log ++ ((v.accept c message).accepted v.writer).drop (v.accepted v.writer).length :=
    if_neg hstate
  rw [hrecord, hwriter, hbefore, hafter, List.drop_left]

theorem duty_spawn_reader {u : TaskId} {d : Duty} (h : (v.spawn [.reading c]).duty? u = some d)
    (hlocked : d.isLocked = true) : v.duty? u = some d := by
  rcases duty_spawn h with hold | hnew
  · exact hold
  · cases List.mem_singleton.mp hnew
    cases hlocked

namespace IsCoherent

/-- More messages do no harm, and none are needed while the client is connecting. -/
theorem relog {more : List Message} (h : v.IsCoherent log)
    (hmore : v.state ≠ .connecting → log ⊆ more) : v.IsCoherent more where
  owned := h.owned
  fits t duty hduty := by
    have hfits := h.fits t duty hduty
    cases duty with
    | confirmed =>
      obtain ⟨hstate, hmem, happroved⟩ := hfits
      have hconnecting : v.state ≠ .connecting := by
        rcases hstate with hstate | hstate <;> simp [hstate]
      exact ⟨hstate, hmore hconnecting hmem, happroved⟩
    | _ => exact hfits
  alive := h.alive
  agreed hstate :=
    ⟨(h.agreed hstate).1, hmore (by simp [hstate]) (h.agreed hstate).2⟩

theorem recorded (v : View) (h : next.IsCoherent log) : next.IsCoherent (v.record log next) := by
  refine h.relog fun hstate => ?_
  rw [record, if_neg hstate]
  exact List.subset_append_left _ _

variable (h : v.IsCoherent log)

include h

/-- Another lock and other posts do no harm as long as duties of the lifecycle are done by the task
with the lock and were to be done before. -/
theorem repost (lock : Lock) (posts : List Post) (sent : List (List Message))
    (hduties : ∀ u d, { v with posts }.duty? u = some d → d.isLocked = true →
      v.duty? u = some d ∧ lock.owner = some u)
    (halive : v.state = .initializing ∨ v.state = .initialized → { v with posts }.IsAlive) :
    { v with lock, posts, sent }.IsCoherent log := by
  refine ⟨fun u d hd hlocked => (hduties u d hd hlocked).2, fun u d hd => ?_, halive, h.agreed⟩
  cases hlocked : d.isLocked with
  | false => exact fits_of_not_locked hlocked
  | true =>
    have hfits := h.fits u d (hduties u d hd hlocked).1
    cases d <;> exact hfits

theorem set_sent (sent : List (List Message)) : { v with sent }.IsCoherent log :=
  h.repost v.lock v.posts sent (fun u d hd hlocked => ⟨hd, h.owned u d hd hlocked⟩) h.alive

/-- A failed session is not alive, and whoever works on it can go on. -/
theorem fail : v.fail.IsCoherent log := by
  rcases v.state.failed_cases with herror | hsame
  · have hstate : v.fail.state = .error := herror
    have hending (ending : Ending) (hfits : v.state = ending.state) :
        v.fail.state = ending.state := by
      show v.state.failed = ending.state
      rw [hfits]
      cases ending <;> rfl
    refine ⟨h.owned, fun t duty hduty => ?_, fun hlive => ?_, fun hlive => ?_⟩
    · have hfits := h.fits t duty hduty
      cases duty with
      | idle | asking | waiting | reading | finished => trivial
      | opening | greeting => exact .inr hstate
      | opened => exact ⟨hfits.1, .inr hstate⟩
      | confirming | confirmed => exact ⟨.inr hstate, hfits.2⟩
      | parting => exact .inr (.inr hstate)
      | quitting =>
        rw [show v.state = .shuttingDown from hfits] at herror
        cases herror
      | tearing ending | releasing ending | closed ending => exact hending ending hfits
    · rw [hstate] at hlive
      rcases hlive with hlive | hlive <;> cases hlive
    · rw [hstate] at hlive
      cases hlive
  · rw [View.fail, hsame, force_state]
    exact h

/-- When the task with the lifecycle lock goes on with another duty, the others have none. -/
theorem alone (howner : v.owner = some t)
    (hbase : ∀ u d, base.duty? u = some d → d.isLocked = true → v.duty? u = some d) {u : TaskId}
    {d : Duty} (hd : (base.setDuty t duty).duty? u = some d) :
    u = t ∧ d = duty ∨ d.isLocked = false := by
  rcases duty_of_set_duty hd with ⟨rfl, rfl⟩ | ⟨htu, hd⟩
  · exact .inl ⟨rfl, rfl⟩
  · refine .inr (Bool.eq_false_iff.mpr fun hlocked => htu ?_)
    have hu := h.owned u d (hbase u d hd hlocked) hlocked
    exact Option.some.inj (howner.symm.trans hu)

/-- The task with the lifecycle lock goes on with another duty. Only what becomes of this task and
of the session has to be looked at. -/
theorem lead (howner : v.owner = some t)
    (hbase : ∀ u d, base.duty? u = some d → d.isLocked = true → v.duty? u = some d)
    (hlock : duty.isLocked = true → base.owner = some t)
    (hfits : (base.setDuty t duty).Fits log duty)
    (halive : base.state = .initializing ∨ base.state = .initialized →
      (base.setDuty t duty).IsAlive)
    (hagreed : base.state = .initialized → base.IsApproved ∧ initializedMessage ∈ log) :
    (base.setDuty t duty).IsCoherent log := by
  refine ⟨fun u d hd hlocked => ?_, fun u d hd => ?_, halive, hagreed⟩
  · rcases h.alone howner hbase hd with ⟨rfl, rfl⟩ | hidle
    · exact hlock hlocked
    · rw [hidle] at hlocked
      cases hlocked
  · rcases h.alone howner hbase hd with ⟨rfl, rfl⟩ | hidle
    · exact hfits
    · exact fits_of_not_locked hidle

/-- The task with the lifecycle lock goes on while the session is not, or not any more, in use. -/
theorem lead_away (howner : v.owner = some t)
    (hbase : ∀ u d, base.duty? u = some d → d.isLocked = true → v.duty? u = some d)
    (hlock : duty.isLocked = true → base.owner = some t)
    (hfits : (base.setDuty t duty).Fits log duty)
    (hstate : base.state ≠ .initializing ∧ base.state ≠ .initialized) :
    (base.setDuty t duty).IsCoherent log :=
  h.lead howner hbase hlock hfits (fun hlive => (hlive.elim hstate.1 hstate.2).elim)
    fun hlive => (hstate.2 hlive).elim

/-- A task that has no part in the lifecycle, or ends, goes on; if it has the lifecycle lock, anyone
may get it. -/
theorem retire (lock : Lock) (hfree : duty.isLocked = false)
    (howner : lock.owner = v.owner ∨ v.owner = some t ∨ v.owner = none)
    (halive : v.state = .initializing ∨ v.state = .initialized → (v.setDuty t duty).IsAlive) :
    ({ v with lock }.setDuty t duty).IsCoherent log := by
  refine h.repost lock _ v.sent (fun u d hd hlocked => ?_) halive
  rcases duty_of_set_duty hd with ⟨-, rfl⟩ | ⟨htu, hold⟩
  · cases hfree.symm.trans hlocked
  · have hu := h.owned u d hold hlocked
    refine ⟨hold, ?_⟩
    rcases howner with hsame | ht | hnone
    · exact hsame.trans hu
    · exact absurd (Option.some.inj (ht.symm.trans hu)) htu
    · cases hnone.symm.trans hu

theorem spawn {duties : List Duty}
    (hfree : ∀ duty ∈ duties, duty.isLocked = false) : (v.spawn duties).IsCoherent log := by
  refine h.repost v.lock _ v.sent (fun u d hd hlocked => ?_) fun hstate => ?_
  · rcases duty_spawn hd with hold | hnew
    · exact ⟨hold, h.owned u d hold hlocked⟩
    · cases (hfree d hnew).symm.trans hlocked
  · obtain ⟨c, r, hwriter, hreader, hr⟩ := h.alive hstate
    exact ⟨c, r, hwriter, hreader, item_kept hr _⟩

/-- The writer accepts a message: the one that confirms the handshake is recorded. -/
theorem write {errand : Errand} (hwriter : v.writer = some c)
    (hconnection : c < v.sent.length) (hduty : v.duty? t = some (errand.duty message)) :
    ((v.accept c message).setDuty t (errand.dutyAfter (.ok ()))).IsCoherent
      (v.record log ((v.accept c message).setDuty t (errand.dutyAfter (.ok ())))) := by
  cases errand with
  | initialized =>
    obtain ⟨hstate, rfl, happroved⟩ := h.fits t _ hduty
    have howner := h.owned t _ hduty rfl
    have hconnecting : v.state ≠ .connecting := by
      rcases hstate with hstate | hstate <;> simp [hstate]
    have hinitialized : v.state ≠ .initialized := by
      rcases hstate with hstate | hstate <;> simp [hstate]
    rw [record_write hwriter hconnection hconnecting]
    have hmore : v.IsCoherent (log ++ [initializedMessage]) :=
      h.relog fun _ => List.subset_append_left _ _
    obtain ⟨post, hpost, hpostDuty⟩ := Option.map_eq_some_iff.mp hduty
    refine hmore.lead howner (fun _ _ hd _ => hd) (fun _ => howner) ?_ ?_ ?_
    · exact ⟨hstate, List.mem_append_right _ (List.mem_singleton_self _), happroved⟩
    · intro hlive
      refine (h.alive hlive).set_duty hpost (.inr fun c hread => ?_)
      rw [hpostDuty] at hread
      cases hread
    · exact fun hlive => (hinitialized hlive).elim
  | request | notification | cancellation | exit | reply =>
    rw [set_duty_accept hduty nofun]
    exact (h.set_sent _).recorded v

/-- The handshake is started, with the reading loop of the session. -/
theorem greet {folders : Value} (hduty : v.duty? t = some (.opened c)) :
    (({ (v.force .connected).force .initializing with
      reader := some v.posts.length, folders }.spawn [.reading c]).setDuty t .greeting).IsCoherent
        log := by
  have howner := h.owned t _ hduty rfl
  refine h.lead howner (fun _ _ => duty_spawn_reader) (fun _ => howner) (.inl rfl) (fun _ => ?_) nofun
  obtain ⟨post, hpost, -⟩ := Option.map_eq_some_iff.mp hduty
  obtain ⟨hlength, -⟩ := List.getElem?_eq_some_iff.mp hpost
  refine ⟨c, v.posts.length, (h.fits t _ hduty).1, rfl, ?_⟩
  simp [setDuty, View.spawn, View.force, Nat.ne_of_lt hlength]

/-- A turn of a task keeps the invariant, with what the session has written then. -/
theorem turn (hturn : v.Turn t next) : next.IsCoherent (v.record log next) := by
  -- No other duty is under way where one is, so its task has the lock.
  have hlead {duty : Duty} (hduty : v.duty? t = some duty) (hlocked : duty.isLocked = true) :
      v.owner = some t := h.owned t duty hduty hlocked
  have hkeeps {old : Duty} (new : Duty) (hduty : v.duty? t = some old)
      (hreading : ∀ c, old ≠ .reading c) (halive : v.IsAlive) : (v.setDuty t new).IsAlive := by
    obtain ⟨post, hpost, rfl⟩ := Option.map_eq_some_iff.mp hduty
    exact halive.set_duty hpost (.inr hreading)
  have hself (u : TaskId) (d : Duty) (hd : v.duty? u = some d) (_ : d.isLocked = true) :
      v.duty? u = some d := hd
  have hover {ending : Ending} (hstate : v.state = ending.state) :
      v.state ≠ .initializing ∧ v.state ≠ .initialized := by
    rw [hstate]
    cases ending <;> exact ⟨nofun, nofun⟩
  cases hturn with
  | stay => exact h.recorded v
  | answer n =>
    refine (h.spawn fun duty hduty => ?_).recorded v
    rw [List.eq_of_mem_replicate hduty]
    rfl
  | finish hduty =>
    exact (h.retire v.lock rfl (.inl rfl) fun hlive =>
      hkeeps _ hduty nofun (h.alive hlive)).recorded v
  | abort hpost haborted =>
    exact (h.retire v.lock rfl (.inl rfl) fun hlive =>
      (h.alive hlive).set_duty hpost (.inl haborted)).recorded v
  | write hwriter hconnection hduty => exact h.write hwriter hconnection hduty
  | balk hduty =>
    obtain ⟨hstate, -⟩ := h.fits _ _ hduty
    have howner := hlead hduty rfl
    refine .recorded v (h.lead howner hself (fun _ => howner) hstate (fun hlive => ?_)
      fun hlive => ?_)
    · exact hkeeps _ hduty nofun (h.alive hlive)
    · rcases hstate with hstate | hstate <;> cases hstate.symm.trans hlive
  | fail => exact h.fail.recorded v
  | lose hduty hfree =>
    refine .recorded v (h.fail.retire v.lock rfl (.inl rfl) fun hlive => ?_)
    have hstate := v.state.failed_not_live
    exact (hlive.elim hstate.1 hstate.2).elim
  | ask hduty =>
    refine .recorded v (h.retire _ rfl ?_ fun hlive => hkeeps _ hduty nofun (h.alive hlive))
    cases howner : v.lock.owner with
    | none => exact .inr (.inr howner)
    | some other => exact .inl (by simp only [Lock.ask, howner, owner])
  | refuse howner hduty | stray howner hduty =>
    exact (h.retire _ rfl (.inr (.inl howner)) fun hlive =>
      hkeeps _ hduty nofun (h.alive hlive)).recorded v
  | begin howner hduty hstate =>
    exact .recorded v (h.lead_away howner hself (fun _ => howner) (.inl rfl) ⟨nofun, nofun⟩)
  | misfire howner | halt howner =>
    exact .recorded v (h.lead_away howner hself (fun _ => howner) rfl ⟨nofun, nofun⟩)
  | part howner hduty hstate =>
    exact .recorded v (h.lead howner hself (fun _ => howner) (hstate.imp_right .inl)
      (fun hlive => hkeeps _ hduty nofun (h.alive hlive)) h.agreed)
  | install hduty =>
    have hstate : v.state = .connecting ∨ v.state = .error := h.fits _ _ hduty
    have howner := hlead hduty rfl
    refine .recorded v (h.lead_away howner hself (fun _ => howner) ⟨rfl, hstate⟩ ?_)
    rcases hstate with hstate | hstate <;> simp [hstate]
  | greet hduty hstate => exact (h.greet hduty).recorded v
  | stumble hduty hstate =>
    have howner := hlead hduty rfl
    exact .recorded v (h.lead_away howner (fun _ _ => duty_spawn_reader) (fun _ => howner)
      rfl ⟨nofun, nofun⟩)
  | giveUp hduty hstage =>
    have howner := hlead hduty (by rcases hstage with ⟨c, rfl⟩ | rfl | rfl <;> rfl)
    exact .recorded v (h.lead_away howner hself (fun _ => howner) rfl ⟨nofun, nofun⟩)
  | approve hduty hvalid =>
    have hstate : v.state = .initializing ∨ v.state = .error := h.fits _ _ hduty
    have howner := hlead hduty rfl
    refine .recorded v (h.lead howner hself (fun _ => howner) ⟨hstate, rfl, _, hvalid, rfl⟩
      (fun hlive => ?_) fun hlive => ?_)
    · exact hkeeps _ hduty nofun (h.alive hlive)
    · rcases hstate with hstate | hstate <;> cases hstate.symm.trans hlive
  | complete hduty hstate =>
    obtain ⟨-, hmem, happroved⟩ := h.fits _ _ hduty
    exact .recorded v (h.lead (hlead hduty rfl) hself nofun trivial
      (fun _ => hkeeps _ hduty nofun (h.alive (.inl hstate))) fun _ => ⟨happroved, hmem⟩)
  | dismiss hduty | quit hduty =>
    have howner := hlead hduty rfl
    exact .recorded v (h.lead_away howner hself (fun _ => howner) rfl ⟨nofun, nofun⟩)
  | unread hduty hreader =>
    have hstate := h.fits _ _ hduty
    have howner := hlead hduty rfl
    refine .recorded v (h.lead_away howner (fun u d hd _ => ?_) (fun _ => howner) hstate
      (hover hstate))
    rwa [duty_abort] at hd
  | forgo hduty | release hduty =>
    have hstate := h.fits _ _ hduty
    have howner := hlead hduty rfl
    exact .recorded v (h.lead_away howner hself (fun _ => howner) hstate (hover hstate))
  | concede hduty =>
    have hstate := h.fits _ _ hduty
    exact .recorded v (h.lead_away (hlead hduty rfl) hself nofun trivial (hover hstate))
  | conclude hduty =>
    exact .recorded v (h.lead_away (hlead hduty rfl) hself nofun trivial ⟨nofun, nofun⟩)

theorem step {occurrence : Occurrence}
    (hstep : v.Step occurrence next) : next.IsCoherent (v.record log next) := by
  cases hstep with
  | turn hturn => exact h.turn hturn
  | @drop t _ hdrop =>
    cases hdrop with
    | stay => exact h.recorded v
    | leave hpost hreading =>
      refine .recorded v (h.retire _ rfl ?_ fun hlive =>
        (h.alive hlive).set_duty hpost (.inr hreading))
      simp only [Lock.leave, owner]
      split
      · next howner => exact .inr (.inl howner)
      · exact .inl rfl
  | call call =>
    refine (h.spawn fun duty hduty => ?_).recorded v
    rw [List.mem_singleton.mp hduty]
    cases call <;> rfl
  | connect => exact (h.set_sent _).recorded v
  | relocate => exact View.IsCoherent.recorded v ⟨h.owned, h.fits, h.alive, h.agreed⟩
  | pass => exact h.recorded v

end IsCoherent

end View

/-- A valid answer to the handshake has an object of capabilities. -/
theorem capabilities_of_valid {provider : Server.Provider} {result : Value}
    (h : provider.validate result = .ok ()) :
    ∃ capabilities, result.member? "capabilities" = some capabilities ∧
      capabilities.isObject = true := by
  unfold Server.Provider.validate at h
  split at h
  · next hobject =>
    cases hmember : result.member? "capabilities" with
    | none =>
      rw [hmember] at hobject
      cases hobject
    | some capabilities =>
      rw [hmember] at hobject
      exact ⟨capabilities, rfl, hobject⟩
  · cases h

namespace Machine

/-- The messages that the last session of a run has written: those that its writer has accepted
since the client was last connecting. -/
def written (m : Machine) (log : List Message) : List Occurrence → List Message
  | [] => log
  | occurrence :: rest =>
    let next := m.perform occurrence
    next.written (m.view.record log next.view) rest

/-- A session that can be used, with the messages that it has written. -/
structure IsUsable (m : Machine) (log : List Message) : Prop where
  /-- A loop that has found no end of the connection, and is not aborted, reads for the session
  from the connection that the writer writes to. -/
  alive : ∃ c r task buffer, m.writer = some c ∧ m.reader = some r ∧ m.tasks[r]? = some task ∧
    task.phase = .reading c buffer ∧ task.isAborted = false
  greeted : initializedMessage ∈ log
  /-- The capabilities are those of an answer that the provider has found valid. -/
  approved : ∃ result capabilities, m.provider.validate result = .ok () ∧
    result.member? "capabilities" = some capabilities ∧ capabilities.isObject = true ∧
    m.capabilities = some capabilities

theorem run_coherent {m : Machine} {log : List Message} (h : m.view.IsCoherent log)
    (occurrences : List Occurrence) :
    (m.run occurrences).view.IsCoherent (m.written log occurrences) := by
  induction occurrences generalizing m log with
  | nil => exact h
  | cons occurrence rest ih => exact ih (h.step (perform_step m occurrence))

theorem unused_coherent (setup : Setup) : (unused setup).view.IsCoherent [] where
  owned _ _ hduty := nomatch hduty
  fits _ _ hduty := nomatch hduty
  alive hstate := nomatch hstate
  agreed hstate := nomatch hstate

/-- A client that is initialized, after whatever has happened to it, has a session that can be
used. -/
theorem usable_of_initialized (setup : Setup)
    (occurrences : List Occurrence)
    (hstate : ((unused setup).run occurrences).state =
      .initialized) :
    ((unused setup).run occurrences).IsUsable
      ((unused setup).written [] occurrences) := by
  have hcoherent := run_coherent (unused_coherent setup)
    occurrences
  obtain ⟨⟨result, hvalid, hcapabilities⟩, hgreeted⟩ := hcoherent.agreed hstate
  obtain ⟨capabilities, hmember, hobject⟩ := capabilities_of_valid hvalid
  obtain ⟨c, r, hwriter, hreader, hpost⟩ := hcoherent.alive (.inr hstate)
  refine ⟨?_, hgreeted, result, capabilities, hvalid, hmember, hobject, hcapabilities.trans hmember⟩
  rw [view, List.getElem?_map] at hpost
  obtain ⟨task, htask, hpost⟩ := Option.map_eq_some_iff.mp hpost
  obtain ⟨buffer, hphase⟩ := reading_of_duty (congrArg Post.duty hpost)
  exact ⟨c, r, task, buffer, hwriter, hreader, htask, hphase, congrArg Post.isAborted hpost⟩

/-- A session is lost after its handshake and stopped by task 2. Task 3 makes the handshake of
another one, which task 4 reads for. -/
def secondSession : List Occurrence :=
  handshake ++ [.endStream 0, .turn 1, .call .stop] ++ List.replicate 7 (.turn 2) ++
    [.connect, .call (.attach 1)] ++ List.replicate 8 (.turn 3) ++
    [.arrive 1 (.octets (Wire.encode
      (Message.success (.number 2) (.object [("capabilities", .object [])])).toValue)), .turn 4] ++
    List.replicate 6 (.turn 3)

/-- The second session of a client can be used when its handshake is complete. -/
theorem usable_second_session :
    (sampleClient.run secondSession).state = .initialized ∧
      (sampleClient.run secondSession).IsUsable (sampleClient.written [] secondSession) :=
  ⟨by decide +kernel, usable_of_initialized _ secondSession (by decide +kernel)⟩

end Machine

end CodeAtlas.Client
