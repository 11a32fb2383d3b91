import CodeAtlas.Proofs.Client.Session

/-!
# What a session leaves behind

A client that is disconnected keeps nothing of any session: it has no writer, no reading loop, no
process and no capabilities, whichever way its last session ended and whichever calls were dropped
on the way. The invariant `View.IsTidy` says so. It also says which part of a session is gone at
each stage of its end, and that a loop which reads without being aborted reads for the session, so
the abort of that one loop leaves none behind.
-/

namespace CodeAtlas.Client

/-- Whether a task with this duty reads from a connection, or has ended. -/
def Duty.isReader : Duty → Bool
  | .reading _ => true
  | .finished => true
  | _ => false

/-- Whether a task in this phase reads from a connection, or has ended. -/
def Phase.isReader : Phase → Bool
  | .reading _ _ => true
  | .finished => true
  | _ => false

theorem Phase.duty_is_reader (phase : Phase) : phase.duty.isReader = phase.isReader := by
  have hother {duty : Duty} (h : duty.isLast = false) : duty.isReader = false := by
    cases duty with
    | reading | finished => cases h
    | _ => rfl
  have hlast := phase.duty_is_last
  cases phase with
  | shutting | closed | reading | finished => rfl
  | _ => exact hother hlast

theorem Duty.isReader_of_locked {duty : Duty} (h : duty.isLocked = true) :
    duty.isReader = false := by
  cases duty with
  | reading | finished => cases h
  | _ => rfl

/-- The posts of tasks agree with the reading loop of the session. -/
structure Reads (posts : List Post) (reader : Option TaskId) : Prop where
  aborted : ∀ (t : TaskId) (post : Post), posts[t]? = some post → post.isAborted = true →
    post.duty.isReader = true
  /-- The task that reads for the session is a reading loop, perhaps one that has ended. -/
  current : ∀ r, reader = some r → ∃ post : Post, posts[r]? = some post ∧ post.duty.isReader = true
  /-- A loop that reads and is not aborted reads for the session. -/
  attached : ∀ (t : TaskId) c, posts[t]? = some ⟨.reading c, false⟩ → reader = some t

variable {duties : List Duty}

namespace Reads

variable {posts : List Post} {reader : Option TaskId} {t u : TaskId}

/-- A task that does not read gets something else to do, or a task ends. -/
theorem set_duty (h : Reads posts reader) {old : Post} {duty : Duty} (hpost : posts[t]? = some old)
    (hreading : ∀ c, duty ≠ .reading c) (hold : old.duty.isReader = false ∨ duty = .finished) :
    Reads (posts.modify t fun post => { post with duty }) reader where
  aborted u post hu haborted := by
    rcases item_modified hu with ⟨-, hsame⟩ | ⟨rfl, before, hbefore, rfl⟩
    · exact h.aborted u post hsame haborted
    · cases hpost.symm.trans hbefore
      rcases hold with hidle | rfl
      · rw [h.aborted t old hpost haborted] at hidle
        cases hidle
      · rfl
  current r hr := by
    obtain ⟨post, hold', hreader⟩ := h.current r hr
    refine ⟨_, by rw [List.getElem?_modify, hold']; rfl, ?_⟩
    split
    · next htr =>
      cases (htr ▸ hpost).symm.trans hold'
      rcases hold with hidle | rfl
      · rw [hreader] at hidle
        cases hidle
      · rfl
    · exact hreader
  attached u c hu := by
    rcases item_modified hu with ⟨-, hsame⟩ | ⟨rfl, before, -, hduty⟩
    · exact h.attached u c hsame
    · exact absurd (congrArg Post.duty hduty).symm (hreading c)

theorem spawn (h : Reads posts reader) (hfree : ∀ duty ∈ duties, ∀ c, duty ≠ .reading c) :
    Reads (posts ++ duties.map fun duty => ⟨duty, false⟩) reader := by
  have hcases {u : TaskId} {post : Post}
      (hu : (posts ++ duties.map fun duty => ⟨duty, false⟩)[u]? = some post) :
      posts[u]? = some post ∨ post.isAborted = false ∧ post.duty ∈ duties := by
    rcases item_appended hu with hsame | ⟨-, hnew⟩
    · exact .inl hsame
    · obtain ⟨duty, hmem, rfl⟩ := List.mem_map.mp hnew
      exact .inr ⟨rfl, hmem⟩
  refine ⟨fun u post hu haborted => ?_, fun r hr => ?_, fun u c hu => ?_⟩
  · rcases hcases hu with hsame | ⟨hnew, -⟩
    · exact h.aborted u post hsame haborted
    · cases haborted.symm.trans hnew
  · obtain ⟨post, hpost, hreader⟩ := h.current r hr
    exact ⟨post, item_kept hpost _, hreader⟩
  · rcases hcases hu with hsame | ⟨-, hnew⟩
    · exact h.attached u c hsame
    · exact absurd rfl (hfree _ hnew c)

theorem start (h : Reads posts none) (c : ConnectionId) :
    Reads (posts ++ [⟨.reading c, false⟩]) (some posts.length) := by
  refine ⟨fun u post hu haborted => ?_, fun r hr => ?_, fun u d hu => ?_⟩
  · rcases item_pushed hu with hsame | ⟨-, rfl⟩
    · exact h.aborted u post hsame haborted
    · cases haborted
  · cases hr
    exact ⟨⟨.reading c, false⟩, by simp, rfl⟩
  · rcases item_pushed hu with hsame | ⟨rfl, -⟩
    · cases h.attached u d hsame
    · rfl

/-- The reading loop of the session is aborted, and no other loop reads. -/
theorem abort {r : TaskId} (h : Reads posts (some r)) :
    Reads (posts.modify r fun post => { post with isAborted := true }) none := by
  refine ⟨fun u post hu haborted => ?_, nofun, fun u c hu => ?_⟩
  · rcases item_modified hu with ⟨-, hsame⟩ | ⟨rfl, old, hold, rfl⟩
    · exact h.aborted u post hsame haborted
    · obtain ⟨post, hpost, hreader⟩ := h.current r rfl
      cases hold.symm.trans hpost
      exact hreader
  · rcases item_modified hu with ⟨hne, hsame⟩ | ⟨-, old, -, hpost⟩
    · exact absurd (Option.some.inj (h.attached u c hsame)) hne
    · exact absurd (congrArg Post.isAborted hpost) Bool.false_ne_true

end Reads

namespace View

variable {v next base : View} {log : List Rpc.Message} {t : TaskId} {duty old : Duty}

/-- Nothing of a session is left. -/
def IsVacant (v : View) : Prop :=
  v.writer = none ∧ v.reader = none ∧ v.hasProcess = false ∧ v.capabilities = none

/-- What is gone of the session, or not there yet, while a duty is done. -/
def Lacks (v : View) : Duty → Prop
  | .opening _ => v.reader = none
  | .opened _ => v.reader = none
  | .releasing _ => v.reader = none
  | .closed _ => v.reader = none ∧ v.writer = none
  | _ => True

/-- A client keeps of a session only what it still needs. -/
structure IsTidy (v : View) : Prop where
  reads : Reads v.posts v.reader
  vacant : v.state = .disconnected → v.IsVacant
  lacks : ∀ t duty, v.duty? t = some duty → v.Lacks duty

theorem lacks_of_not_locked (h : duty.isLocked = false) : v.Lacks duty := by
  cases duty <;> trivial

theorem Lacks.of_eq (h : v.Lacks duty) (hreader : next.reader = v.reader)
    (hwriter : next.writer = v.writer) : next.Lacks duty := by
  cases duty <;> simp only [Lacks, hreader, hwriter] at h ⊢ <;> exact h

theorem IsTidy.lead (hcoherent : v.IsCoherent log) (howner : v.owner = some t)
    (hbase : ∀ u d, base.duty? u = some d → d.isLocked = true → v.duty? u = some d)
    (hreads : Reads (base.setDuty t duty).posts base.reader)
    (hvacant : base.state = .disconnected → base.IsVacant) (hlacks : base.Lacks duty) :
    (base.setDuty t duty).IsTidy := by
  refine ⟨hreads, hvacant, fun u d hd => ?_⟩
  rcases hcoherent.alone howner hbase hd with ⟨rfl, rfl⟩ | hidle
  · exact hlacks.of_eq rfl rfl
  · exact lacks_of_not_locked hidle

namespace IsTidy

variable (h : v.IsTidy)

include h

theorem set_duty (hduty : v.duty? t = some old) (hold : old.isReader = false ∨ duty = .finished)
    (hreading : ∀ c, duty ≠ .reading c) : Reads (v.setDuty t duty).posts v.reader := by
  obtain ⟨post, hpost, rfl⟩ := Option.map_eq_some_iff.mp hduty
  exact h.reads.set_duty hpost hreading hold

theorem reader_of_aborted {post : Post} (hpost : v.posts[t]? = some post)
    (haborted : post.isAborted = true) : v.duty? t = some post.duty ∧ post.duty.isReader = true :=
  ⟨by rw [duty?, hpost, Option.map_some], h.reads.aborted t post hpost haborted⟩

theorem retire (lock : Lock) (hfree : duty.isLocked = false)
    (hreads : Reads (v.setDuty t duty).posts v.reader) :
    ({ v with lock }.setDuty t duty).IsTidy := by
  refine ⟨hreads, h.vacant, fun u d hd => ?_⟩
  rcases duty_of_set_duty hd with ⟨-, rfl⟩ | ⟨-, hold⟩
  · exact lacks_of_not_locked hfree
  · exact (h.lacks u d hold).of_eq rfl rfl

theorem spawn (hfree : ∀ duty ∈ duties, duty.isLocked = false ∧ ∀ c, duty ≠ .reading c) :
    (v.spawn duties).IsTidy := by
  refine ⟨h.reads.spawn fun duty hduty => (hfree duty hduty).2, h.vacant, fun u d hd => ?_⟩
  rcases duty_spawn hd with hold | hnew
  · exact (h.lacks u d hold).of_eq rfl rfl
  · exact lacks_of_not_locked (hfree d hnew).1

theorem fail : v.fail.IsTidy :=
  ⟨h.reads, fun hstate => h.vacant (State.disconnected_of_failed hstate),
    fun u d hd => (h.lacks u d hd).of_eq rfl rfl⟩

theorem set_sent (sent : List (List Rpc.Message)) : { v with sent }.IsTidy :=
  ⟨h.reads, h.vacant, fun u d hd => (h.lacks u d hd).of_eq rfl rfl⟩

/-- A message that is accepted leaves its task with a duty of the same kind. -/
theorem write {c : ConnectionId} {message : Rpc.Message} {errand : Errand}
    (hduty : v.duty? t = some (errand.duty message)) :
    ((v.accept c message).setDuty t (errand.dutyAfter (.ok ()))).IsTidy := by
  have haccept : (v.accept c message).IsTidy := h.set_sent _
  cases errand with
  | initialized =>
    refine ⟨h.set_duty hduty (.inl rfl) nofun, h.vacant, fun u d hd => ?_⟩
    rcases duty_of_set_duty hd with ⟨-, rfl⟩ | ⟨-, hold⟩
    · trivial
    · exact (haccept.lacks u d hold).of_eq rfl rfl
  | request | notification | cancellation | exit | reply =>
    rw [set_duty_accept hduty nofun]
    exact haccept

/-- The task that has installed a writer starts the reading loop, and goes on. -/
theorem start_reading {c : ConnectionId} (hduty : v.duty? t = some old) (hreader : v.reader = none)
    (hold : old.isReader = false) (hreading : ∀ c, duty ≠ .reading c) :
    Reads ((v.spawn [.reading c]).setDuty t duty).posts (some v.posts.length) := by
  obtain ⟨post, hpost, rfl⟩ := Option.map_eq_some_iff.mp hduty
  have hstart : Reads (v.spawn [.reading c]).posts (some v.posts.length) :=
    (hreader ▸ h.reads).start c
  exact hstart.set_duty (item_kept hpost _) hreading (.inl hold)

theorem turn (hcoherent : v.IsCoherent log) (hturn : v.Turn t next) : next.IsTidy := by
  -- Only the owner of the session has a locked duty, so `lead` applies to each of them.
  have hown {duty : Duty} (hduty : v.duty? t = some duty) (hlocked : duty.isLocked = true) :
      v.owner = some t := hcoherent.owned t duty hduty hlocked
  have hself (u : TaskId) (d : Duty) (hd : v.duty? u = some d) (_ : d.isLocked = true) :
      v.duty? u = some d := hd
  have hending {ending : Ending} (hstate : v.state = ending.state)
      (hdisconnected : v.state = .disconnected) : False := by
    rw [hstate] at hdisconnected
    cases ending <;> cases hdisconnected
  cases hturn with
  | stay => exact h
  | answer n =>
    refine h.spawn fun duty hduty => ?_
    rw [List.eq_of_mem_replicate hduty]
    exact ⟨rfl, nofun⟩
  | finish hduty => exact h.retire v.lock rfl (h.set_duty hduty (.inr rfl) nofun)
  | abort hpost haborted =>
    have hduty := (h.reader_of_aborted hpost haborted).1
    exact h.retire v.lock rfl (h.set_duty hduty (.inr rfl) nofun)
  | write hwriter hconnection hduty => exact h.write hduty
  | balk hduty =>
    exact .lead hcoherent (hown hduty rfl) hself (h.set_duty hduty (.inl rfl) nofun) h.vacant
      trivial
  | fail => exact h.fail
  | lose hduty hfree => exact h.fail.retire v.lock rfl (h.fail.set_duty hduty (.inr rfl) nofun)
  | ask hduty => exact h.retire _ rfl (h.set_duty hduty (.inl rfl) nofun)
  | refuse _ hduty | stray _ hduty => exact h.retire _ rfl (h.set_duty hduty (.inr rfl) nofun)
  | begin howner hduty hstate =>
    obtain ⟨-, hreader, -⟩ := h.vacant hstate
    exact .lead hcoherent howner hself (h.set_duty hduty (.inl rfl) nofun) nofun hreader
  | misfire howner hduty | halt howner hduty =>
    exact .lead hcoherent howner hself (h.set_duty hduty (.inl rfl) nofun) nofun trivial
  | part howner hduty hstate =>
    exact .lead hcoherent howner hself (h.set_duty hduty (.inl rfl) nofun) h.vacant trivial
  | install hduty =>
    have hstate : v.state = .connecting ∨ v.state = .error := hcoherent.fits _ _ hduty
    refine .lead hcoherent (hown hduty rfl) hself (h.set_duty hduty (.inl rfl) nofun)
      (fun hdisconnected => ?_) (h.lacks _ _ hduty)
    rcases hstate with hstate | hstate <;> cases hstate.symm.trans hdisconnected
  | greet hduty | stumble hduty =>
    exact .lead hcoherent (hown hduty rfl) (fun _ _ => duty_spawn_reader)
      (h.start_reading hduty (h.lacks _ _ hduty) rfl nofun) nofun trivial
  | @giveUp duty e hduty hstage =>
    have hlocked : duty.isLocked = true := by rcases hstage with ⟨c, rfl⟩ | rfl | rfl <;> rfl
    exact .lead hcoherent (hown hduty hlocked) hself
      (h.set_duty hduty (.inl (Duty.isReader_of_locked hlocked)) nofun) nofun trivial
  | approve hduty hvalid =>
    have hstate : v.state = .initializing ∨ v.state = .error := hcoherent.fits _ _ hduty
    refine .lead hcoherent (hown hduty rfl) hself (h.set_duty hduty (.inl rfl) nofun)
      (fun hdisconnected => ?_) trivial
    rcases hstate with hstate | hstate <;> cases hstate.symm.trans hdisconnected
  | complete hduty hstate =>
    exact .lead hcoherent (hown hduty rfl) hself (h.set_duty hduty (.inr rfl) nofun) nofun trivial
  | dismiss hduty | quit hduty =>
    exact .lead hcoherent (hown hduty rfl) hself (h.set_duty hduty (.inl rfl) nofun) nofun trivial
  | @unread r ending hduty hreader =>
    have hreads : Reads (v.posts.modify r fun post => { post with isAborted := true }) none :=
      (hreader ▸ h.reads).abort
    refine .lead hcoherent (hown hduty rfl) (fun u d hd _ => ?_) ?_
      (fun hstate => (hending (hcoherent.fits _ _ hduty) hstate).elim) rfl
    · rwa [duty_abort] at hd
    · obtain ⟨post, hpost, hold⟩ := Option.map_eq_some_iff.mp hduty
      refine hreads.set_duty (t := t) (by rw [List.getElem?_modify, hpost]; rfl) nofun (.inl ?_)
      split <;> rw [hold] <;> rfl
  | forgo hduty hreader =>
    exact .lead hcoherent (hown hduty rfl) hself (h.set_duty hduty (.inl rfl) nofun) h.vacant
      hreader
  | release hduty =>
    exact .lead hcoherent (hown hduty rfl) hself (h.set_duty hduty (.inl rfl) nofun)
      (fun hstate => (hending (hcoherent.fits _ _ hduty) hstate).elim)
      ⟨h.lacks _ _ hduty, rfl⟩
  | concede hduty =>
    exact .lead hcoherent (hown hduty rfl) hself (h.set_duty hduty (.inr rfl) nofun)
      (fun hstate => (hending (hcoherent.fits _ _ hduty) hstate).elim) trivial
  | conclude hduty =>
    obtain ⟨hreader, hwriter⟩ := h.lacks _ _ hduty
    exact .lead hcoherent (hown hduty rfl) hself (h.set_duty hduty (.inr rfl) nofun)
      (fun _ => ⟨hwriter, hreader, rfl, rfl⟩) trivial

theorem step {occurrence : Occurrence} (hcoherent : v.IsCoherent log)
    (hstep : v.Step occurrence next) : next.IsTidy := by
  cases hstep with
  | turn hturn => exact h.turn hcoherent hturn
  | drop hdrop =>
    cases hdrop with
    | stay => exact h
    | leave hpost hreading => exact h.retire _ rfl (h.reads.set_duty hpost nofun (.inr rfl))
  | call call =>
    refine h.spawn fun duty hduty => ?_
    rw [List.mem_singleton.mp hduty]
    cases call <;> exact ⟨rfl, nofun⟩
  | connect => exact h.set_sent _
  | relocate => exact ⟨h.reads, h.vacant, fun u d hd => (h.lacks u d hd).of_eq rfl rfl⟩
  | pass => exact h

end IsTidy

end View

namespace Machine

theorem unused_tidy (setup : Setup) : (unused setup).view.IsTidy where
  reads := ⟨fun _ _ hpost => (nomatch hpost), nofun, fun _ _ hpost => (nomatch hpost)⟩
  vacant _ := ⟨rfl, rfl, rfl, rfl⟩
  lacks _ _ hduty := nomatch hduty

variable {m : Machine}

theorem not_aborted {t : TaskId} {task : Task} (h : m.view.IsTidy)
    (htask : m.tasks[t]? = some task) (hreader : task.phase.isReader = false) :
    task.isAborted = false := by
  rw [Bool.eq_false_iff]
  intro haborted
  have hreads := (h.reader_of_aborted (view_post htask) haborted).2
  exact Bool.false_ne_true (hreader.symm.trans (task.phase.duty_is_reader.symm.trans hreads))

/-- A client as runs leave it: its session is coherent, and its tasks are tidy. -/
structure IsRegular (m : Machine) : Prop where
  coherent : ∃ log, m.view.IsCoherent log
  tidy : m.view.IsTidy

theorem unused_regular (setup : Setup) : (unused setup).IsRegular :=
  ⟨⟨_, unused_coherent setup⟩, unused_tidy setup⟩

theorem IsRegular.perform (h : m.IsRegular) (occurrence : Occurrence) :
    (m.perform occurrence).IsRegular := by
  obtain ⟨⟨log, hcoherent⟩, htidy⟩ := h
  have hstep := perform_step m occurrence
  exact ⟨⟨_, hcoherent.step hstep⟩, htidy.step hcoherent hstep⟩

/-- What every occurrence keeps in a regular client holds along every run. -/
theorem run_keeps {P : Machine → Prop}
    (hkeeps : ∀ (m : Machine) occurrence, m.IsRegular → P m → P (m.perform occurrence))
    (hm : m.IsRegular) (h : P m) (occurrences : List Occurrence) : P (m.run occurrences) := by
  induction occurrences generalizing m with
  | nil => exact h
  | cons occurrence rest ih => exact ih (hm.perform occurrence) (hkeeps m occurrence hm h)

theorem IsRegular.run (h : m.IsRegular) (occurrences : List Occurrence) :
    (m.run occurrences).IsRegular :=
  run_keeps (fun _ occurrence hm _ => hm.perform occurrence) h h occurrences

end Machine

end CodeAtlas.Client
