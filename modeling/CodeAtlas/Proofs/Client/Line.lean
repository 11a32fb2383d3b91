import CodeAtlas.Proofs.Client.Tidiness

/-!
# The line at a lock

A lock is given to the tasks that ask for it in the order in which they asked, so what matters is
its `line`: whoever asks goes to the end, passing the lock on takes the first task off, and a call
that is dropped leaves the others in their order.

Whoever is in the line of the lifecycle lock is a start, attach or stop under way (`Guards`), so
that lock is never left with a task that has ended.
-/

namespace CodeAtlas.Client

namespace Lock

variable {lock : Lock} {t : TaskId}

/-- The tasks at a lock: the one that has it, and those that wait for it in their order. -/
def line (lock : Lock) : List TaskId := lock.owner.toList ++ lock.waiting

/-- Nobody waits for a lock that is free, and nobody stands in its line twice. -/
structure IsProper (lock : Lock) : Prop where
  taken : lock.owner = none → lock.waiting = []
  distinct : lock.line.Nodup

theorem line_of_owner (h : lock.owner = some t) : lock.line = t :: lock.waiting := by
  rw [line, h]
  rfl

theorem line_ask (h : lock.IsProper) (t : TaskId) : (lock.ask t).line = lock.line ++ [t] := by
  cases howner : lock.owner with
  | none => simp [ask, line, howner, h.taken howner]
  | some owner => simp [ask, line, howner]

theorem line_pass (h : lock.IsProper) : lock.pass.line = lock.line.tail := by
  have hline : lock.pass.line = lock.waiting := by
    cases hwaiting : lock.waiting with
    | nil | cons => simp [pass, line, hwaiting]
  cases howner : lock.owner with
  | none =>
    rw [hline, line, howner, h.taken howner]
    rfl
  | some owner => rw [hline, line_of_owner howner, List.tail_cons]

/-- A task that leaves is not in the line any more, and the others stay in their order. -/
theorem line_leave (h : lock.IsProper) (t : TaskId) :
    (lock.leave t).line = lock.line.filter (· ≠ t) := by
  unfold leave
  split
  · next howner =>
    have hdistinct := h.distinct
    rw [line_of_owner howner, List.nodup_cons] at hdistinct
    rw [line_pass h, line_of_owner howner, List.tail_cons, List.filter_cons_of_neg (by simp)]
    symm
    rw [List.filter_eq_self]
    intro u hu
    simpa using fun heq : u = t => hdistinct.1 (heq ▸ hu)
  · next howner =>
    cases hother : lock.owner with
    | none => simp [line, hother]
    | some owner =>
      have hne : owner ≠ t := fun heq => howner (heq ▸ hother)
      simp [line, hother, hne]

theorem IsProper.ask (h : lock.IsProper) (ht : t ∉ lock.line) : (lock.ask t).IsProper := by
  refine ⟨?_, ?_⟩
  · intro hnone
    cases howner : lock.owner <;> simp [Lock.ask, howner] at hnone
  · rw [line_ask h, List.nodup_append]
    refine ⟨h.distinct, List.pairwise_singleton _ _, ?_⟩
    intro u hu other hother heq
    exact ht (List.mem_singleton.mp hother ▸ heq ▸ hu)

theorem IsProper.pass (h : lock.IsProper) : lock.pass.IsProper := by
  refine ⟨?_, ?_⟩
  · intro hnone
    simp only [Lock.pass, List.head?_eq_none_iff] at hnone ⊢
    rw [hnone, List.tail_nil]
  · rw [line_pass h]
    exact h.distinct.tail

theorem IsProper.leave (h : lock.IsProper) (t : TaskId) : (lock.leave t).IsProper := by
  refine ⟨?_, ?_⟩
  · intro hnone
    unfold Lock.leave at hnone ⊢
    split at hnone
    · next howner =>
      rw [if_pos howner]
      exact h.pass.taken hnone
    · next howner =>
      rw [if_neg howner]
      simp [h.taken hnone]
  · rw [line_leave h]
    exact h.distinct.filter _

end Lock

/-- Whether a call with this duty is in the line of the lifecycle lock. -/
def Duty.hasAsked : Duty → Bool
  | .waiting _ => true
  | duty => duty.isLocked

theorem Duty.not_asked_of_reader {duty : Duty} (h : duty.isReader = true) :
    duty.hasAsked = false := by
  cases duty with
  | reading | finished => rfl
  | _ => cases h

/-- Everybody in the line of the lifecycle lock is a call under way. -/
structure Guards (lock : Lock) (posts : List Post) : Prop where
  proper : lock.IsProper
  asked : ∀ t ∈ lock.line, ∃ post : Post, posts[t]? = some post ∧ post.duty.hasAsked = true

namespace Guards

variable {lock : Lock} {posts : List Post} {t : TaskId} {old : Post} {duty : Duty}
  (h : Guards lock posts)

include h

theorem not_mem (hpost : posts[t]? = some old) (hfree : old.duty.hasAsked = false) :
    t ∉ lock.line := by
  intro ht
  obtain ⟨post, hother, hasked⟩ := h.asked t ht
  cases hpost.symm.trans hother
  exact Bool.false_ne_true (hfree.symm.trans hasked)

/-- Those who stay in a line are calls under way after another task got something else to do. -/
theorem mono {next : Lock} (hproper : next.IsProper)
    (hline : ∀ u ∈ next.line, u ∈ lock.line ∧ u ≠ t) :
    Guards next (posts.modify t fun post => { post with duty }) := by
  refine ⟨hproper, ?_⟩
  intro u hu
  obtain ⟨hmem, hne⟩ := hline u hu
  obtain ⟨post, hpost, hasked⟩ := h.asked u hmem
  exact ⟨post, by simp [hpost, hne.symm], hasked⟩

/-- A task goes on that is not in the line, or stays in it. -/
theorem set_duty (hpost : posts[t]? = some old)
    (hasked : old.duty.hasAsked = false ∨ duty.hasAsked = true) :
    Guards lock (posts.modify t fun post => { post with duty }) := by
  refine ⟨h.proper, ?_⟩
  intro u hu
  obtain ⟨post, hother, hold⟩ := h.asked u hu
  refine ⟨_, by rw [List.getElem?_modify, hother]; rfl, ?_⟩
  split
  · next htu =>
    cases (htu ▸ hpost).symm.trans hother
    rcases hasked with hfree | hasked
    · exact absurd (hfree.symm.trans hold) Bool.false_ne_true
    · exact hasked
  · exact hold

theorem spawn (more : List Post) : Guards lock (posts ++ more) := by
  refine ⟨h.proper, ?_⟩
  intro u hu
  obtain ⟨post, hpost, hasked⟩ := h.asked u hu
  exact ⟨post, item_kept hpost more, hasked⟩

theorem abort (r : TaskId) :
    Guards lock (posts.modify r fun post => { post with isAborted := true }) := by
  refine ⟨h.proper, ?_⟩
  intro u hu
  obtain ⟨post, hpost, hasked⟩ := h.asked u hu
  refine ⟨_, by rw [List.getElem?_modify, hpost]; rfl, ?_⟩
  split <;> exact hasked

theorem ask (hpost : posts[t]? = some old) (hfree : old.duty.hasAsked = false)
    (hasked : duty.hasAsked = true) :
    Guards (lock.ask t) (posts.modify t fun post => { post with duty }) := by
  have hnew := h.not_mem hpost hfree
  refine ⟨h.proper.ask hnew, ?_⟩
  intro u hu
  rw [Lock.line_ask h.proper, List.mem_append, List.mem_singleton] at hu
  rcases hu with hu | rfl
  · exact (h.set_duty hpost (.inl hfree)).asked u hu
  · exact ⟨{ old with duty }, by simp [hpost], hasked⟩

theorem pass (howner : lock.owner = some t) :
    Guards lock.pass (posts.modify t fun post => { post with duty }) := by
  refine h.mono h.proper.pass ?_
  intro u hu
  have hdistinct := h.proper.distinct
  rw [Lock.line_of_owner howner, List.nodup_cons] at hdistinct
  rw [Lock.line_pass h.proper, Lock.line_of_owner howner, List.tail_cons] at hu
  refine ⟨by rw [Lock.line_of_owner howner]; exact List.mem_cons_of_mem _ hu, ?_⟩
  rintro rfl
  exact hdistinct.1 hu

theorem leave (t : TaskId) :
    Guards (lock.leave t) (posts.modify t fun post => { post with duty }) := by
  refine h.mono (h.proper.leave t) ?_
  intro u hu
  rw [Lock.line_leave h.proper, List.mem_filter] at hu
  exact ⟨hu.1, by simpa using hu.2⟩

end Guards

namespace View

variable {v next : View} {log : List Rpc.Message} {t : TaskId} {duty : Duty}

/-- A turn of a task leaves only calls under way in the line of the lifecycle lock. -/
theorem guards_turn (h : Guards v.lock v.posts) (hcoherent : v.IsCoherent log) (htidy : v.IsTidy)
    (hturn : v.Turn t next) : Guards next.lock next.posts := by
  have hset {old new : Duty} (hduty : v.duty? t = some old)
      (hasked : old.hasAsked = false ∨ new.hasAsked = true) :
      Guards v.lock (v.setDuty t new).posts := by
    obtain ⟨post, hpost, rfl⟩ := Option.map_eq_some_iff.mp hduty
    exact h.set_duty hpost hasked
  have hspawn {old new : Duty} (hduty : v.duty? t = some old) (duties : List Duty)
      (hasked : old.hasAsked = false ∨ new.hasAsked = true) :
      Guards v.lock ((v.spawn duties).setDuty t new).posts := by
    obtain ⟨post, hpost, rfl⟩ := Option.map_eq_some_iff.mp hduty
    exact (h.spawn _).set_duty (item_kept hpost _) hasked
  have hown {old : Duty} (hduty : v.duty? t = some old) (hlocked : old.isLocked = true) :
      v.lock.owner = some t := hcoherent.owned t old hduty hlocked
  cases hturn with
  | stay | fail => exact h
  | answer n => exact h.spawn _
  | finish hduty => exact hset hduty (.inl rfl)
  | abort hpost haborted =>
    obtain ⟨hduty, hreader⟩ := htidy.reader_of_aborted hpost haborted
    exact hset hduty (.inl (Duty.not_asked_of_reader hreader))
  | @write c message errand hwriter hconnection hduty =>
    cases errand with
    | initialized => exact hset hduty (.inr rfl)
    | request | notification | cancellation | exit | reply =>
      rw [set_duty_accept hduty nofun]
      exact h
  | balk hduty | begin _ hduty | misfire _ hduty | part _ hduty | halt _ hduty | install hduty
  | giveUp hduty | approve hduty | dismiss hduty | quit hduty | forgo hduty | release hduty =>
    exact hset hduty (.inr rfl)
  | lose hduty hfree =>
    refine hset hduty (.inl ?_)
    rcases hfree with rfl | ⟨c, rfl⟩ <;> rfl
  | ask hduty =>
    obtain ⟨post, hpost, hold⟩ := Option.map_eq_some_iff.mp hduty
    exact h.ask hpost (by rw [hold]; rfl) rfl
  | refuse howner | stray howner => exact h.pass howner
  | greet hduty | stumble hduty => exact hspawn hduty _ (.inr rfl)
  | complete hduty | concede hduty | conclude hduty => exact h.pass (hown hduty rfl)
  | @unread r ending hduty hreader =>
    obtain ⟨post, hpost, hold⟩ := Option.map_eq_some_iff.mp hduty
    exact (h.abort r).set_duty (t := t) (by rw [List.getElem?_modify, hpost]; rfl) (.inr rfl)

theorem guards_step {occurrence : Occurrence} (h : Guards v.lock v.posts)
    (hcoherent : v.IsCoherent log) (htidy : v.IsTidy) (hstep : v.Step occurrence next) :
    Guards next.lock next.posts := by
  cases hstep with
  | turn hturn => exact guards_turn h hcoherent htidy hturn
  | drop hdrop =>
    cases hdrop with
    | stay => exact h
    | leave hpost hreading => exact h.leave _
  | call call => exact h.spawn _
  | connect | relocate | pass => exact h

end View

namespace Machine

/-- Only calls under way are in the line of the lifecycle lock, along every run. -/
theorem run_guards {m : Machine} (h : Guards m.view.lock m.view.posts) (hm : m.IsRegular)
    (occurrences : List Occurrence) :
    Guards (m.run occurrences).view.lock (m.run occurrences).view.posts := by
  refine run_keeps (P := fun m => Guards m.view.lock m.view.posts) ?_ hm h occurrences
  rintro m occurrence ⟨⟨log, hcoherent⟩, htidy⟩ hguards
  exact View.guards_step hguards hcoherent htidy (perform_step m occurrence)

end Machine

end CodeAtlas.Client
