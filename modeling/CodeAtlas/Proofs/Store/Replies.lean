import CodeAtlas.Proofs.Store.Isolation
import CodeAtlas.Proofs.Store.Readiness

/-!
# The ledger of replies

A comment is answered once: `replies_once`. In a run the ledger changes by notes alone, which are
replies that were recorded as the first and times before which all replies were removed
(`IsCalm.happen_notes`). What it holds in the end is said from the notes (`held_iff`).
-/

namespace CodeAtlas.Store

/-- A comment, its pull request and its repository. -/
abbrev Triple := Int × Int × String

def Triple.cells (key : Triple) : Cell × Cell × String :=
  (.integer key.1, .integer key.2.1, key.2.2)

/-- When a comment was answered, as far as it is known. -/
def Tables.answered? (tables : Tables) (key : Triple) : Option Cell :=
  (tables.replies.find? fun entry => entry.key == key.cells).map Entry.repliedAt

/-- A change of the ledger. -/
inductive Note where
  | recorded (key : Triple) (time : Int)
  | expired (cutoff : Int)
deriving DecidableEq

def Note.apply (key : Triple) (held : Option Cell) : Note → Option Cell
  | .recorded other time => if other = key then some (.integer time) else held
  | .expired cutoff => held.filter fun time => !time.lt (.integer cutoff)

/-- Whether a reply from a time is not removed. -/
def Lasts (time : Cell) (notes : List Note) : Prop :=
  ∀ cutoff, .expired cutoff ∈ notes → time.lt (.integer cutoff) = false

/-- Whether a comment is recorded only while it is not held. -/
def IsFresh (key : Triple) : Option Cell → List Note → Prop
  | _, [] => True
  | held, note :: rest =>
    (∀ time, note = .recorded key time → held = none) ∧ IsFresh key (note.apply key held) rest

section Notes

variable {key : Triple} {held : Option Cell} {time : Cell} {notes : List Note}

/-- What is held after notes was recorded by one of them, or held before, and not removed since. -/
theorem held_iff (h : IsFresh key held notes) : notes.foldl (Note.apply key) held = some time ↔
    held = some time ∧ Lasts time notes ∨ ∃ earlier first later,
      notes = earlier ++ .recorded key first :: later ∧ .integer first = time ∧
        Lasts time later := by
  induction notes generalizing held with
  | nil => simp [Lasts]
  | cons note rest ih =>
    have hlasts : Lasts time (note :: rest) ↔
        (∀ cutoff, note = .expired cutoff → time.lt (.integer cutoff) = false) ∧
          Lasts time rest := by
      simp only [Lasts, List.mem_cons, or_imp, forall_and, eq_comm]
    have hsplit : (∃ earlier first later, note :: rest = earlier ++ .recorded key first :: later ∧
        .integer first = time ∧ Lasts time later) ↔
        (∃ first, note = .recorded key first ∧ .integer first = time ∧ Lasts time rest) ∨
          ∃ earlier first later, rest = earlier ++ .recorded key first :: later ∧
            .integer first = time ∧ Lasts time later := by
      constructor
      · rintro ⟨earlier, first, later, heq, hlater⟩
        cases earlier with
        | nil =>
          obtain ⟨rfl, rfl⟩ := List.cons_eq_cons.mp heq
          exact .inl ⟨first, rfl, hlater⟩
        | cons _ earlier =>
          obtain ⟨rfl, rfl⟩ := List.cons_eq_cons.mp heq
          exact .inr ⟨earlier, first, later, rfl, hlater⟩
      · rintro (⟨first, rfl, hrest⟩ | ⟨earlier, first, later, rfl, hlater⟩)
        · exact ⟨[], first, rest, rfl, hrest⟩
        · exact ⟨note :: earlier, first, later, rfl, hlater⟩
    rw [List.foldl_cons, ih h.2, hlasts, hsplit, ← or_assoc]
    refine or_congr_left ?_
    cases note with
    | recorded other first =>
      by_cases hother : other = key
      · subst hother
        simp [Note.apply, h.1 first rfl]
      · simp [Note.apply, hother]
    | expired cutoff => simp [Note.apply, and_assoc]

theorem fresh_append {more : List Note} : IsFresh key held (notes ++ more) ↔
    IsFresh key held notes ∧ IsFresh key (notes.foldl (Note.apply key) held) more := by
  induction notes generalizing held with
  | nil => simp [IsFresh]
  | cons note rest ih => simp [IsFresh, ih, and_assoc]

/-- A comment that is recorded again was removed in between. -/
theorem removed_between {earlier between later : List Note} {first second : Int}
    (h : IsFresh key held
      (earlier ++ .recorded key first :: between ++ .recorded key second :: later)) :
    ∃ cutoff, .expired cutoff ∈ between ∧ first < cutoff := by
  obtain ⟨hbefore, hsecond⟩ := fresh_append.mp h
  by_contra hkept
  have hlasts : Lasts (.integer first) between := by
    intro cutoff hmem
    have hle : ¬ first < cutoff := fun hlt => hkept ⟨cutoff, hmem, hlt⟩
    simpa [Cell.lt, Cell.le] using hle
  have hheld := (held_iff hbefore).mpr (.inr ⟨earlier, first, between, rfl, rfl, hlasts⟩)
  rw [hsecond.1 second rfl] at hheld
  cases hheld

end Notes

theorem Triple.cells_inj {key other : Triple} : key.cells = other.cells ↔ key = other := by
  simp [cells, Prod.ext_iff]

namespace Tables

variable {tables after : Tables}

/-- A reply is recorded if there is none, and else nothing is changed. -/
theorem answered_record (key : Triple) {entry : Entry} {time : Int} {isFirst : Bool}
    (hkey : entry.key = key.cells) (htime : entry.repliedAt = .integer time)
    (hdone : tables.recordReply entry = .ok (isFirst, after)) :
    (isFirst = true ↔ tables.answered? key = none) ∧
      ∀ other, after.answered? other = if isFirst then
        (Note.recorded key time).apply other (tables.answered? other)
      else tables.answered? other := by
  have hnone : tables.answered? key = none ↔
      tables.replies.any (fun other => other.key == entry.key) = false := by
    simp [answered?, hkey]
  rw [recordReply] at hdone
  split at hdone
  next hold =>
    cases hdone
    exact ⟨by simp [hnone, hold], fun _ => rfl⟩
  next hnew =>
    cases hdone
    rw [Bool.not_eq_true] at hnew
    refine ⟨by simp [hnone, hnew], fun other => ?_⟩
    have hmissing := Option.map_eq_none_iff.mp (hnone.mpr hnew)
    rw [if_pos rfl, Note.apply, answered?, List.find?_append]
    by_cases hother : key = other
    · subst hother
      simp [hmissing, hkey, htime]
    · simp [answered?, hkey, Triple.cells_inj, hother]

theorem answered_iff (h : tables.Sound) {key : Triple} {time : Cell} :
    tables.answered? key = some time ↔
      ∃ entry ∈ tables.replies, entry.key = key.cells ∧ entry.repliedAt = time := by
  rw [answered?, Option.map_eq_some_iff]
  constructor
  · rintro ⟨entry, hfind, htime⟩
    exact ⟨entry, List.mem_of_find?_eq_some hfind, by simpa using List.find?_some hfind, htime⟩
  · rintro ⟨entry, hentry, hkey, htime⟩
    refine ⟨entry, find_unique (fun other hother hsame => ?_) hentry (beq_iff_eq.mpr hkey), htime⟩
    exact List.inj_on_of_nodup_map h.answers hother hentry ((beq_iff_eq.mp hsame).trans hkey.symm)

/-- The replies from before a time are removed, and no others. -/
theorem Sound.answered_expire (h : tables.Sound) {cutoff : Int} {count : Nat}
    (hdone : tables.deleteRepliesBefore cutoff = .ok (count, after)) (key : Triple) :
    after.answered? key = (Note.expired cutoff).apply key (tables.answered? key) := by
  refine Option.ext fun time => ?_
  rw [Note.apply, Option.filter_eq_some_iff, answered_iff h, answered_iff (h.delete_replies hdone)]
  cases hdone
  simp only [List.mem_filter]
  grind

/-- Tables after notes, by which a comment is recorded only while it is not held. -/
def Follows (notes : List Note) (before after : Tables) : Prop :=
  ∀ key, IsFresh key (before.answered? key) notes ∧
    after.answered? key = notes.foldl (Note.apply key) (before.answered? key)

theorem follows_nil (h : after.replies = tables.replies) : tables.Follows [] after :=
  fun _ => ⟨trivial, by rw [answered?, h]; rfl⟩

theorem Follows.trans {last : Tables} {notes more : List Note} (h : tables.Follows notes after)
    (hmore : after.Follows more last) : tables.Follows (notes ++ more) last := by
  intro key
  rw [fresh_append, List.foldl_append, ← (h key).2]
  exact ⟨⟨(h key).1, (hmore key).1⟩, (hmore key).2⟩

end Tables

/-! ## Notes of a run -/

/-- The note of a reply, which is made if it is the first. -/
def recorded (key : Triple) (time : Int) : Except Error Bool → List Note
  | .ok true => [.recorded key time]
  | _ => []

/-- What an occurrence notes, by what it returns. -/
def noted (store : Store) : Occurrence → List Note
  | .call (.recordReply comment pullRequest repository) =>
    recorded (comment, pullRequest, repository) store.session.world.now
      (store.recordReply comment pullRequest repository).1
  | .call (.recordReplyAt comment pullRequest repository time) =>
    recorded (comment, pullRequest, repository) time.millis
      (store.recordReplyAt comment pullRequest repository time).1
  | .call (.cleanupReplies age) =>
    match (store.cleanupReplies age).1 with
    | .ok _ => [.expired (cutoff store.session.world.now age)]
    | .error _ => []
  | _ => []

def notes (store : Store) : List Occurrence → List Note
  | [] => []
  | occurrence :: rest => store.noted occurrence ++ (store.happen occurrence).notes rest

/-- Whether an occurrence is a call on rows, or does not lose the database of a path. -/
def Occurrence.Spares (path : String) : Occurrence → Prop
  | .call .isHealthy | .call .reset | .damage | .reopen _ => False
  | .befall incidents => ∀ incident ∈ incidents, incident.Spares path
  | _ => True

section Runs

variable {α : Type} {store : Store} {statement : Statement α} {occurrence : Occurrence}
  {occurrences : List Occurrence} {call : Call}

/-- A reply is the first if there is none, and then it is noted. -/
theorem IsCalm.record (h : store.IsCalm) (key : Triple) (time : Int)
    {outcome : Except Error Bool × Store}
    (houtcome : outcome = if Text.blank key.2.2 then (.error .missingRepository, store)
      else store.write "record_reply" (.recordReply key.1 key.2.1 key.2.2 time)) :
    store.Passes (Tables.Follows (recorded key time outcome.1)) outcome.2 ∧
      ∀ isFirst, outcome.1 = .ok isFirst →
        (isFirst = true ↔ store.tables.answered? key = none) := by
  subst houtcome
  split
  next => exact ⟨.refl h (Tables.follows_nil rfl), fun _ herror => by cases herror⟩
  next hnamed =>
    have hsound :=
      Statement.record_reply_sound (Bool.eq_false_iff.mpr hnamed) key.1 key.2.1 time
    have hpasses := h.write_result hsound "record_reply"
    rcases hpasses.tables with ⟨now, isFirst, hok, hdone⟩ | ⟨⟨e, herror⟩, htables⟩
    · obtain ⟨hfirst, hanswered⟩ := Tables.answered_record key rfl rfl hdone
      refine ⟨⟨hpasses.path, hpasses.calm, fun other => ?_⟩, fun b hb => ?_⟩
      · rw [hok, hanswered]
        cases isFirst with
        | false => exact ⟨trivial, rfl⟩
        | true =>
          refine ⟨⟨fun first heq => ?_, trivial⟩, rfl⟩
          cases heq
          exact hfirst.mp rfl
      · cases hok.symm.trans hb
        exact hfirst
    · refine ⟨⟨hpasses.path, hpasses.calm, ?_⟩, fun b hb => by cases herror.symm.trans hb⟩
      rw [herror]
      exact Tables.follows_nil (congrArg Tables.replies htables)

theorem Tables.Upserts.replies {ds : List Symbol.Declaration} {before after : Tables}
    (h : before.Upserts ds after) : after.replies = before.replies := by
  induction h with
  | refl => rfl
  | step _ hdone _ ih =>
    rw [ih]
    obtain ⟨_, ⟨_, _, _, _, rfl⟩ | ⟨_, _, rfl⟩⟩ := Tables.upsert_cases hdone <;> rfl

def Call.isRecord : Call → Bool
  | .recordReply _ _ _ | .recordReplyAt _ _ _ _ => true
  | _ => false

theorem Call.Effect.replies {before after : Tables} (h : call.Effect before after)
    (hcall : call.isRecord = false) : after.replies = before.replies := by
  cases h with
  | nothing => rfl
  | insert _ hwritten | insertMany _ hwritten => exact hwritten.replies
  | change hdone =>
    rcases Tables.update_cases hdone with ⟨_, rfl, _⟩ | ⟨_, _, _, _, _, _, _, rfl⟩ <;> rfl
  | deleteFile hdone | deleteRepository hdone =>
    cases hdone
    rfl
  | recordReply | recordReplyAt => cases hcall

/-- The ledger changes by what is noted. -/
theorem IsCalm.happen_notes (h : store.IsCalm) (hoccurrence : occurrence.Spares store.path) :
    store.Passes (Tables.Follows (store.noted occurrence)) (store.happen occurrence) := by
  have hsame {next : Store} (hpasses : store.Passes Eq next) :
      store.Passes (Tables.Follows []) next :=
    ⟨hpasses.path, hpasses.calm, hpasses.tables ▸ Tables.follows_nil rfl⟩
  have hothers (call : Call) (hcall : call.isNamed = true) (hrecord : call.isRecord = false) :
      store.Passes (Tables.Follows []) (store.happen (.call call)) := by
    have hpasses := h.perform_named hcall
    exact ⟨hpasses.path, hpasses.calm, Tables.follows_nil (hpasses.tables.replies hrecord)⟩
  cases occurrence with
  | passTime elapsed => exact hsame (h.pass_time elapsed)
  | befall incidents => exact hsame (h.befall hoccurrence)
  | damage | reopen => cases hoccurrence
  | call call =>
    cases call with
    | recordReply comment pullRequest repository =>
      have houtcome : store.recordReply comment pullRequest repository = _ := rfl
      exact (h.record (comment, pullRequest, repository) _ houtcome).1
    | recordReplyAt comment pullRequest repository time =>
      have houtcome : store.recordReplyAt comment pullRequest repository time = _ := rfl
      exact (h.record (comment, pullRequest, repository) _ houtcome).1
    | cleanupReplies age =>
      have hpasses := h.write_result
        (Statement.delete_replies_before_sound (cutoff store.session.world.now age))
        "cleanup_old_replies"
      refine ⟨hpasses.path, hpasses.calm, ?_⟩
      rw [noted, cleanupReplies, expireReplies, ← cutoff]
      rcases hpasses.tables with ⟨now, count, hok, hdone⟩ | ⟨⟨e, herror⟩, htables⟩
      · rw [hok]
        refine fun key => ⟨⟨fun _ heq => ?_, trivial⟩, h.sound.answered_expire hdone key⟩
        cases heq
      · rw [herror]
        exact Tables.follows_nil (congrArg Tables.replies htables)
    | isHealthy | reset => cases hoccurrence
    | insert | insertMany | change | deleteFile | deleteRepository | inquire =>
      exact hothers _ rfl rfl

theorem IsCalm.run_notes (h : store.IsCalm)
    (hoccurrences : ∀ occurrence ∈ occurrences, occurrence.Spares store.path) :
    store.Passes (Tables.Follows (store.notes occurrences)) (store.run occurrences) := by
  induction occurrences generalizing store with
  | nil => exact .refl h (Tables.follows_nil rfl)
  | cons occurrence rest ih =>
    have hfirst := h.happen_notes (hoccurrences occurrence (.head _))
    have hrest := ih hfirst.calm fun other hother =>
      hfirst.path ▸ hoccurrences other (.tail _ hother)
    exact ⟨hrest.path.trans hfirst.path, hrest.calm, hfirst.tables.trans hrest.tables⟩

theorem millis_of_millis {ms : Int} {time : Time.Timestamp}
    (h : Time.Timestamp.ofMillis? ms = some time) : time.millis = ms := by
  obtain ⟨_, h⟩ := Option.ite_none_right_eq_some.mp h
  cases h
  simp only [Time.Timestamp.millis]
  omega

theorem read_reply_time {entry : Entry} {reply : Symbol.Reply} (h : entry.read = .ok reply) :
    entry.repliedAt = .integer reply.repliedAt.millis := by
  rw [Entry.read] at h
  obtain ⟨_, _, h⟩ := bind_eq_ok h
  obtain ⟨_, _, h⟩ := bind_eq_ok h
  obtain ⟨time, htime, h⟩ := bind_eq_ok h
  cases h
  cases hcell : entry.repliedAt with
  | integer ms =>
    simp only [hcell, readTime, readInteger, bind, Except.bind] at htime
    split at htime
    next found hfound =>
      cases htime
      rw [millis_of_millis hfound]
    next => cases htime
  | real | text =>
    rw [hcell] at htime
    cases htime

variable {comment pullRequest : Int} {repository : String}

theorem find_reply_answered {tables : Tables} {found : Option Symbol.Reply}
    (h : tables.findReply comment pullRequest repository = .ok found) :
    found.map (fun reply => Cell.integer reply.repliedAt.millis) =
      tables.answered? (comment, pullRequest, repository) := by
  rw [Tables.findReply] at h
  rw [Tables.answered?, Triple.cells]
  split at h
  next hnone =>
    cases h
    rw [hnone]
    rfl
  next entry hentry =>
    obtain ⟨reply, hreply, rfl⟩ := map_eq_ok h
    rw [hentry, Option.map_some, Option.map_some, read_reply_time hreply]

theorem find_reply_ok {tables : Tables}
    (hreplied : ∀ entry ∈ tables.replies, ∃ ms, entry.repliedAt = .integer ms)
    (h : ∀ ms, tables.answered? (comment, pullRequest, repository) = some (.integer ms) →
      (Time.Timestamp.ofMillis? ms).isSome = true) :
    ∃ found, tables.findReply comment pullRequest repository = .ok found := by
  rw [Tables.findReply]
  split
  next => exact ⟨none, rfl⟩
  next entry hentry =>
    obtain ⟨ms, hms⟩ := hreplied entry (List.mem_of_find?_eq_some hentry)
    have hanswered : tables.answered? (comment, pullRequest, repository) = some (.integer ms) := by
      simp [Tables.answered?, Triple.cells, hentry, hms]
    obtain ⟨time, htime⟩ := Option.isSome_iff_exists.mp (h ms hanswered)
    have hkey : entry.key = (.integer comment, .integer pullRequest, repository) := by
      simpa using List.find?_some hentry
    obtain ⟨hcomment, hkey⟩ := Prod.mk.inj hkey
    refine ⟨some ⟨comment, pullRequest, entry.repository, time⟩, ?_⟩
    rw [Entry.read, hcomment, (Prod.mk.inj hkey).1, hms, read_time htime]
    rfl

theorem IsCalm.get_reply {found : Option Symbol.Reply} (h : store.IsCalm)
    (hfound : (store.getReply comment pullRequest repository).1 = .ok found) :
    found.map (fun reply => Cell.integer reply.repliedAt.millis) =
      store.tables.answered? (comment, pullRequest, repository) := by
  rw [getReply, Store.within] at hfound
  split at hfound
  next => cases hfound
  next => exact find_reply_answered ((h.read (find_reply_fails · _ _ _)).2 found hfound)

theorem IsReady.get_reply (h : store.IsReady) (hnamed : Text.blank repository = false)
    (hfound : ∃ found, store.tables.findReply comment pullRequest repository = .ok found) :
    ∃ found, (store.getReply comment pullRequest repository).1 = .ok found := by
  obtain ⟨found, hfound⟩ := hfound
  rw [getReply, Store.within, if_neg (by simp [hnamed]),
    (h.read (find_reply_fails · comment pullRequest repository)).1]
  exact ⟨found, congrArg (Except.mapError _) hfound⟩

theorem IsReady.record_reply (h : store.IsReady) (hnamed : Text.blank repository = false)
    (time : Time.Timestamp) :
    (store.recordReplyAt comment pullRequest repository time).1.isOk = true := by
  obtain ⟨_, _, hok⟩ := h.write_is_ok
    (Statement.record_reply_sound hnamed comment pullRequest time.millis) "record_reply"
  rw [recordReplyAt, Store.within, if_neg (by simp [hnamed]), hok]
  simp only [Statement.recordReply, Tables.recordReply]
  split <;> rfl

theorem Reachable.run (h : store.Reachable) (occurrences : List Occurrence) :
    (store.run occurrences).Reachable := by
  obtain ⟨path, options, disk, opened, earlier, hdisk, hopen, rfl⟩ := h
  exact ⟨path, options, disk, opened, earlier ++ occurrences, hdisk, hopen,
    (List.foldl_append ..).symm⟩

theorem Reachable.replied_at (h : store.Reachable) :
    ∀ entry ∈ store.tables.replies, ∃ ms, entry.repliedAt = .integer ms :=
  Session.Keeps.tables_all (h.keeps_all (Tables.invariant_replies fun _ _ _ ms => ⟨ms, rfl⟩))
    (List.forall_mem_nil _)

/-- In any run of calls on an index that loses no database, what the ledger holds about a comment is
what was first recorded since it was last removed, if it was, and this is what reads return. A reply
is recorded exactly if there is none, so a comment that is recorded twice was removed in between.
Calls on symbols leave the ledger as it is. Damage is left out, and for databases in memory failures
that may pass: these lose the database with its connection. -/
theorem replies_once (h : store.Reachable) (hintact : store.IsIntact)
    (hincidents : ∀ incident ∈ store.session.world.incidents, incident.Spares store.path)
    (hoccurrences : ∀ occurrence ∈ occurrences, occurrence.Spares store.path)
    (comment pullRequest : Int) (repository : String) :
    let key : Triple := (comment, pullRequest, repository)
    let notes := store.notes occurrences
    let last := store.run occurrences
    (∀ time, last.tables.answered? key = some time ↔
      store.tables.answered? key = some time ∧ Lasts time notes ∨ ∃ earlier first later,
        notes = earlier ++ .recorded key first :: later ∧ .integer first = time ∧
          Lasts time later) ∧
    (∀ earlier first between second later,
      notes = earlier ++ .recorded key first :: between ++ .recorded key second :: later →
        ∃ cutoff, .expired cutoff ∈ between ∧ first < cutoff) ∧
    (∀ time isFirst, (last.recordReplyAt comment pullRequest repository time).1 = .ok isFirst →
      (isFirst = true ↔ last.tables.answered? key = none)) ∧
    (∀ found, (last.getReply comment pullRequest repository).1 = .ok found →
      found.map (fun reply => Cell.integer reply.repliedAt.millis) = last.tables.answered? key) ∧
    (∀ flag, (last.hasReplied comment pullRequest repository).1 = .ok flag →
      flag = (last.tables.answered? key).isSome) ∧
    (∀ call : Call, call.isNamed = true → call.isRecord = false →
      (last.perform call).tables.replies = last.tables.replies) ∧
    (last.IsUsable → Text.blank repository = false →
      (∀ time, (last.recordReplyAt comment pullRequest repository time).1.isOk = true) ∧
      ((∀ ms, last.tables.answered? key = some (.integer ms) →
          (Time.Timestamp.ofMillis? ms).isSome = true) →
        ∃ found, (last.getReply comment pullRequest repository).1 = .ok found ∧
          (last.hasReplied comment pullRequest repository).1 = .ok found.isSome)) := by
  intro key notes last
  have hpasses := (h.isCalm hintact hincidents).run_notes hoccurrences
  obtain ⟨hfresh, hheld⟩ := hpasses.tables key
  refine ⟨fun time => ?_, ?_, fun time => ?_, fun found hfound => hpasses.calm.get_reply hfound,
    fun flag hflag => ?_, fun _ hcall => (hpasses.calm.perform_named hcall).tables.replies,
    fun husable hnamed => ?_⟩
  · rw [hheld]
    exact held_iff hfresh
  · rintro earlier first between second later heq
    rw [show store.notes occurrences = _ from heq] at hfresh
    exact removed_between hfresh
  · have houtcome : last.recordReplyAt comment pullRequest repository time = _ := rfl
    exact (hpasses.calm.record key _ houtcome).2
  · have hflag : Option.isSome <$> (last.getReply comment pullRequest repository).1 = .ok flag :=
      hflag
    obtain ⟨found, hfound, rfl⟩ := map_eq_ok hflag
    rw [← hpasses.calm.get_reply hfound, Option.isSome_map]
  · have hreachable := h.run occurrences
    have hready := hreachable.isReady husable
    refine ⟨hready.record_reply hnamed, fun hread => ?_⟩
    obtain ⟨found, hfound⟩ :=
      hready.get_reply hnamed (find_reply_ok hreachable.replied_at hread)
    exact ⟨found, hfound, congrArg (Option.isSome <$> ·) hfound⟩

end Runs

def repeatedReplies : List Occurrence :=
  [.call (.recordReplyAt 1 2 "r" ⟨5, 0⟩), .call (.recordReplyAt 1 2 "r" ⟨9, 0⟩),
    .call (.deleteRepository "r")]

/-- The first of two replies is kept, also when its repository is deleted. -/
theorem replies_once_sample : (sampleStore.run repeatedReplies).tables.answered? (1, 2, "r") =
    some (.integer 5000) := by
  have hreachable : sampleStore.Reachable := ⟨_, _, _, _, [], sample_disk_empty, open_sample, rfl⟩
  have hahead : sampleStore.session.world.incidents = [] := by decide +kernel
  have hspares : ∀ occurrence ∈ repeatedReplies, occurrence.Spares sampleStore.path := by
    simp [repeatedReplies, Occurrence.Spares]
  obtain ⟨hheld, _⟩ :=
    replies_once hreachable (by decide +kernel) (by simp [hahead]) hspares 1 2 "r"
  refine (hheld _).mpr (.inr ⟨[], 5000, [], by decide +kernel, rfl, fun _ hmem => ?_⟩)
  cases hmem

end CodeAtlas.Store
