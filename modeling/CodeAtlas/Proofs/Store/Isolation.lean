import CodeAtlas.Proofs.Store.Queries

/-!
# Repositories in one database

All repositories share two tables, one sequence of ids and one relation of parents. A statement
about a repository leaves the replies of every other repository alone, and all rows of theirs except
for parents: a row loses its parent exactly when the statement deletes it (`Tables.Spares`).
`Call.Effect` says everything that a call about a repository can do, and a run of such calls spares
all other repositories (`run_isolated`).
-/

namespace CodeAtlas.Store

open CodeAtlas.Symbol (Change Declaration Reply Stored)
open Time (Timestamp)

variable {ds : List Declaration}

namespace Tables

variable {r s : String} {before after last : Tables}

/-- The rows whose ids are gone afterwards. -/
def lost (before after : Tables) : List Row :=
  before.symbols.filter fun row => !after.symbols.any fun other => other.id == row.id

/-- Tables after rows of a repository were deleted, and others of it perhaps written: other
repositories have what they had, apart from parents that are gone. -/
structure Loses (r : String) (before : Tables) (gone : List Row) (after : Tables) : Prop where
  replies : ∀ s, s ≠ r → (after.within s).replies = (before.within s).replies
  symbols : ∀ s, s ≠ r → (after.within s).symbols = (before.within s).symbols.map (Row.orphan gone)
  gone : ∀ row ∈ gone, row.repository = r

/-- Tables after one thing was done about a repository. -/
def Spares (r : String) (before after : Tables) : Prop :=
  before.Loses r (before.lost after) after

/-- Tables after something was written to a repository and nothing deleted. -/
structure Extends (r : String) (before after : Tables) : Prop where
  within : ∀ s, s ≠ r → after.within s = before.within s
  ids : ∀ row ∈ before.symbols, ∃ other ∈ after.symbols, other.id = row.id

theorem Extends.refl (r : String) (tables : Tables) : tables.Extends r tables :=
  ⟨fun _ _ => rfl, fun row hrow => ⟨row, hrow, rfl⟩⟩

theorem Extends.trans (h : before.Extends r after) (hlast : after.Extends r last) :
    before.Extends r last := by
  refine ⟨fun s hs => (hlast.within s hs).trans (h.within s hs), fun row hrow => ?_⟩
  obtain ⟨other, hother, hid⟩ := h.ids row hrow
  obtain ⟨final, hfinal, hsame⟩ := hlast.ids other hother
  exact ⟨final, hfinal, hsame.trans hid⟩

theorem orphan_nil : Row.orphan [] = id := rfl

theorem orphan_append (gone more : List Row) (row : Row) :
    (row.orphan gone).orphan more = row.orphan (gone ++ more) := by
  rw [Row.orphan.eq_def (gone ++ more), List.any_append, Row.orphan.eq_def gone]
  cases gone.any fun other => row.parent = some (.integer other.id) with
  | true =>
    -- without a parent there is none to lose
    rw [Row.orphan, if_pos rfl, if_neg, Bool.true_or, if_pos rfl]
    simp
  | false => rw [if_neg (by decide), Bool.false_or, Row.orphan]

theorem Loses.refl (r : String) (tables : Tables) : tables.Loses r [] tables := by
  refine ⟨fun _ _ => rfl, fun _ _ => ?_, fun _ hrow => nomatch hrow⟩
  rw [orphan_nil, List.map_id]

theorem Loses.trans {gone more : List Row} (h : before.Loses r gone after)
    (hlast : after.Loses r more last) : before.Loses r (gone ++ more) last := by
  refine ⟨fun s hs => (hlast.replies s hs).trans (h.replies s hs), fun s hs => ?_, fun row hrow => ?_⟩
  · rw [hlast.symbols s hs, h.symbols s hs, List.map_map]
    exact List.map_congr_left fun row _ => orphan_append gone more row
  · rcases List.mem_append.mp hrow with hrow | hrow
    · exact h.gone row hrow
    · exact hlast.gone row hrow

theorem Extends.spares (h : before.Extends r after) : before.Spares r after := by
  have hlost : before.lost after = [] := by
    rw [lost, List.filter_eq_nil_iff]
    intro row hrow
    obtain ⟨other, hother, hid⟩ := h.ids row hrow
    simp only [Bool.not_eq_true', Bool.not_eq_false, List.any_eq_true, beq_iff_eq]
    exact ⟨other, hother, hid⟩
  rw [Spares, hlost]
  refine ⟨fun s hs => by rw [h.within s hs], fun s hs => ?_, fun _ hrow => nomatch hrow⟩
  rw [h.within s hs, orphan_nil, List.map_id]

/-! ## Statements about a repository -/

/-- Tables after some of the given declarations were written, one by one, each at some time. -/
inductive Upserts (ds : List Declaration) : Tables → Tables → Prop where
  | refl (tables : Tables) : Upserts ds tables tables
  | step {d : Declaration} {now id : Int} {before middle after : Tables} (hd : d ∈ ds)
    (hdone : before.upsert d now = .ok (id, middle)) (hrest : Upserts ds middle after) :
    Upserts ds before after

theorem Upserts.trans (h : before.Upserts ds after) (hlast : after.Upserts ds last) :
    before.Upserts ds last := by
  induction h with
  | refl => exact hlast
  | step hd hdone _ ih => exact .step hd hdone (ih hlast)

variable {count : Nat}

theorem upserts_all {batch : List Declaration} {now : Int} (hbatch : ∀ d ∈ batch, d ∈ ds)
    (h : before.upsertAll batch now = .ok (count, after)) : before.Upserts ds after := by
  refine upsert_each_induction (before.Upserts ds) ?_ (.refl before) (upsert_all_ok h).2
  intro d hd tables id next hwritten hnext
  exact hwritten.trans (.step (hbatch d hd) hnext (.refl next))

/-- Items that pass a test and are changed by nothing are found among the changed ones. -/
theorem filter_map_of_fixed {α : Type} {p : α → Bool} {f : α → α} {items : List α}
    (hfixed : ∀ a ∈ items, p a = true → f a = a)
    (hrest : ∀ a ∈ items, p a = false → p (f a) = false) :
    (items.map f).filter p = items.filter p := by
  induction items with
  | nil => rfl
  | cons first rest ih =>
    have ih := ih (fun a ha => hfixed a (.tail _ ha)) fun a ha => hrest a (.tail _ ha)
    rw [List.map_cons]
    cases hfirst : p first with
    | true =>
      rw [hfixed first (.head _) hfirst, List.filter_cons_of_pos hfirst,
        List.filter_cons_of_pos hfirst, ih]
    | false =>
      have hchanged := hrest first (.head _) hfirst
      rw [List.filter_cons_of_neg (by rw [hchanged]; exact nofun),
        List.filter_cons_of_neg (by rw [hfirst]; exact nofun), ih]

theorem Extends.replace (h : before.Sound) {changed old : Row} (hold : old ∈ before.symbols)
    (hid : changed.id = old.id) (hold_repository : old.repository = r)
    (hrepository : changed.repository = r) :
    before.Extends r { before with symbols := replaceRow changed before.symbols } := by
  refine ⟨fun s hs => ?_, fun row hrow => ?_⟩
  · rw [Tables.within, Tables.within]
    congr 1
    refine filter_map_of_fixed (fun row hrow hrow_repository => ?_) fun row _ hother => ?_
    · refine if_neg fun heq => hs ?_
      rw [beq_iff_eq] at hrow_repository
      rw [← hrow_repository, h.row_unique hrow hold (heq.trans hid), hold_repository]
    · split
      · rw [hrepository, beq_eq_false_iff_ne]
        exact hs.symm
      · exact hother
  · have hmem : row.id ∈ (replaceRow changed before.symbols).map Row.id := by
      rw [map_id_replace_row]
      exact List.mem_map_of_mem hrow
    obtain ⟨other, hother, hsame⟩ := List.mem_map.mp hmem
    exact ⟨other, hother, hsame⟩

theorem Extends.append {added : Row} (hrepository : added.repository = r) :
    before.Extends r { before with symbols := before.symbols ++ [added] } := by
  refine ⟨fun s hs => ?_, fun row hrow => ⟨row, List.mem_append_left _ hrow, rfl⟩⟩
  have hnone : [added].filter (fun row => row.repository == s) = [] := by
    rw [List.filter_singleton, hrepository, beq_eq_false_iff_ne.mpr hs.symm]
    rfl
  rw [Tables.within, Tables.within, List.filter_append, hnone, List.append_nil]

theorem Extends.upsert (h : before.Sound) {d : Declaration} {now id : Int}
    (hrepository : d.repository = r) (hdone : before.upsert d now = .ok (id, after)) :
    before.Extends r after := by
  obtain ⟨_, ⟨old, hold, hkey, rfl, rfl⟩ | ⟨_, rfl, rfl⟩⟩ := upsert_cases hdone
  · have hsame : old.repository = r := (congrArg Key.repository hkey).trans hrepository
    exact .replace h hold rfl hsame hsame
  · exact .append hrepository

theorem Extends.upserts (h : before.Sound) (hnamed : ∀ d ∈ ds, Text.blank d.repository = false)
    (hrepository : ∀ d ∈ ds, d.repository = r) (hwritten : before.Upserts ds after) :
    before.Extends r after := by
  induction hwritten with
  | refl tables => exact .refl r tables
  | step hd hdone _ ih =>
    exact (Extends.upsert h (hrepository _ hd) hdone).trans (ih (h.upsert (hnamed _ hd) hdone))

theorem Extends.update (h : before.Sound) {id now : Int} {c : Change} {found : Bool}
    (hdone : before.update r id c now = .ok (found, after)) : before.Extends r after := by
  obtain ⟨_, rfl, _⟩ | ⟨_, row, hrow, rfl, hrepository, _, _, rfl⟩ := update_cases hdone
  · exact .refl r after
  · exact .replace h hrow rfl hrepository hrepository

theorem Extends.record_reply {entry : Entry} {isFirst : Bool} (hrepository : entry.repository = r)
    (hdone : before.recordReply entry = .ok (isFirst, after)) : before.Extends r after := by
  rw [recordReply] at hdone
  split at hdone <;> cases hdone
  · exact .refl r before
  · refine ⟨fun s hs => ?_, fun row hrow => ⟨row, hrow, rfl⟩⟩
    have hnone : [entry].filter (fun entry => entry.repository == s) = [] := by
      rw [List.filter_singleton, hrepository, beq_eq_false_iff_ne.mpr hs.symm]
      rfl
    rw [Tables.within, Tables.within, List.filter_append, hnone, List.append_nil]

theorem lost_delete (h : before.Sound) {test : Row → Bool}
    (hdone : before.deleteWhere test = .ok (count, after)) :
    before.lost after = before.symbols.filter test := by
  cases hdone
  apply List.filter_congr
  intro row hrow
  rw [Bool.eq_iff_iff, Bool.not_eq_true', List.any_eq_false]
  constructor
  · intro hgone
    by_contra htest
    refine hgone (row.orphan (before.symbols.filter test)) (List.mem_map_of_mem
      (List.mem_filter.mpr ⟨hrow, by simpa using htest⟩)) ?_
    rw [orphan_id, beq_iff_eq]
  · intro htest other hother hid
    obtain ⟨old, hold, hkept, rfl⟩ := mem_kept hother
    rw [orphan_id, beq_iff_eq] at hid
    rw [h.row_unique hold hrow hid, htest] at hkept
    cases hkept

/-- Deleting rows of a repository takes parents from the rows of others, and nothing else. -/
theorem Spares.delete (h : before.Sound) {test : Row → Bool}
    (htest : ∀ row, test row = true → row.repository = r)
    (hdone : before.deleteWhere test = .ok (count, after)) : before.Spares r after := by
  have hlost := lost_delete h hdone
  cases hdone
  refine ⟨fun _ _ => rfl, fun s hs => ?_, fun row hrow => ?_⟩
  · rw [hlost, Tables.within, Tables.within, List.filter_map]
    have hsame : (fun row : Row => row.repository == s) ∘ Row.orphan (before.symbols.filter test) =
        fun row => row.repository == s := by
      funext row
      exact congrArg (· == s) (orphan_repository _ row)
    rw [hsame, filter_filter_of_imp]
    intro row hrow
    rw [Bool.not_eq_true', ← Bool.not_eq_true]
    intro hdeleted
    exact hs ((beq_iff_eq.mp hrow).symm.trans (htest row hdeleted))
  · rw [hlost] at hrow
    exact htest row (List.mem_filter.mp hrow).2

end Tables

/-! ## Calls about a repository -/

def Call.IsAbout (r : String) : Call → Prop
  | .insert d => d.repository = r
  | .insertMany ds => ∀ d ∈ ds, d.repository = r
  | .change repository _ _ => repository = r
  | .deleteFile _ repository => repository = r
  | .deleteRepository repository => repository = r
  | .recordReply _ _ repository => repository = r
  | .recordReplyAt _ _ repository _ => repository = r
  | .inquire repository _ => repository = r
  | .cleanupReplies _ | .isHealthy | .reset => False

/-- Whether a call is about repositories that it names. -/
def Call.isNamed : Call → Bool
  | .cleanupReplies _ | .isHealthy | .reset => false
  | _ => true

theorem Call.IsAbout.isNamed {r : String} {call : Call} (h : call.IsAbout r) :
    call.isNamed = true := by
  cases call with
  | cleanupReplies | isHealthy | reset => cases h
  | _ => rfl

/-- Everything that a call about repositories can do to tables. -/
inductive Call.Effect : Call → Tables → Tables → Prop where
  | nothing {call : Call} {tables : Tables} : Effect call tables tables
  | insert {d : Declaration} {before after : Tables} (hnamed : Text.blank d.repository = false)
    (hwritten : before.Upserts [d] after) : Effect (.insert d) before after
  | insertMany {ds : List Declaration} {before after : Tables}
    (hnamed : ∀ d ∈ ds, Text.blank d.repository = false) (hwritten : before.Upserts ds after) :
    Effect (.insertMany ds) before after
  | change {repository : String} {id now : Int} {c : Change} {found : Bool} {before after : Tables}
    (hdone : before.update repository id c now = .ok (found, after)) :
    Effect (.change repository id c) before after
  | deleteFile {file repository : String} {count : Nat} {before after : Tables}
    (hdone : before.deleteFile file repository = .ok (count, after)) :
    Effect (.deleteFile file repository) before after
  | deleteRepository {repository : String} {count : Nat} {before after : Tables}
    (hdone : before.deleteRepository repository = .ok (count, after)) :
    Effect (.deleteRepository repository) before after
  | recordReply {entry : Entry} {comment pullRequest : Int} {isFirst : Bool}
    {before after : Tables} (hdone : before.recordReply entry = .ok (isFirst, after)) :
    Effect (.recordReply comment pullRequest entry.repository) before after
  | recordReplyAt {entry : Entry} {comment pullRequest : Int} {time : Timestamp} {isFirst : Bool}
    {before after : Tables} (hdone : before.recordReply entry = .ok (isFirst, after)) :
    Effect (.recordReplyAt comment pullRequest entry.repository time) before after

section Calls

variable {r : String} {store : Store} {call : Call} {before after : Tables}

theorem IsCalm.insert_batches {batches : List (List Declaration)} (h : store.IsCalm)
    (hnamed : ∀ d ∈ ds, Text.blank d.repository = false)
    (hbatches : ∀ batch ∈ batches, ∀ d ∈ batch, d ∈ ds) :
    store.Passes (Tables.Upserts ds) (store.insertBatches batches).2 := by
  refine insert_batches_induction (store.Passes (Tables.Upserts ds)) ?_ (.refl h (.refl _))
  intro next batch hbatch hpasses
  have hmore : next.Passes (Tables.Upserts ds) (next.write "insert_symbols" (.upsertAll batch)).2 :=
    hpasses.calm.write
      (Statement.upsert_all_sound fun d hd => hnamed d (hbatches batch hbatch d hd)) (.refl _)
      (fun _ _ _ hdone => Tables.upserts_all (hbatches batch hbatch) hdone) _
  exact ⟨hmore.path.trans hpasses.path, hmore.calm, hpasses.tables.trans hmore.tables⟩

theorem IsCalm.perform_named (h : store.IsCalm) (hcall : call.isNamed = true) :
    store.Passes call.Effect (store.perform call) := by
  have hlooked (repository : String) (inquiry : Inquiry) :
      store.Passes call.Effect (store.inquire repository inquiry).2 := by
    have hpasses := (h.inquire repository inquiry).1
    exact ⟨hpasses.path, hpasses.calm, hpasses.tables ▸ .nothing⟩
  cases call with
  | insert d =>
    exact h.within .nothing fun hnamed => h.write (Statement.upsert_sound hnamed) .nothing
      (fun _ _ _ hdone => .insert hnamed (.step (.head _) hdone (.refl _))) _
  | insertMany ds =>
    rw [Store.perform, insertMany]
    split
    · exact .refl h .nothing
    · next hnamed =>
      simp only [List.any_eq_true, not_exists, not_and, Bool.not_eq_true] at hnamed
      have hpasses := h.insert_batches hnamed
        fun batch (hbatch : batch ∈ pieces store.options.batchSize ds) d hd =>
          mem_of_mem_pieces hbatch hd
      exact ⟨hpasses.path, hpasses.calm, .insertMany hnamed hpasses.tables⟩
  | change repository id c =>
    refine h.within .nothing fun _ => ?_
    dsimp only
    split
    · exact hlooked repository (.get id)
    · exact h.write (Statement.update_sound repository id c) .nothing
        (fun _ _ _ hdone => .change hdone) _
  | deleteFile file repository =>
    exact h.within .nothing fun _ => h.write (Statement.delete_file_sound file repository) .nothing
      (fun _ _ _ hdone => .deleteFile hdone) _
  | deleteRepository repository =>
    exact h.within .nothing fun _ => h.write (Statement.delete_repository_sound repository)
      .nothing (fun _ _ _ hdone => .deleteRepository hdone) _
  | recordReply comment pullRequest repository =>
    exact h.within .nothing fun hnamed => h.write (Statement.record_reply_sound hnamed _ _ _)
      .nothing (fun _ _ _ hdone => .recordReply hdone) _
  | recordReplyAt comment pullRequest repository time =>
    exact h.within .nothing fun hnamed => h.write (Statement.record_reply_sound hnamed _ _ _)
      .nothing (fun _ _ _ hdone => .recordReplyAt hdone) _
  | inquire repository inquiry => exact hlooked repository inquiry
  | cleanupReplies | isHealthy | reset => cases hcall

theorem IsCalm.perform (h : store.IsCalm) (hcall : call.IsAbout r) :
    store.Passes call.Effect (store.perform call) := h.perform_named hcall.isNamed

theorem Call.Effect.spares (h : call.Effect before after) (hsound : before.Sound)
    (hcall : call.IsAbout r) : before.Spares r after := by
  cases h with
  | nothing => exact (Tables.Extends.refl r before).spares
  | insert hnamed hwritten =>
    refine (Tables.Extends.upserts hsound ?_ ?_ hwritten).spares
    · exact fun d hd => List.mem_singleton.mp hd ▸ hnamed
    · exact fun d hd => List.mem_singleton.mp hd ▸ hcall
  | insertMany hnamed hwritten =>
    exact (Tables.Extends.upserts hsound hnamed hcall hwritten).spares
  | change hdone =>
    cases hcall
    exact (Tables.Extends.update hsound hdone).spares
  | deleteFile hdone =>
    refine .delete hsound (fun row hrow => ?_) hdone
    rw [Bool.and_eq_true, beq_iff_eq, beq_iff_eq] at hrow
    exact hrow.2.trans hcall
  | deleteRepository hdone =>
    exact .delete hsound (fun row hrow => (beq_iff_eq.mp hrow).trans hcall) hdone
  | recordReply hdone | recordReplyAt hdone =>
    exact (Tables.Extends.record_reply hcall hdone).spares

end Calls

/-! ## Runs of calls about a repository -/

/-- Whether an occurrence is about a repository and loses no database of a path. -/
def Occurrence.Concerns (r path : String) : Occurrence → Prop
  | .call made => made.IsAbout r
  | .passTime _ => True
  | .befall incidents => ∀ incident ∈ incidents, incident.Spares path
  | .damage | .reopen _ => False

/-- The rows that are deleted in a run, in the order in which they go. -/
def deleted (store : Store) : List Occurrence → List Row
  | [] => []
  | occurrence :: rest =>
    store.tables.lost (store.happen occurrence).tables ++ (store.happen occurrence).deleted rest

section Runs

variable {r : String} {store : Store} {occurrence : Occurrence} {occurrences : List Occurrence}

/-- Tables do not depend on the time and on what lies ahead. -/
theorem tables_on_disk {world : Disk} (htree : world.tree = store.session.world.tree)
    (hstanding : ∀ place, world.standing? place = store.session.world.standing? place) :
    (store.onDisk world).tables = store.tables := by
  rw [tables, tables, Session.tables, Session.tables, onDisk]
  dsimp only
  rw [htree]
  split
  · rfl
  · split
    · next place _ => rw [Disk.tablesAt, Disk.tablesAt, hstanding]
    · rfl

theorem IsCalm.on_disk {world : Disk} (h : store.IsCalm)
    (hkeeps : (store.onDisk world).Keeps fun _ => Tables.Sound)
    (htree : world.tree = store.session.world.tree)
    (hstanding : ∀ place, world.standing? place = store.session.world.standing? place)
    (hincidents : ∀ incident ∈ world.incidents, incident.Spares store.path) :
    store.Passes Eq (store.onDisk world) := by
  refine ⟨rfl, ⟨hkeeps, fun place hplace => ?_, hincidents⟩, (tables_on_disk htree hstanding).symm⟩
  obtain ⟨database, hsome, hintact⟩ := h.intact place (htree ▸ hplace)
  exact ⟨database, (hstanding place).trans hsome, hintact⟩

theorem IsCalm.pass_time (h : store.IsCalm) (elapsed : Int) :
    store.Passes Eq (store.happen (.passTime elapsed)) :=
  h.on_disk (Keeps.pass_time h.keeps fun _ _ => id) rfl (fun place => by cases place <;> rfl)
    h.incidents

theorem IsCalm.befall {incidents : List Incident} (h : store.IsCalm)
    (hincidents : ∀ incident ∈ incidents, incident.Spares store.path) :
    store.Passes Eq (store.happen (.befall incidents)) := by
  refine h.on_disk (Keeps.befall h.keeps fun _ _ _ _ => id) rfl (fun place => by cases place <;> rfl)
    fun incident hincident => ?_
  rcases List.mem_append.mp hincident with hincident | hincident
  · exact h.incidents incident hincident
  · exact hincidents incident hincident

/-- What happens about a repository spares all others. -/
theorem IsCalm.happen (h : store.IsCalm) (hoccurrence : occurrence.Concerns r store.path) :
    store.Passes (Tables.Spares r) (store.happen occurrence) := by
  have hsame {next : Store} (hpasses : store.Passes Eq next) :
      store.Passes (Tables.Spares r) next :=
    ⟨hpasses.path, hpasses.calm, hpasses.tables ▸ (Tables.Extends.refl r _).spares⟩
  cases occurrence with
  | call call =>
    have hpasses := h.perform hoccurrence
    exact ⟨hpasses.path, hpasses.calm, hpasses.tables.spares h.sound hoccurrence⟩
  | passTime elapsed => exact hsame (h.pass_time elapsed)
  | befall incidents => exact hsame (h.befall hoccurrence)
  | damage | reopen => cases hoccurrence

theorem IsCalm.run (h : store.IsCalm)
    (hoccurrences : ∀ occurrence ∈ occurrences, occurrence.Concerns r store.path) :
    (store.run occurrences).IsCalm ∧
      store.tables.Loses r (store.deleted occurrences) (store.run occurrences).tables := by
  induction occurrences generalizing store with
  | nil => exact ⟨h, .refl r _⟩
  | cons occurrence rest ih =>
    have hfirst := h.happen (hoccurrences occurrence (.head _))
    obtain ⟨hcalm, hloses⟩ := ih hfirst.calm fun other hother =>
      hfirst.path ▸ hoccurrences other (.tail _ hother)
    exact ⟨hcalm, hfirst.tables.trans hloses⟩

/-- A run of calls about a repository changes nothing in any other one, except that rows lose
parents which the run deletes, and these are rows of the repository. Whatever is asked about the
repository then, no symbol of another one is in the answer. Damage is left out, and for databases in
memory failures that may pass: these lose the database with its connection. -/
theorem run_isolated (h : store.Reachable) (hintact : store.IsIntact)
    (hincidents : ∀ incident ∈ store.session.world.incidents, incident.Spares store.path)
    (hoccurrences : ∀ occurrence ∈ occurrences, occurrence.Concerns r store.path) :
    (∀ s, s ≠ r →
      ((store.run occurrences).tables.within s).replies = (store.tables.within s).replies ∧
      ((store.run occurrences).tables.within s).symbols =
        (store.tables.within s).symbols.map (Row.orphan (store.deleted occurrences))) ∧
    (∀ row ∈ store.deleted occurrences, row.repository = r) ∧
    ∀ inquiry answer, ((store.run occurrences).inquire r inquiry).1 = .ok answer →
      ∀ symbol ∈ answer.stored, symbol.declaration.repository = r := by
  obtain ⟨hcalm, hloses⟩ := (h.isCalm hintact hincidents).run hoccurrences
  refine ⟨fun s hs => ⟨hloses.replies s hs, hloses.symbols s hs⟩, hloses.gone, ?_⟩
  intro inquiry answer hanswer
  exact inquiry.answer_repository ((hcalm.inquire r inquiry).2 answer hanswer)

end Runs

/-- A row of a repository whose parent is in another one, and a reply of the repository. -/
def sharedStore : Store :=
  sampleStore.run [.call (.insert (sampleDeclaration "r" 1 none)),
    .call (.insert (sampleDeclaration "s" 1 (some 1))), .call (.recordReply 1 2 "s")]

theorem shared_reachable : sharedStore.Reachable :=
  ⟨_, _, _, _, _, sample_disk_empty, open_sample, rfl⟩

/-- A repository is written to and then deleted, on the second try. -/
def sharedRun : List Occurrence :=
  [.call (.insertMany [sampleDeclaration "r" 2 (some 1), sampleDeclaration "r" 3 (some 2)]),
    .befall [{ elapsed := 3, cause := some lockedFailure }], .call (.deleteRepository "r")]

/-- The row of the other repository loses its parent, and nothing else is changed there. -/
theorem run_isolated_shared_parent :
    (sharedStore.tables.within "s").symbols =
      [.ofDeclaration 2 (sampleDeclaration "s" 1 (some 1)) 0] ∧
    (sharedStore.deleted sharedRun).map Row.id = [1, 3, 4] ∧
    ((sharedStore.run sharedRun).tables.within "s").symbols =
      [.ofDeclaration 2 (sampleDeclaration "s" 1 none) 0] ∧
    ((sharedStore.run sharedRun).tables.within "s").replies =
      (sharedStore.tables.within "s").replies ∧
    ∀ row ∈ sharedStore.deleted sharedRun, row.repository = "r" := by
  have hincidents : sharedStore.session.world.incidents = [] := by decide +kernel
  have hlocked : lockedFailure.Spares sharedStore.path := ⟨nofun, fun _ => ⟨_, rfl, rfl⟩⟩
  have hconcerns : ∀ occurrence ∈ sharedRun, occurrence.Concerns "r" sharedStore.path := by
    simp [sharedRun, Occurrence.Concerns, Call.IsAbout, sampleDeclaration, Incident.Spares, hlocked]
  have hisolated :=
    run_isolated shared_reachable (by decide +kernel) (by simp [hincidents]) hconcerns
  have hsymbols : (sharedStore.tables.within "s").symbols =
      [.ofDeclaration 2 (sampleDeclaration "s" 1 (some 1)) 0] := by decide +kernel
  have hdeleted : (sharedStore.deleted sharedRun).map Row.id = [1, 3, 4] := by decide +kernel
  refine ⟨hsymbols, hdeleted, ?_, (hisolated.1 "s" (by decide)).1, hisolated.2.1⟩
  rw [(hisolated.1 "s" (by decide)).2, hsymbols]
  decide +kernel

end CodeAtlas.Store
