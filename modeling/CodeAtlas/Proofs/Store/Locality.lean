import CodeAtlas.Proofs.Store.Isolation
import CodeAtlas.Proofs.Store.Readiness

/-!
# Parents and repositories

A parent is the id of a row, of whichever repository. Tables are local if the parent of every row is
in the repository of the row (`Tables.IsLocal`). They stay local as long as calls name parents of
their own repository only (`Call.NamesOwn`). In local tables, and in no others, the answers about a
repository are the same whatever is done about another one (`local_iff_undisturbed`).
-/

namespace CodeAtlas.Store

open CodeAtlas.Symbol (Change Declaration)

variable (tables : Tables)

/-- The parent of every row is in the repository of the row. -/
def Tables.IsLocal : Prop :=
  ∀ row ∈ tables.symbols, ∀ other ∈ tables.symbols, row.parent = some (.integer other.id) →
    other.repository = row.repository

instance (tables : Tables) : Decidable tables.IsLocal :=
  inferInstanceAs (Decidable (∀ row ∈ tables.symbols, ∀ other ∈ tables.symbols,
    row.parent = some (.integer other.id) → other.repository = row.repository))

def Tables.IsOwn (r : String) (parent : Option Cell) : Prop :=
  ∀ row ∈ tables.symbols, parent = some (.integer row.id) → row.repository = r

instance (tables : Tables) (r : String) (parent : Option Cell) :
    Decidable (tables.IsOwn r parent) :=
  inferInstanceAs (Decidable (∀ row ∈ tables.symbols, parent = some (.integer row.id) →
    row.repository = r))

/-- Whether the parents that a call names are in no other repository than its own. -/
def Call.NamesOwn : Call → Prop
  | .insert d => tables.IsOwn d.repository (d.parent.map .integer)
  | .insertMany ds => ∀ d ∈ ds, tables.IsOwn d.repository (d.parent.map .integer)
  | .change repository _ c => tables.IsOwn repository (c.parent.map .integer)
  | _ => True

namespace Tables

variable {r : String} {before after : Tables}

/-- The parents of rows in a repository that the tables give are in no other one. -/
def OwnParents (r : String) (before after : Tables) : Prop :=
  ∀ row ∈ after.symbols, row.repository = r → before.IsOwn r row.parent

theorem Extends.mem_iff (h : before.Extends r after) {row : Row} (hrow : row.repository ≠ r) :
    row ∈ after.symbols ↔ row ∈ before.symbols := by
  have hmem (tables : Tables) :
      row ∈ (tables.within row.repository).symbols ↔ row ∈ tables.symbols := by
    rw [Tables.within, List.mem_filter, beq_self_eq_true, and_iff_left rfl]
  rw [← hmem after, h.within _ hrow, hmem before]

/-- Writing to a repository keeps tables local if it names parents of the repository only. -/
theorem IsLocal.extends (h : before.IsLocal) (hsound : before.Sound) (hafter : after.Sound)
    (hextends : before.Extends r after) (hown : OwnParents r before after) : after.IsLocal := by
  intro row hrow other hother hparent
  by_cases hr : row.repository = r
  · -- a row of another repository is as it was, and not a parent of a row of this one
    by_contra hne
    have hother' : other.repository ≠ r := fun heq => hne (heq.trans hr.symm)
    exact hother' (hown row hrow hr other ((hextends.mem_iff hother').mp hother) hparent)
  · -- the row is as it was, and so is its parent, which is a row of the same repository
    have hrow := (hextends.mem_iff hr).mp hrow
    obtain ⟨parent, hmem, heq⟩ := hsound.parents row hrow _ hparent
    have hsame : parent.repository = row.repository :=
      h row hrow parent hmem (hparent.trans (congrArg some heq))
    have hkept := (hextends.mem_iff (hsame ▸ hr)).mpr hmem
    rw [hafter.row_unique hother hkept (Cell.integer.inj heq), hsame]

theorem IsOwn.extends {parent : Option Cell} (h : before.IsOwn r parent)
    (hextends : before.Extends r after) : after.IsOwn r parent := by
  intro row hrow hparent
  by_contra hr
  exact hr (h row ((hextends.mem_iff hr).mp hrow) hparent)

theorem IsLocal.own_parents (h : before.IsLocal) (r : String) : OwnParents r before before :=
  fun row hrow hr other hother hparent => (h row hrow other hother hparent).trans hr

/-- Writing declarations of a repository keeps tables local if their parents are in no other one. -/
theorem IsLocal.upserts {ds : List Declaration} (h : before.IsLocal) (hsound : before.Sound)
    (hnamed : ∀ d ∈ ds, Text.blank d.repository = false) (hrepository : ∀ d ∈ ds, d.repository = r)
    (hown : ∀ d ∈ ds, before.IsOwn r (d.parent.map .integer)) (hwritten : before.Upserts ds after) :
    after.IsLocal := by
  induction hwritten with
  | refl => exact h
  | @step d _ _ before middle _ hd hdone _ ih =>
    have hmiddle := hsound.upsert (hnamed d hd) hdone
    have hextends : before.Extends r middle := .upsert hsound (hrepository d hd) hdone
    have hparents : OwnParents r before middle := by
      intro row hrow hr
      obtain ⟨_, ⟨old, _, _, rfl, rfl⟩ | ⟨_, rfl, rfl⟩⟩ := upsert_cases hdone
      · rcases mem_replace_row hrow with ⟨rfl, _⟩ | ⟨hrow, _⟩
        · exact hown d hd
        · exact h.own_parents r row hrow hr
      · rcases List.mem_append.mp hrow with hrow | hrow
        · exact h.own_parents r row hrow hr
        · cases List.mem_singleton.mp hrow
          exact hown d hd
    exact ih (h.extends hsound hmiddle hextends hparents) hmiddle
      fun d hd => (hown d hd).extends hextends

theorem IsLocal.update {id now : Int} {c : Change} {found : Bool} (h : before.IsLocal)
    (hsound : before.Sound) (hown : before.IsOwn r (c.parent.map .integer))
    (hdone : before.update r id c now = .ok (found, after)) : after.IsLocal := by
  refine h.extends hsound (hsound.update hdone) (.update hsound hdone) fun row hrow hr => ?_
  obtain ⟨_, rfl, _⟩ | ⟨_, old, hold, _, hrepository, _, _, rfl⟩ := update_cases hdone
  · exact h.own_parents r row hrow hr
  · rcases mem_replace_row hrow with ⟨rfl, _⟩ | ⟨hrow, _⟩
    · rw [Row.change]
      cases hparent : c.parent with
      | none => exact h.own_parents r old hold hrepository
      | some parent =>
        rw [hparent] at hown
        exact hown
    · exact h.own_parents r row hrow hr

theorem IsLocal.delete {test : Row → Bool} {count : Nat} (h : before.IsLocal)
    (hdone : before.deleteWhere test = .ok (count, after)) : after.IsLocal := by
  cases hdone
  intro row hrow other hother hparent
  obtain ⟨old, hold, _, rfl⟩ := mem_kept hrow
  obtain ⟨oldOther, holdOther, _, rfl⟩ := mem_kept hother
  rw [orphan_id] at hparent
  rw [orphan_repository, orphan_repository]
  rcases orphan_cases (before.symbols.filter test) old with ⟨heq, _⟩ | ⟨heq, _⟩
  · rw [heq] at hparent
    exact h old hold oldOther holdOther hparent
  · rw [heq] at hparent
    cases hparent

end Tables

/-! ## Calls on local tables -/

section Calls

variable {r s : String} {store : Store} {call : Call} {before after : Tables}

/-- Tables stay local when a call about a repository names parents of that repository only. -/
theorem Call.Effect.isLocal (h : call.Effect before after) (hsound : before.Sound)
    (hcall : call.IsAbout r) (hlocal : before.IsLocal) (hown : call.NamesOwn before) :
    after.IsLocal := by
  cases h with
  | nothing => exact hlocal
  | @insert d _ _ hnamed hwritten =>
    have hrepository : d.repository = r := hcall
    have hown : before.IsOwn r (d.parent.map .integer) := hrepository ▸ hown
    exact hlocal.upserts hsound (fun _ hd => List.mem_singleton.mp hd ▸ hnamed)
      (fun _ hd => List.mem_singleton.mp hd ▸ hrepository)
      (fun _ hd => List.mem_singleton.mp hd ▸ hown) hwritten
  | insertMany hnamed hwritten =>
    exact hlocal.upserts hsound hnamed hcall (fun d hd => hcall d hd ▸ hown d hd) hwritten
  | change hdone => exact hlocal.update hsound hown hdone
  | deleteFile hdone | deleteRepository hdone => exact hlocal.delete hdone
  | recordReply hdone | recordReplyAt hdone =>
    rw [Tables.IsLocal, Tables.record_reply_symbols hdone]
    exact hlocal

/-- What is done about a repository leaves the rows of others alone if their parents are in no other
repository. -/
theorem within_of_spares (h : before.IsLocal) (hspares : before.Spares r after) (hs : s ≠ r) :
    after.within s = before.within s := by
  have hrows : (after.within s).symbols = (before.within s).symbols := by
    rw [hspares.symbols s hs]
    refine (List.map_congr_left fun row hrow => ?_).trans (List.map_id _)
    obtain ⟨hrow, hrepository⟩ := List.mem_filter.mp hrow
    rcases Tables.orphan_cases (before.lost after) row with ⟨heq, _⟩ | ⟨_, other, hother, hparent⟩
    · exact heq
    · -- a parent that is gone was in the repository, and the row would be in it too
      have hsame := h row hrow other (List.mem_filter.mp hother).1 hparent
      rw [hspares.gone other hother, beq_iff_eq.mp hrepository] at hsame
      exact absurd hsame.symm hs
  change Tables.mk (after.within s).symbols (after.within s).replies = _
  rw [hrows, hspares.replies s hs]

theorem IsReady.write_ready {α : Type} {statement : Statement α} (h : store.IsReady)
    (hstatement : statement.IsSound) (name : String) : (store.write name statement).2.IsReady :=
  (h.write_is_ok hstatement name).1

theorem IsReady.perform (h : store.IsReady) (hcall : call.IsAbout r) :
    (store.perform call).IsReady := by
  cases call with
  | insert d =>
    exact within_cases IsReady h fun hnamed => h.write_ready (Statement.upsert_sound hnamed) _
  | insertMany ds =>
    rw [Store.perform, insertMany]
    split
    · exact h
    · next hnamed =>
      simp only [List.any_eq_true, not_exists, not_and, Bool.not_eq_true] at hnamed
      refine insert_batches_induction IsReady (fun _ batch hbatch hready => ?_) h
      exact hready.write_ready (Statement.upsert_all_sound fun d hd =>
        hnamed d (mem_of_mem_pieces hbatch hd)) _
  | change repository id c =>
    refine within_cases IsReady h fun _ => ?_
    dsimp only
    split
    · exact (h.inquire repository (.get id)).2
    · exact h.write_ready (Statement.update_sound repository id c) _
  | deleteFile file repository =>
    exact within_cases IsReady h fun _ =>
      h.write_ready (Statement.delete_file_sound file repository) _
  | deleteRepository repository =>
    exact within_cases IsReady h fun _ =>
      h.write_ready (Statement.delete_repository_sound repository) _
  | recordReply | recordReplyAt =>
    exact within_cases IsReady h fun hnamed =>
      h.write_ready (Statement.record_reply_sound hnamed _ _ _) _
  | inquire repository inquiry => exact (h.inquire repository inquiry).2
  | cleanupReplies | isHealthy | reset => cases hcall

/-- What is left of the children of a row when its repository is deleted. -/
theorem children_of_deleted {count : Nat} {parent : Row} (hparent : parent ∈ before.symbols)
    (hdone : before.deleteRepository parent.repository = .ok (count, after)) :
    after.childrenOf s parent.id = .ok [] := by
  cases hdone
  rw [Tables.childrenOf, Tables.listed]
  suffices hnone : List.filter
      (fun row => row.parent == some (.integer parent.id) && row.repository == s)
      ((before.symbols.filter fun row => !(row.repository == parent.repository)).map
        (Row.orphan (before.symbols.filter fun row => row.repository == parent.repository))) = [] by
    rw [hnone, List.mergeSort_nil]
    rfl
  rw [List.filter_eq_nil_iff]
  intro row hrow htest
  obtain ⟨old, _, _, rfl⟩ := Tables.mem_kept hrow
  have hkept := beq_iff_eq.mp (Bool.and_eq_true_iff.mp htest).1
  rcases Tables.orphan_cases (before.symbols.filter fun row => row.repository == parent.repository)
    old with ⟨heq, hothers⟩ | ⟨heq, _⟩
  · rw [heq] at hkept
    exact hothers parent (List.mem_filter.mpr ⟨hparent, beq_self_eq_true _⟩) hkept
  · rw [heq] at hkept
    cases hkept

/-- A row is among the children of its parent, whether or not it can be read. -/
theorem children_ne_nil {id : Int} {row : Row} (hrow : row ∈ before.symbols)
    (hparent : row.parent = some (.integer id)) : before.childrenOf row.repository id ≠ .ok [] := by
  intro hread
  rw [Tables.childrenOf, Tables.listed] at hread
  have hmem : row ∈ (before.symbols.filter fun other =>
      other.parent == some (.integer id) && other.repository == row.repository).mergeSort placeLe :=
    List.mem_mergeSort.mpr (List.mem_filter.mpr ⟨hrow, by simp [hparent]⟩)
  generalize List.mergeSort _ _ = rows at hread hmem
  cases rows with
  | nil => cases hmem
  | cons first rest =>
    rw [List.mapM_cons] at hread
    obtain ⟨_, _, hread⟩ := bind_eq_ok hread
    obtain ⟨_, _, hread⟩ := bind_eq_ok hread
    cases hread

theorem IsReady.delete_repository (h : store.IsReady) (hnamed : Text.blank r = false) :
    ∃ count, store.tables.deleteRepository r =
      .ok (count, (store.perform (.deleteRepository r)).tables) := by
  obtain ⟨_, htables, _⟩ := h.write_eq (Statement.delete_repository_sound r)
    "delete_symbols_by_repository" fun _ => rfl
  rw [Store.perform, Store.deleteRepository, Store.within, hnamed, if_neg Bool.false_ne_true,
    htables]
  exact ⟨_, rfl⟩

/-- Tables stay local when a call about a repository names parents of that repository only; and they
are local exactly if no call about a repository changes what is answered about another one. -/
theorem local_iff_undisturbed (h : store.Reachable) (husable : store.IsUsable) :
    (store.tables.IsLocal → ∀ r call, call.IsAbout r → call.NamesOwn store.tables →
      (store.perform call).tables.IsLocal) ∧
    (store.tables.IsLocal ↔ ∀ r s call inquiry, s ≠ r → call.IsAbout r →
      ((store.perform call).inquire s inquiry).1 = (store.inquire s inquiry).1) := by
  have hready := h.isReady husable
  have hcalm : store.IsCalm := hready.calm
  have hperforms {r : String} {call : Call} (hcall : call.IsAbout r) :=
    (hcalm.perform hcall).tables
  refine ⟨fun hlocal r call hcall hown => (hperforms hcall).isLocal hcalm.sound hcall hlocal hown,
    fun hlocal r s call inquiry hs hcall => ?_, fun hundisturbed row hrow other hother hparent => ?_⟩
  · -- answers about `s` come from its own rows, and a call about `r` leaves those as they are
    have hsame := within_of_spares hlocal ((hperforms hcall).spares hcalm.sound hcall) hs
    rw [((hready.perform hcall).inquire s inquiry).1, (hready.inquire s inquiry).1,
      ← inquiry.answer_within s (store.perform call).tables, hsame, inquiry.answer_within]
  · -- otherwise deleting the repository of the parent takes the row from its children
    by_contra hne
    have hdeleted : (Call.deleteRepository other.repository).IsAbout other.repository := rfl
    have hsame := hundisturbed _ row.repository _ (.children other.id) (Ne.symm hne) hdeleted
    have hnamed := hcalm.sound.named row hrow
    obtain ⟨count, hdone⟩ := hready.delete_repository (hcalm.sound.named other hother)
    rw [((hready.perform hdeleted).inquire _ _).1, (hready.inquire _ _).1, hnamed, Inquiry.answer,
      Inquiry.answer, children_of_deleted hother hdone] at hsame
    cases hchildren : store.tables.childrenOf row.repository other.id with
    | error e =>
      rw [hchildren] at hsame
      cases hsame
    | ok found =>
      rw [hchildren] at hsame
      cases hsame
      exact children_ne_nil hrow hparent hchildren

end Calls

/-! ## Samples -/

/-- Rows whose parents are in their own repository. -/
def localStore : Store :=
  sampleStore.run [.call (.insert (sampleDeclaration "r" 1 none)),
    .call (.insert (sampleDeclaration "r" 2 (some 1))),
    .call (.insert (sampleDeclaration "s" 1 none)),
    .call (.insert (sampleDeclaration "s" 2 (some 3)))]

/-- Deleting a repository changes no answer about another one, and a new row may have a parent in
its own repository. -/
theorem local_store_undisturbed :
    localStore.tables.IsLocal ∧
    (localStore.perform (.insert (sampleDeclaration "s" 3 (some 4)))).tables.IsLocal ∧
    ∀ inquiry, ((localStore.perform (.deleteRepository "r")).inquire "s" inquiry).1 =
      (localStore.inquire "s" inquiry).1 := by
  have hreachable : localStore.Reachable := ⟨_, _, _, _, _, sample_disk_empty, open_sample, rfl⟩
  have hlocal : localStore.tables.IsLocal := by decide +kernel
  have hown : localStore.tables.IsOwn "s" (some (.integer 4)) := by decide +kernel
  obtain ⟨hkept, hundisturbed⟩ := local_iff_undisturbed hreachable (by decide +kernel)
  exact ⟨hlocal, hkept hlocal "s" _ rfl hown,
    fun inquiry => hundisturbed.mp hlocal "r" "s" _ inquiry (by decide) rfl⟩

/-- A row may have a parent in another repository, and then deleting that repository changes what is
answered about its own. -/
theorem shared_parent_disturbed :
    sharedStore.Reachable ∧ sharedStore.IsUsable ∧ ¬ sharedStore.tables.IsLocal ∧
      ((sharedStore.perform (.deleteRepository "r")).inquire "s" (.children 1)).1 ≠
        (sharedStore.inquire "s" (.children 1)).1 :=
  ⟨shared_reachable, by decide +kernel, by decide +kernel, by decide +kernel⟩

end CodeAtlas.Store
