import CodeAtlas.Proofs.Store.Holding
import CodeAtlas.Proofs.Store.Soundness
import CodeAtlas.Store.Alter

/-!
# Runs of an index

A `Call` is one call of the index, and an `Occurrence` is one thing that can happen to it: a call is
made, time passes, incidents lie ahead that calls will meet with, the file is damaged, or the index
is closed and opened again. `Store.run` performs occurrences in any order, so a statement about all
runs is one about all calls, whether they succeed or fail, on whichever try. What every statement
preserves holds in every run (`run_keeps`); in particular tables are always sound, and timely as
long as the clock is not set back (`run_sound`).
-/

namespace CodeAtlas.Store

open Logging (Event)
open CodeAtlas.Symbol (Change Declaration Reply Stored)
open Time (Timestamp)

inductive Inquiry where
  | get (id : Int)
  | search (query : String) (kind : Option Symbol.Kind) (limit : Nat)
  | inFile (file : String)
  | children (id : Int)
  | count
  | getReply (comment pullRequest : Int)
  | hasReplied (comment pullRequest : Int)
deriving DecidableEq

inductive Answer where
  | symbols (found : List Stored)
  | count (n : Nat)
  | reply (found : Option Reply)
  | flag (value : Bool)
deriving DecidableEq

inductive Call where
  | insert (d : Declaration)
  | insertMany (ds : List Declaration)
  | change (repository : String) (id : Int) (c : Change)
  | deleteFile (file repository : String)
  | deleteRepository (repository : String)
  | recordReply (comment pullRequest : Int) (repository : String)
  | recordReplyAt (comment pullRequest : Int) (repository : String) (time : Timestamp)
  | cleanupReplies (age : Int)
  | inquire (repository : String) (inquiry : Inquiry)
  | isHealthy
  | reset
deriving DecidableEq

/-- One thing that can happen to an index. -/
inductive Occurrence where
  | call (call : Call)
  /-- The clock moves by milliseconds; it may be set back. -/
  | passTime (elapsed : Int)
  | befall (incidents : List Incident)
  | damage
  | reopen (options : Options)
deriving DecidableEq

/-- Whether the clock is not set back. -/
def Occurrence.IsSteady : Occurrence → Prop
  | .passTime elapsed => 0 ≤ elapsed
  | .befall incidents => ∀ incident ∈ incidents, 0 ≤ incident.elapsed
  | _ => True

variable (store : Store)

def inquire (repository : String) : Inquiry → Except Error Answer × Store
  | .get id =>
    let (result, store) := store.get repository id
    (result.map fun found => .symbols found.toList, store)
  | .search query kind limit =>
    let (result, store) := store.search repository query kind limit
    (result.map .symbols, store)
  | .inFile file =>
    let (result, store) := store.inFile file repository
    (result.map .symbols, store)
  | .children id =>
    let (result, store) := store.children repository id
    (result.map .symbols, store)
  | .count =>
    let (result, store) := store.count repository
    (result.map .count, store)
  | .getReply comment pullRequest =>
    let (result, store) := store.getReply comment pullRequest repository
    (result.map .reply, store)
  | .hasReplied comment pullRequest =>
    let (result, store) := store.hasReplied comment pullRequest repository
    (result.map .flag, store)

def perform : Call → Store
  | .insert d => (store.insert d).2
  | .insertMany ds => (store.insertMany ds).2
  | .change repository id c => (store.change repository id c).2
  | .deleteFile file repository => (store.deleteFile file repository).2
  | .deleteRepository repository => (store.deleteRepository repository).2
  | .recordReply comment pullRequest repository =>
    (store.recordReply comment pullRequest repository).2
  | .recordReplyAt comment pullRequest repository time =>
    (store.recordReplyAt comment pullRequest repository time).2
  | .cleanupReplies age => (store.cleanupReplies age).2
  | .inquire repository inquiry => (store.inquire repository inquiry).2
  | .isHealthy => store.isHealthy.2
  | .reset => store.reset.2

def onDisk (world : Disk) : Store :=
  { store with session := { store.session with world } }

/-- The index after it was closed and opened again. If it cannot be opened it is left closed. -/
def reopen (options : Options) : Store :=
  match open_ store.path options store.close with
  | (.ok opened, _) => opened
  | (.error _, disk, log) => { store with session := { connection := none, world := disk, log } }

def happen : Occurrence → Store
  | .call call => store.perform call
  | .passTime elapsed =>
    store.onDisk { store.session.world with now := store.session.world.now + elapsed }
  | .befall incidents =>
    store.onDisk { store.session.world with
      incidents := store.session.world.incidents ++ incidents }
  | .damage => store.onDisk (store.session.world.damage store.path)
  | .reopen options => store.reopen options

def run (occurrences : List Occurrence) : Store := occurrences.foldl happen store

/-! ## What statements preserve -/

/-- A condition on tables at a time that empty tables satisfy and all statements preserve. -/
structure Tables.Invariant (P : Int → Tables → Prop) : Prop where
  empty : ∀ now, P now {}
  upsert : ∀ d now tables id after, Text.blank d.repository = false → P now tables →
    tables.upsert d now = .ok (id, after) → P now after
  update : ∀ repository id c now tables found after, P now tables →
    tables.update repository id c now = .ok (found, after) → P now after
  delete : ∀ test now tables count after, P now tables →
    tables.deleteWhere test = .ok (count, after) → P now after
  recordReply : ∀ (comment pullRequest : Int) repository (time : Int) now tables isFirst after,
    Text.blank repository = false → P now tables → tables.recordReply
      ⟨.integer comment, .integer pullRequest, repository, .integer time⟩ = .ok (isFirst, after) →
        P now after
  deleteReplies : ∀ cutoff now tables count after, P now tables →
    tables.deleteRepliesBefore cutoff = .ok (count, after) → P now after

theorem Tables.invariant_sound : Tables.Invariant fun _ => Tables.Sound where
  empty _ := sound_empty
  upsert _ _ _ _ _ hnamed h hdone := h.upsert hnamed hdone
  update _ _ _ _ _ _ _ h hdone := h.update hdone
  delete _ _ _ _ _ h hdone := h.delete hdone
  recordReply _ _ _ _ _ _ _ _ hnamed h hdone := h.record_reply hnamed hdone
  deleteReplies _ _ _ _ _ h hdone := h.delete_replies hdone

/-- What holds of new rows and of what is made of rows holds of all rows. -/
theorem Tables.invariant_rows {Q : Int → Row → Prop}
    (hnew : ∀ id d now, Q now (.ofDeclaration id d now))
    (hredeclare : ∀ (old : Row) d now, Q now old → old.key = declarationKey d →
      Q now (old.redeclare d now))
    (hchange : ∀ (old : Row) c now, Q now old → Q now (old.change c now))
    (horphan : ∀ row now, Q now row → Q now { row with parent := none }) :
    Tables.Invariant fun now tables => ∀ row ∈ tables.symbols, Q now row where
  empty _ _ hrow := nomatch hrow
  upsert _ now _ _ _ _ h hdone row hrow := by
    obtain ⟨_, ⟨old, hold, hkey, _, rfl⟩ | ⟨_, _, rfl⟩⟩ := upsert_cases hdone
    · rcases mem_replace_row hrow with ⟨rfl, _⟩ | ⟨hrow, _⟩
      · exact hredeclare old _ now (h old hold) hkey
      · exact h row hrow
    · rcases List.mem_append.mp hrow with hrow | hrow
      · exact h row hrow
      · rw [List.mem_singleton.mp hrow]
        exact hnew _ _ now
  update _ _ _ now _ _ _ h hdone row hrow := by
    obtain ⟨_, rfl, _⟩ | ⟨_, old, hold, _, _, _, _, rfl⟩ := update_cases hdone
    · exact h row hrow
    · rcases mem_replace_row hrow with ⟨rfl, _⟩ | ⟨hrow, _⟩
      · exact hchange old _ now (h old hold)
      · exact h row hrow
  delete test now tables _ _ h hdone row hrow := by
    cases hdone
    obtain ⟨old, hold, _, rfl⟩ := mem_kept hrow
    rcases orphan_cases (tables.symbols.filter test) old with ⟨heq, _⟩ | ⟨heq, _⟩ <;> rw [heq]
    · exact h old hold
    · exact horphan old now (h old hold)
  recordReply _ _ _ _ _ _ _ _ _ h hdone := by
    rw [record_reply_symbols hdone]
    exact h
  deleteReplies _ _ _ _ _ h hdone := by
    cases hdone
    exact h

theorem Tables.invariant_timely : Tables.Invariant Tables.Timely := by
  refine invariant_rows (fun _ _ now => ⟨now, now, rfl, rfl, Int.le_refl now, Int.le_refl now⟩)
    (fun old _ now h _ => ?_) (fun old _ now h => ?_) (fun _ _ h => h) <;>
  · obtain ⟨created, updated, hold, _, hle, hnow⟩ := h
    exact ⟨created, now, hold, rfl, Int.le_trans hle hnow, Int.le_refl now⟩

theorem Tables.invariant_replies {Q : Entry → Prop} (hnew : ∀ (comment pullRequest : Int) repository
      (time : Int), Q ⟨.integer comment, .integer pullRequest, repository, .integer time⟩) :
    Tables.Invariant fun _ tables => ∀ entry ∈ tables.replies, Q entry where
  empty _ _ hentry := nomatch hentry
  upsert _ _ _ _ _ _ h hdone := by
    obtain ⟨_, ⟨_, _, _, _, rfl⟩ | ⟨_, _, rfl⟩⟩ := upsert_cases hdone <;> exact h
  update _ _ _ _ _ _ _ h hdone := by
    obtain ⟨_, rfl, _⟩ | ⟨_, _, _, _, _, _, _, rfl⟩ := update_cases hdone <;> exact h
  delete _ _ _ _ _ h hdone := by
    cases hdone
    exact h
  recordReply _ _ _ _ _ _ _ _ _ h hdone := by
    rw [Tables.recordReply] at hdone
    split at hdone <;> cases hdone
    · exact h
    · exact List.forall_mem_append.mpr ⟨h, List.forall_mem_singleton.mpr (hnew _ _ _ _)⟩
  deleteReplies _ _ _ _ _ h hdone := by
    cases hdone
    exact fun entry hentry => h entry (List.mem_filter.mp hentry).1

/-! ## What calls preserve -/

/-- An operation within a repository is made only if the repository is not blank. -/
theorem within_cases {α : Type} (Q : Store → Prop) {store : Store} {repository : String}
    {operation : Store → Except Error α × Store} (h : Q store)
    (hoperation : Text.blank repository = false → Q (operation store).2) :
    Q (store.within repository operation).2 := by
  rw [Store.within]
  split
  · exact h
  · next hblank => exact hoperation (by simpa using hblank)

variable {batches : List (List Declaration)} {occurrences : List Occurrence}

/-- What every batch preserves, batches in turn preserve, as far as they are written. -/
theorem insert_batches_induction (Q : Store → Prop) {store : Store}
    (hbatch : ∀ store, ∀ batch ∈ batches, Q store →
      Q (store.write "insert_symbols" (.upsertAll batch)).2)
    (h : Q store) : Q (store.insertBatches batches).2 := by
  induction batches generalizing store with
  | nil => exact h
  | cons batch rest ih =>
    have hwritten := hbatch store batch (.head _) h
    rw [insertBatches]
    generalize store.write _ (.upsertAll batch) = written at hwritten ⊢
    obtain ⟨_ | _, next⟩ := written
    · exact hwritten
    · have hrest := ih (fun store batch hmem => hbatch store batch (.tail _ hmem)) hwritten
      dsimp only at hrest ⊢
      generalize next.insertBatches rest = last at hrest ⊢
      obtain ⟨_ | _, _⟩ := last <;> exact hrest

/-- An index whose databases all satisfy a condition. -/
def Keeps (P : Int → Tables → Prop) (store : Store) : Prop := store.session.Keeps P store.path

theorem mem_of_mem_pieces {β : Type} {size most : Nat} {items piece : List β} {b : β}
    (hpiece : piece ∈ piecesWithin size most items) (hb : b ∈ piece) : b ∈ items := by
  induction most generalizing items with
  | zero => cases hpiece
  | succ most ih =>
    cases items with
    | nil => cases hpiece
    | cons first rest =>
      rw [piecesWithin] at hpiece
      · rcases List.mem_cons.mp hpiece with rfl | hpiece
        · exact List.mem_of_mem_take hb
        · exact List.mem_of_mem_drop (ih hpiece)
      · exact nofun

section Calls

variable {α : Type} {P : Int → Tables → Prop} {store : Store}

theorem Keeps.within (h : store.Keeps P) {repository : String}
    {operation : Store → Except Error α × Store}
    (hoperation : Text.blank repository = false → (operation store).2.Keeps P) :
    (store.within repository operation).2.Keeps P :=
  within_cases (Keeps P) h hoperation

variable (h : store.Keeps P) (hP : Tables.Invariant P)

include h hP

theorem Keeps.write {statement : Statement α} (hstatement : ∀ now tables a changed, P now tables →
      statement.onTables now tables = .ok (a, changed) → P now changed) (name : String) :
    (store.write name statement).2.Keeps P :=
  Session.Keeps.run h hP.empty (Disk.maintains_execute true hstatement) _

theorem Keeps.read (query : Query α) : (store.read query).2.Keeps P :=
  Session.Keeps.read h hP.empty (Disk.maintains_read query)

theorem Keeps.insert_batches
    (hnamed : ∀ batch ∈ batches, ∀ d ∈ batch, Text.blank d.repository = false) :
    (store.insertBatches batches).2.Keeps P := by
  refine insert_batches_induction (Keeps P) (fun store batch hbatch hkept => ?_) h
  refine hkept.write hP (fun now tables _ changed htables hdone => ?_) _
  refine Tables.upsert_each_induction (P now) (fun d hd tables id after => ?_) htables
    (Tables.upsert_all_ok hdone).2
  exact hP.upsert d now tables id after (hnamed batch hbatch d hd)

theorem Keeps.insert_many (ds : List Declaration) : (store.insertMany ds).2.Keeps P := by
  rw [insertMany]
  split
  · exact h
  · next hnamed =>
    refine h.insert_batches hP fun batch hbatch d hd => ?_
    have hmem := mem_of_mem_pieces hbatch hd
    simp only [List.any_eq_true, not_exists, not_and, Bool.not_eq_true] at hnamed
    exact hnamed d hmem

theorem Keeps.inquire (repository : String) (inquiry : Inquiry) :
    (store.inquire repository inquiry).2.Keeps P := by
  have hread {α : Type} (query : Query α) : (store.within repository fun store =>
      store.read query).2.Keeps P := h.within fun _ => h.read hP query
  cases inquiry with
  | get | search | inFile | children | count | getReply | hasReplied => exact hread _

theorem Keeps.change (repository : String) (id : Int) (c : Change) :
    (store.change repository id c).2.Keeps P := by
  refine h.within fun _ => ?_
  dsimp only
  split
  · exact h.within fun _ => h.read hP _
  · exact h.write hP (fun _ _ _ _ => hP.update _ _ _ _ _ _ _) _

theorem Keeps.isHealthy : store.isHealthy.2.Keeps P := by
  have hread := Session.Keeps.read h hP.empty Disk.maintains_is_sound
  rw [Store.isHealthy]
  dsimp only
  split
  · exact hread
  · exact Session.Keeps.note hread _
  · exact Session.Keeps.note hread _

theorem Keeps.disconnect : store.disconnect.Keeps P :=
  Session.Keeps.forget h hP.empty

theorem Keeps.reset : store.reset.2.Keeps P := by
  rw [Store.reset]
  dsimp only
  generalize hclose : (store.note _).disconnect = closed
  have hclosed : closed.Keeps P := hclose ▸ Keeps.disconnect (Session.Keeps.note h _) hP
  have hremoved := hclosed.world.yields hP.empty
    (Disk.yields_remove_all (closed.path :: sidecars closed.path) _)
  generalize removeAll _ closed.session.world = removed at hremoved ⊢
  obtain ⟨_ | _, world, events⟩ := removed
  · exact ⟨hremoved, nofun⟩
  · have hprovides := hremoved.try_connect hP.empty closed.path
    dsimp only at hprovides ⊢
    generalize world.tryConnect closed.path = opened at hprovides ⊢
    obtain ⟨_ | _, last⟩ := opened
    · exact ⟨hprovides, nofun⟩
    · exact Session.Keeps.of_serves hprovides.1 hprovides.2

theorem Keeps.perform (call : Call) : (store.perform call).Keeps P := by
  cases call with
  | insert d =>
    exact h.within fun hnamed => h.write hP (fun _ _ _ _ => hP.upsert _ _ _ _ _ hnamed) _
  | insertMany ds => exact h.insert_many hP ds
  | change repository id c => exact h.change hP repository id c
  | deleteFile | deleteRepository =>
    exact h.within fun _ => h.write hP (fun _ _ _ _ => hP.delete _ _ _ _ _) _
  | recordReply | recordReplyAt =>
    exact h.within fun hnamed => h.write hP (fun _ _ _ _ => hP.recordReply _ _ _ _ _ _ _ _ hnamed) _
  | cleanupReplies age => exact h.write hP (fun _ _ _ _ => hP.deleteReplies _ _ _ _ _) _
  | inquire repository inquiry => exact h.inquire hP repository inquiry
  | isHealthy => exact h.isHealthy hP
  | reset => exact h.reset hP

end Calls

/-! ## What occurrences preserve -/

section Occurrences

variable {P : Int → Tables → Prop} {store : Store} {path : String} {options : Options} {disk : Disk}

/-- Damage changes neither what databases hold nor where paths lead. -/
theorem Disk.damage_cases (disk : Disk) (name : String) :
    disk.damage name = disk ∨ ∃ location database,
      disk.content? location = some (.database database) ∧
        disk.damage name =
          disk.set location (.database { database with damaged := true, logged := .nothing }) := by
  rw [Disk.damage]
  split
  · next location _ _ =>
    split
    · next database hcontent => exact .inr ⟨location, database, hcontent, rfl⟩
    · exact .inl rfl
  · exact .inl rfl

theorem Disk.held_damage (disk : Disk) (name : String) (place : Place) :
    (disk.damage name).held? place = disk.held? place := by
  rcases disk.damage_cases name with heq | ⟨location, database, hcontent, heq⟩
  · rw [heq]
  · rw [heq]
    cases place with
    | memory layer name => rfl
    | file found =>
      by_cases hfound : found = location
      · subst hfound
        rw [held_of_content hcontent, held_of_content (content_set_self (ne_root hcontent))]
      · rw [held?, held?, content_set_ne hfound]

theorem Disk.damage_same_links (disk : Disk) (name : String) :
    disk.tree.SameLinks (disk.damage name).tree := by
  rcases disk.damage_cases name with heq | ⟨location, database, hcontent, heq⟩
  · rw [heq]
    exact .refl _
  · rw [heq]
    exact Files.FileTree.same_links_set (link_of_content hcontent)

/-- A disk that holds the same databases at the same places can be exchanged for another. -/
theorem Keeps.on_disk {next : Disk} (h : store.Keeps P) (hkeeps : next.Keeps P)
    (hpaths : store.session.world.tree.SameLinks next.tree)
    (hheld : ∀ place, next.held? place = store.session.world.held? place)
    (hnow : ∀ tables, P store.session.world.now tables → P next.now tables) :
    (store.onDisk next).Keeps P := by
  refine ⟨hkeeps, fun connection hsome => ?_⟩
  have hserves := h.serves connection hsome
  rcases connection with ⟨place, manner, prepared⟩ | ⟨contents⟩
  · exact hserves.to_place hpaths ((hheld place).symm ▸ hserves.isLive)
  · obtain ⟨address, tables, hparse, hsite, htables, hkept⟩ := hserves
    exact ⟨address, tables, hparse, hsite, htables, hnow tables hkept⟩


theorem Keeps.damage (h : store.Keeps P) :
    (store.onDisk (store.session.world.damage store.path)).Keeps P := by
  have hsame : (store.session.world.damage store.path).now = store.session.world.now ∧
      (store.session.world.damage store.path).incidents = store.session.world.incidents ∧
      (store.session.world.damage store.path).hold = store.session.world.hold := by
    rcases store.session.world.damage_cases store.path with heq | ⟨_, _, _, heq⟩ <;>
      · rw [heq]
        exact ⟨rfl, rfl, rfl⟩
  obtain ⟨hnow, hincidents, hhold⟩ := hsame
  refine h.on_disk ⟨?_, hincidents ▸ h.world.elapse, hhold.trans h.world.hold⟩
    (Disk.damage_same_links _ _) (Disk.held_damage _ _) (hnow ▸ fun _ => id)
  intro place contents hheld
  rw [Disk.held_damage] at hheld
  rw [hnow]
  exact h.world.held place contents hheld

/-- Whether a condition is preserved while time passes as an occurrence says. -/
def Occurrence.Suits (P : Int → Tables → Prop) : Occurrence → Prop
  | .passTime elapsed => ∀ now tables, P now tables → P (now + elapsed) tables
  | .befall incidents => ∀ incident ∈ incidents, ∀ now tables, P now tables →
    P (now + incident.elapsed) tables
  | _ => True

theorem Keeps.pass_time (h : store.Keeps P) {elapsed : Int}
    (hsuits : ∀ now tables, P now tables → P (now + elapsed) tables) :
    (store.onDisk
      { store.session.world with now := store.session.world.now + elapsed }).Keeps P := by
  refine h.on_disk ⟨fun place contents hheld => ?_, h.world.elapse, h.world.hold⟩ (.refl _)
    (fun place => by cases place <;> rfl) fun _ => hsuits _ _
  obtain ⟨tables, htables, hkept⟩ := h.world.held place contents (by cases place <;> exact hheld)
  exact ⟨tables, htables, hsuits _ _ hkept⟩

theorem Keeps.befall (h : store.Keeps P) {incidents : List Incident}
    (hsuits : ∀ incident ∈ incidents, ∀ now tables, P now tables →
      P (now + incident.elapsed) tables) :
    (store.onDisk { store.session.world with
      incidents := store.session.world.incidents ++ incidents }).Keeps P := by
  refine h.on_disk ⟨fun place contents hheld => ?_, fun incident hincident => ?_, h.world.hold⟩
    (.refl _) (fun place => by cases place <;> rfl) fun _ => id
  · exact h.world.held place contents (by cases place <;> exact hheld)
  · exact (List.mem_append.mp hincident).elim (h.world.elapse incident) (hsuits incident)

theorem keeps_open (h : disk.Keeps P) (hP : Tables.Invariant P) (path : String)
    (options : Options) :
    match open_ path options disk with
    | (.ok opened, _) => opened.Keeps P
    | (.error _, next, _) => next.Keeps P := by
  fun_cases open_ with
  | case1 | case2 => exact h
  | case3 _ tree htree closed _ heq | case4 _ tree htree closed _ _ heq =>
    have hmade := h.yields hP.empty (Disk.yields_tree fun location content hfile =>
      ⟨location, Files.FileTree.file_of_make_directories htree hfile⟩)
    -- an index is opened by a statement that does nothing, from a session without connection
    have hclosed : closed.Keeps P := ⟨hmade, nofun⟩
    have hwritten := hclosed.write hP
      (fun _ _ _ _ htables (hdone : Statement.nothing.onTables _ _ = _) => by
        cases hdone; exact htables) "open"
    rw [heq] at hwritten
    first | exact hwritten | exact hwritten.world

theorem Keeps.happen (h : store.Keeps P) (hP : Tables.Invariant P) {occurrence : Occurrence}
    (hsuits : occurrence.Suits P) : (store.happen occurrence).Keeps P := by
  cases occurrence with
  | call call => exact h.perform hP call
  | passTime elapsed => exact h.pass_time hsuits
  | befall incidents => exact h.befall hsuits
  | damage => exact h.damage
  | reopen options =>
    have hclosed : store.close.Keeps P := (h.disconnect hP).world
    have hopened := keeps_open hclosed hP store.path options
    rw [Store.happen, reopen]
    split
    · next heq => rwa [heq] at hopened
    · next heq =>
      rw [heq] at hopened
      exact ⟨hopened, nofun⟩

/-- What every statement preserves holds in every run. -/
theorem Keeps.run (h : store.Keeps P) (hP : Tables.Invariant P)
    (hsuits : ∀ occurrence ∈ occurrences, occurrence.Suits P) :
    (store.run occurrences).Keeps P := by
  induction occurrences generalizing store with
  | nil => exact h
  | cons occurrence rest ih =>
    have hnext := h.happen hP (hsuits occurrence (.head _))
    exact ih hnext fun other hother => hsuits other (.tail _ hother)

end Occurrences

/-! ## Runs from an empty disk -/

/-- A disk on which no database holds anything, and no one else has locked one. -/
structure Disk.IsEmpty (disk : Disk) : Prop where
  held : ∀ place contents, disk.held? place = some contents → contents = .tables {}
  hold : disk.hold = none

/-- Whether an index has a database with given contents, on its disk or for itself. -/
def Holds (store : Store) (contents : Contents) : Prop :=
  (∃ place, store.session.world.held? place = some contents) ∨
    store.session.connection = some (.own contents)

/-- An index after any run from an empty disk. -/
def Reachable (store : Store) : Prop :=
  ∃ path options disk opened occurrences, Disk.IsEmpty disk ∧
    (open_ path options disk).1 = .ok opened ∧ store = opened.run occurrences

section Empty

variable {P : Int → Tables → Prop} {path : String} {options : Options} {disk : Disk} {store : Store}

theorem Disk.IsEmpty.keeps (h : disk.IsEmpty) (hP : Tables.Invariant P)
    (helapse : ∀ incident ∈ disk.incidents, ∀ now tables, P now tables →
      P (now + incident.elapsed) tables) : disk.Keeps P where
  held place contents hheld := ⟨{}, h.held place contents hheld, hP.empty disk.now⟩
  elapse := helapse
  hold := h.hold

/-- What an index that was opened on an empty disk keeps in every run. -/
theorem run_keeps (h : disk.IsEmpty) (hP : Tables.Invariant P)
    (helapse : ∀ incident ∈ disk.incidents, ∀ now tables, P now tables →
      P (now + incident.elapsed) tables)
    (hopen : (open_ path options disk).1 = .ok store)
    (hsuits : ∀ occurrence ∈ occurrences, occurrence.Suits P) :
    (store.run occurrences).Keeps P := by
  have hopened := keeps_open (h.keeps hP helapse) hP path options
  rw [← Prod.eta (open_ path options disk), hopen] at hopened
  exact hopened.run hP hsuits

theorem Keeps.holds (h : store.Keeps P) {contents : Contents} (hholds : store.Holds contents) :
    ∃ tables, contents = .tables tables ∧ P store.session.world.now tables := by
  rcases hholds with ⟨place, hheld⟩ | hown
  · exact h.world.held place contents hheld
  · obtain ⟨_, tables, _, _, htables, hkept⟩ := h.serves _ hown
    exact ⟨tables, htables, hkept⟩

theorem Reachable.keeps_all (h : store.Reachable) {P : Tables → Prop}
    (hP : Tables.Invariant fun _ => P) : store.Keeps fun _ => P := by
  obtain ⟨path, options, disk, opened, occurrences, hdisk, hopen, rfl⟩ := h
  refine run_keeps hdisk hP (fun _ _ _ _ => id) hopen fun occurrence _ => ?_
  cases occurrence with
  | passTime => exact fun _ _ => id
  | befall => exact fun _ _ _ _ => id
  | call | damage | reopen => trivial

theorem Reachable.keeps (h : store.Reachable) : store.Keeps fun _ => Tables.Sound :=
  h.keeps_all Tables.invariant_sound

/-- In every run from an empty disk, each database holds tables whose rows fit together; and no row
was changed before it was made, unless the clock was set back. -/
theorem run_sound (hdisk : disk.IsEmpty) (hopen : (open_ path options disk).1 = .ok store)
    (occurrences : List Occurrence) (contents : Contents)
    (hholds : (store.run occurrences).Holds contents) :
    ∃ tables, contents = .tables tables ∧ tables.Sound ∧
      ((∀ incident ∈ disk.incidents, 0 ≤ incident.elapsed) →
        (∀ occurrence ∈ occurrences, occurrence.IsSteady) →
          tables.Timely (store.run occurrences).session.world.now) := by
  have hreachable : (store.run occurrences).Reachable :=
    ⟨path, options, disk, store, occurrences, hdisk, hopen, rfl⟩
  obtain ⟨tables, rfl, htables⟩ := hreachable.keeps.holds hholds
  refine ⟨tables, rfl, htables, fun hincidents hsteady => ?_⟩
  have hpass {elapsed : Int} (helapsed : 0 ≤ elapsed) (now : Int) (tables : Tables)
      (htables : tables.Timely now) : tables.Timely (now + elapsed) :=
    htables.mono (Int.le_add_of_nonneg_right helapsed)
  have htimely := run_keeps hdisk Tables.invariant_timely
    (fun incident hincident => hpass (hincidents incident hincident)) hopen
    fun occurrence hoccurrence => by
      have hsteady := hsteady occurrence hoccurrence
      cases occurrence with
      | passTime => exact hpass hsteady
      | befall => exact fun incident hincident => hpass (hsteady incident hincident)
      | call | damage | reopen => trivial
  obtain ⟨same, heq, htimely⟩ := htimely.holds hholds
  cases heq
  exact htimely

end Empty

/-! ## A sample -/

def sampleDisk : Disk := { tree := { entries := [], current := [] }, now := 0 }

/-- An index that was opened on a disk without files and writes two rows at a time. -/
def sampleStore : Store :=
  match (open_ "index.db" { batchSize := 2 } sampleDisk).1 with
  | .ok store => store
  | .error _ =>
    { path := "", options := {}, session := { connection := none, world := sampleDisk } }

def sampleDeclaration (repository : String) (line : Nat) (parent : Option Int) : Declaration :=
  { name := "f", kind := .function, file := "a", line, column := 0, repository, parent }

theorem sample_disk_empty : sampleDisk.IsEmpty := by
  refine ⟨fun place contents hheld => ?_, rfl⟩
  cases place with
  | memory => cases hheld
  | file location =>
    cases location with
    | nil | cons => cases hheld

theorem open_sample : (open_ "index.db" { batchSize := 2 } sampleDisk).1 = .ok sampleStore := by
  have hok : (open_ "index.db" { batchSize := 2 } sampleDisk).1.isOk = true := by decide +kernel
  rw [sampleStore]
  split
  · next heq => exact heq
  · next heq =>
    rw [heq] at hok
    cases hok

/-- Rows in two repositories, of which one is deleted on the second try; then the file is damaged,
and the next call replaces it. -/
def sampleRun : List Occurrence :=
  [.call (.insert (sampleDeclaration "r" 1 none)), .passTime 5,
    .call (.insertMany [sampleDeclaration "s" 1 (some 1), sampleDeclaration "s" 2 (some 2),
      sampleDeclaration "s" 1 (some 2), sampleDeclaration "s" 3 (some 7)]),
    .call (.change "s" 3 { line := some 4, parent := some 1 }),
    .befall [{ elapsed := 2, cause := some lockedFailure }],
    .call (.deleteRepository "r"), .damage, .call (.recordReply 1 2 "s")]

/-- What the damaged file holds after the sample run. -/
def sampleTables : Tables :=
  { symbols :=
      [.ofDeclaration 2 (sampleDeclaration "s" 1 none) 5,
        .ofDeclaration 3 (sampleDeclaration "s" 4 none) 5] }

/-- The damaged file of the sample run still holds sound and timely tables. -/
theorem run_sound_after_damage :
    (sampleStore.run sampleRun).session.world.held? (.file ["index.db.corrupt"]) =
        some (.tables sampleTables) ∧
      sampleTables.Sound ∧ sampleTables.Timely (sampleStore.run sampleRun).session.world.now := by
  have hheld : (sampleStore.run sampleRun).session.world.held? (.file ["index.db.corrupt"]) =
      some (.tables sampleTables) := by decide +kernel
  obtain ⟨tables, heq, hsound, htimely⟩ :=
    run_sound sample_disk_empty open_sample sampleRun _ (.inl ⟨_, hheld⟩)
  cases heq
  refine ⟨hheld, hsound, htimely nofun fun occurrence hoccurrence => ?_⟩
  simp only [sampleRun, List.mem_cons, List.not_mem_nil, or_false] at hoccurrence
  rcases hoccurrence with rfl | rfl | rfl | rfl | rfl | rfl | rfl | rfl <;>
    simp [Occurrence.IsSteady]

end CodeAtlas.Store
