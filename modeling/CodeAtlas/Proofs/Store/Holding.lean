import CodeAtlas.Proofs.Store.Attempts
import CodeAtlas.Proofs.Store.Uses

/-!
# What holds of all that a disk holds

Connecting, closing, removing and moving files add nothing to a disk but empty databases
(`Disk.Yields`), so only statements bring in anything new. What every statement preserves therefore
holds of all databases on the disk, wherever they are and whoever can reach them (`Session.Keeps`),
however often an operation is tried and whether or not a damaged database is replaced on the way
(`Session.Keeps.run`).
-/

namespace CodeAtlas.Store

open Files (FileTree Location)
open Logging (Event)

/-- The place of the database at an address, if it has one that others can reach. -/
def Address.place? (address : Address) (tree : FileTree Content) : Option Place :=
  match address.site with
  | .file => (tree.aim? address.path).map .file
  | .shared => some (.memory address.layer address.path)
  | .own => none

variable {connection : Connection}

namespace Disk

variable {disk next last : Disk} {location : Location} {place : Place} {contents : Contents}
  {path : String}

/-- A disk on which nothing is held that was not held before, apart from empty databases. -/
structure Yields (disk next : Disk) : Prop where
  now : next.now = disk.now
  incidents : next.incidents = disk.incidents
  hold : disk.hold = none → next.hold = none
  held : ∀ place contents, next.held? place = some contents →
    (∃ old, disk.held? old = some contents) ∨ contents = .tables {}

namespace Yields

theorem refl (disk : Disk) : disk.Yields disk := ⟨rfl, rfl, id, fun place _ h => .inl ⟨place, h⟩⟩

theorem trans (h : disk.Yields next) (hlast : next.Yields last) : disk.Yields last where
  now := hlast.now.trans h.now
  incidents := hlast.incidents.trans h.incidents
  hold := hlast.hold ∘ h.hold
  held place contents hheld := by
    rcases hlast.held place contents hheld with ⟨old, hold⟩ | hempty
    · exact h.held old contents hold
    · exact .inr hempty

end Yields

theorem Settles.yields (h : disk.Settles place next) : disk.Yields next where
  now := h.now
  incidents := h.incidents
  hold hnone := h.hold.trans hnone
  held other _ hheld := (h.held hheld).imp_left fun hold => ⟨other, hold⟩

variable {tree : FileTree Content}

theorem yields_tree (h : ∀ location content, tree.entry? location = some (.file content) →
      ∃ old, disk.tree.entry? old = some (.file content)) : disk.Yields { disk with tree } := by
  refine ⟨rfl, rfl, id, fun place contents hheld => .inl ?_⟩
  cases place with
  | memory layer name => exact ⟨.memory layer name, hheld⟩
  | file location =>
    obtain ⟨database, hcontent, rfl⟩ := content_of_held hheld
    obtain ⟨old, hold⟩ := h location _ (content_eq_some.mp hcontent)
    exact ⟨.file old, held_of_content (content_eq_some.mpr hold)⟩

theorem yields_set_plain (disk : Disk) (location : Location) (bytes : Bytes) :
    disk.Yields (disk.set location (.plain bytes)) := by
  refine ⟨rfl, rfl, id, fun place contents hheld => .inl ⟨place, ?_⟩⟩
  cases place with
  | memory layer name => exact hheld
  | file found =>
    obtain ⟨database, hcontent, rfl⟩ := content_of_held hheld
    rcases FileTree.entry_of_set (content_eq_some.mp hcontent) with ⟨_, heq⟩ | hold
    · cases heq
    · exact held_of_content (content_eq_some.mpr hold)

/-! ## Closing -/

theorem yields_checkpoint (disk : Disk) (location : Location) :
    disk.Yields (disk.checkpoint location) := by
  rw [checkpoint]
  split
  · next database hcontent =>
    split
    · exact yields_set_plain _ _ _
    · have hsettles : disk.Settles (.file location)
          (disk.set location (.database { database with logged := .nothing })) :=
        settles_database hcontent rfl
      exact hsettles.yields
  · exact .refl _

theorem yields_unlink (disk : Disk) (place : Place) : disk.Yields (disk.unlink place) := by
  have hlinks := (settles_links place disk (disk.links.erase place)).yields
  rw [unlink.eq_def]
  dsimp only
  split
  · exact hlinks
  · cases place with
    | file location => exact hlinks.trans (yields_checkpoint _ location)
    | memory layer name =>
      refine hlinks.trans ⟨rfl, rfl, id, fun other contents hheld => .inl ⟨other, ?_⟩⟩
      cases other with
      | file location => exact hheld
      | memory layer' name' =>
        by_cases hother : Place.memory layer' name' = .memory layer name
        · rw [held?, hother] at hheld
          cases (Files.lookup_filter_self _).symm.trans hheld
        · exact (Files.lookup_filter_ne _ hother).symm.trans hheld

theorem yields_disconnect (connection : Connection) (disk : Disk) :
    disk.Yields (disk.disconnect connection) := by
  rw [disconnect.eq_def]
  split
  · exact yields_unlink _ _
  · exact .refl _

/-! ## Removing and moving files -/

theorem yields_abandon_at (disk : Disk) (path : String) : disk.Yields (disk.abandonAt path) := by
  rw [abandonAt]
  split
  · refine ⟨rfl, rfl, fun hnone => ?_, fun place _ hheld => .inl ⟨place, ?_⟩⟩
    · rw [abandon, hnone]
      rfl
    · cases place <;> exact hheld
  · exact .refl _

theorem abandon_at_tree (disk : Disk) (path : String) : (disk.abandonAt path).tree = disk.tree := by
  rw [abandonAt]
  split <;> rfl

theorem yields_remove_if_there (path : String) (disk : Disk) :
    disk.Yields (removeIfThere path disk).2.1 := by
  rw [removeIfThere]
  split
  · next tree hremove =>
    refine (yields_abandon_at disk path).trans (yields_tree fun location content hfile => ?_)
    rw [abandon_at_tree]
    exact ⟨location, FileTree.file_of_remove hremove hfile⟩
  · exact .refl _
  · exact .refl _

theorem yields_remove_all (paths : List String) (disk : Disk) :
    disk.Yields (removeAll paths disk).2.1 := by
  induction paths generalizing disk with
  | nil => exact .refl _
  | cons path rest ih =>
    have hfirst := yields_remove_if_there path disk
    rw [removeAll]
    split
    · next hremove =>
      rw [hremove] at hfirst
      exact hfirst.trans (ih _)
    · exact hfirst

theorem yields_quarantine (path : String) (disk : Disk) :
    disk.Yields (quarantine path disk).2.1 := by
  rw [quarantine]
  split
  · next tree hrename =>
    refine .trans ?_ (yields_remove_all _ _)
    refine (yields_abandon_at disk path).trans (yields_tree fun location content hfile => ?_)
    rw [abandon_at_tree]
    exact FileTree.file_of_rename hrename hfile
  · exact yields_remove_all _ _
  · exact .refl _

/-! ## What all databases satisfy -/

section Conditions

variable {P : Int → Tables → Prop}

/-- A disk whose databases all satisfy a condition, now and while time passes as it will. -/
structure Keeps (P : Int → Tables → Prop) (disk : Disk) : Prop where
  held : ∀ place contents, disk.held? place = some contents →
    ∃ tables, contents = .tables tables ∧ P disk.now tables
  elapse : ∀ incident ∈ disk.incidents, ∀ now tables, P now tables →
    P (now + incident.elapsed) tables
  hold : disk.hold = none

def Serves (P : Int → Tables → Prop) (path : String) (disk : Disk) : Connection → Prop
  | .to place manner _ => ∃ address, Address.parse path = .ok address ∧
    address.place? disk.tree = some place ∧ manner = address.manner ∧ (disk.held? place).isSome
  | .own contents => ∃ address tables, Address.parse path = .ok address ∧ address.site = .own ∧
    contents = .tables tables ∧ P disk.now tables

theorem Serves.isLive (h : disk.Serves P path connection) : disk.IsLive connection := by
  rcases connection with ⟨place, manner, prepared⟩ | ⟨contents⟩
  · obtain ⟨_, _, _, _, hheld⟩ := h
    exact hheld
  · trivial

theorem place_of_same_links (address : Address) (h : disk.tree.SameLinks tree) :
    address.place? tree = address.place? disk.tree := by
  rw [Address.place?, Address.place?, h.aim]

/-- A connection to a place leads there as long as links stay. -/
theorem Serves.to_place {manner : Manner} {prepared later : List Form}
    (h : disk.Serves P path (.to place manner prepared)) (hpaths : disk.tree.SameLinks next.tree)
    (hheld : (next.held? place).isSome) : next.Serves P path (.to place manner later) := by
  obtain ⟨address, hparse, hplace, hmanner, _⟩ := h
  exact ⟨address, hparse, (place_of_same_links address hpaths).trans hplace, hmanner, hheld⟩

/-! ## Incidents -/

theorem meet_cases (disk : Disk) :
    disk.meet = (none, disk) ∨ ∃ incident rest, disk.incidents = incident :: rest ∧
      disk.meet = (incident.cause,
        { disk with now := disk.now + incident.elapsed, incidents := rest }) := by
  rw [meet]
  split
  · exact .inl rfl
  · next incident rest heq => exact .inr ⟨incident, rest, heq, rfl⟩

theorem Serves.meet (hserves : disk.Serves P path connection) (h : disk.Keeps P) :
    disk.meet.2.Serves P path connection := by
  rcases disk.meet_cases with heq | ⟨incident, rest, hincidents, heq⟩
  · rw [heq]
    exact hserves
  · rw [heq]
    rcases connection with ⟨place, manner, prepared⟩ | ⟨contents⟩
    · exact hserves.to_place (.refl _) (by
        obtain ⟨_, _, _, _, hheld⟩ := hserves
        cases place <;> exact hheld)
    · obtain ⟨address, tables, hparse, hsite, htables, hnow⟩ := hserves
      have hmem : incident ∈ disk.incidents := hincidents ▸ List.mem_cons_self
      exact ⟨address, tables, hparse, hsite, htables, h.elapse incident hmem _ _ hnow⟩

/-! ## Connections and their use -/

/-- What there is after a connection was asked for, whether or not there is one. -/
def Provides {ε : Type} (P : Int → Tables → Prop) (path : String) :
    Except ε Connection × Disk → Prop
  | (.ok connection, disk) => disk.Keeps P ∧ disk.Serves P path connection
  | (.error _, disk) => disk.Keeps P

/-- What a use of a connection may do to tables. -/
def Preserves {α : Type} (P : Int → Tables → Prop) (effect : Effect α) : Prop :=
  ∀ now tables, P now tables → ∃ changed, (effect now (.tables tables)).2 = .tables changed ∧
    P now changed

/-- A use of connections that preserves a condition on tables. -/
def Maintains {α : Type} (P : Int → Tables → Prop) (use : Use α) : Prop :=
  ∀ (disk : Disk) (connection : Connection), disk.IsLive connection →
    ∃ effect, Preserves P effect ∧ disk.Performs effect connection (use connection disk)

variable {α : Type}

theorem maintains_execute (writes : Bool) {statement : Statement α}
    (h : ∀ now tables a changed, P now tables → statement.onTables now tables = .ok (a, changed) →
      P now changed) : Maintains P (execute writes statement) := by
  refine fun disk connection hlive => ⟨statement.run, fun now tables htables => ?_,
    performs_execute writes statement hlive⟩
  rw [Statement.run]
  split
  · next a changed hdone => exact ⟨changed, rfl, h now tables a changed htables hdone⟩
  · exact ⟨tables, rfl, htables⟩

theorem statement_keeps {query : Query α} {now : Int} {tables changed : Tables} {a : α}
    (h : query.statement.onTables now tables = .ok (a, changed)) : changed = tables := by
  simp only [Query.statement] at h
  cases hresult : query.onTables tables <;> rw [hresult] at h <;> cases h
  rfl

theorem maintains_read (query : Query α) : Maintains P (read query) :=
  maintains_execute false fun _ _ _ _ htables hdone => statement_keeps hdone ▸ htables

theorem maintains_is_sound : Maintains P isSound :=
  fun _ _ hlive => ⟨_, fun _ tables htables => ⟨tables, rfl, htables⟩, performs_is_sound hlive⟩

/-! ## What keeps the condition -/

namespace Keeps

variable (h : disk.Keeps P)

include h

theorem isPlain : disk.IsPlain := by
  intro place contents hheld
  obtain ⟨tables, htables, _⟩ := h.held place contents hheld
  exact ⟨tables, htables⟩

theorem writes {tables : Tables} (hwrites : disk.Writes place (.tables tables) next)
    (htables : P disk.now tables) : next.Keeps P where
  held other contents hheld := by
    rw [hwrites.now]
    by_cases hother : other = place
    · subst hother
      rw [hwrites.held] at hheld
      cases hheld
      exact ⟨tables, rfl, htables⟩
    · exact h.held other contents (hwrites.others other contents hother hheld)
  elapse := by
    rw [hwrites.incidents]
    exact h.elapse
  hold := hwrites.hold.trans h.hold

theorem meet : disk.meet.2.Keeps P := by
  rcases disk.meet_cases with heq | ⟨incident, rest, hincidents, heq⟩
  · rw [heq]
    exact h
  · have hmem : incident ∈ disk.incidents := hincidents ▸ List.mem_cons_self
    rw [heq]
    refine ⟨fun place contents hheld => ?_, fun other hother => ?_, h.hold⟩
    · obtain ⟨tables, htables, hnow⟩ := h.held place contents (by cases place <;> exact hheld)
      exact ⟨tables, htables, h.elapse incident hmem _ _ hnow⟩
    · exact h.elapse other (hincidents ▸ List.mem_cons_of_mem _ hother)

variable (hempty : ∀ now, P now {})

include hempty

theorem yields (hyields : disk.Yields next) : next.Keeps P where
  held place contents hheld := by
    rw [hyields.now]
    rcases hyields.held place contents hheld with ⟨old, hold⟩ | rfl
    · exact h.held old contents hold
    · exact ⟨{}, rfl, hempty disk.now⟩
  elapse := by
    rw [hyields.incidents]
    exact h.elapse
  hold := hyields.hold h.hold

theorem connect (path : String) : Provides P path (disk.connect path) := by
  cases hparse : Address.parse path with
  | error e =>
    rw [Disk.connect, hparse]
    exact h
  | ok address =>
    have hcases := connect_cases h.isPlain hparse
    generalize disk.connect path = opened at hcases ⊢
    obtain ⟨result, next⟩ := opened
    cases hcases with
    | refused => exact h
    | failed _ _ houtcome => exact h.yields hempty houtcome.settles.yields
    | toFile hsite haim hsettles hheld =>
      refine ⟨h.yields hempty hsettles.yields, address, hparse, ?_, rfl, hheld⟩
      rw [place_of_same_links address hsettles.paths, Address.place?, hsite, haim]
      rfl
    | toMemory hsite hsettles hheld =>
      exact ⟨h.yields hempty hsettles.yields, address, hparse, by rw [Address.place?, hsite], rfl,
        hheld⟩
    | toOwn hsite => exact ⟨h, address, {}, hparse, hsite, rfl, hempty _⟩

theorem try_connect (path : String) : Provides P path (disk.tryConnect path) := by
  have hmeet := h.meet
  rw [tryConnect]
  split
  · next heq => rwa [heq] at hmeet
  · next heq =>
    rw [heq] at hmeet
    exact hmeet.connect hempty path

theorem performs {α : Type} {effect : Effect α}
    {outcome : Result α × Connection × Disk} (hserves : disk.Serves P path connection)
    (hpreserves : Preserves P effect) (hperforms : disk.Performs effect connection outcome) :
    outcome.2.2.Keeps P ∧ outcome.2.2.Serves P path outcome.2.1 := by
  cases hperforms with
  | failed houtcome =>
    exact ⟨h.yields hempty houtcome.settles.yields,
      hserves.to_place houtcome.settles.paths (houtcome.settles.kept hserves.isLive)⟩
  | reached hreaches =>
    cases hreaches with
    | own contents =>
      obtain ⟨address, tables, hparse, hsite, rfl, htables⟩ := hserves
      obtain ⟨changed, hchanged, hkept⟩ := hpreserves disk.now tables htables
      exact ⟨h, address, changed, hparse, hsite, hchanged, hkept⟩
    | done hheld hwrites =>
      -- the condition holds of every database, so it does not matter which one is written to
      obtain ⟨tables, rfl, htables⟩ := h.held _ _ hheld
      obtain ⟨changed, hchanged, hkept⟩ := hpreserves disk.now tables htables
      rw [hchanged] at hwrites
      exact ⟨h.writes hwrites hkept, hserves.to_place hwrites.paths (by rw [hwrites.held]; rfl)⟩

/-- What replaces a damaged database is empty, and the rest is still there. -/
theorem replace_damaged (path : String) :
    Provides P path ((replaceDamaged path disk).1, (replaceDamaged path disk).2.1) := by
  have hmoved := h.yields hempty (yields_quarantine path disk)
  rw [replaceDamaged]
  split
  · next heq => rwa [heq] at hmoved
  · next heq =>
    rw [heq] at hmoved
    have hconnect := hmoved.try_connect hempty path
    split
    · next heq => rwa [heq] at hconnect
    · next heq => rwa [heq] at hconnect

/-- A use that maintains a condition does so whatever befalls it. -/
theorem try_use {use : Use α} (hserves : disk.Serves P path connection) (huse : Maintains P use) :
    (disk.tryUse use connection).2.2.Keeps P ∧
      (disk.tryUse use connection).2.2.Serves P path (disk.tryUse use connection).2.1 := by
  have hkeeps := h.meet
  have hserves := hserves.meet h
  rw [tryUse]
  split
  · next heq =>
    rw [heq] at hkeeps hserves
    exact ⟨hkeeps, hserves⟩
  · next met heq =>
    rw [heq] at hkeeps hserves
    obtain ⟨effect, hpreserves, hperforms⟩ := huse met connection hserves.isLive
    exact hkeeps.performs hempty hserves hpreserves hperforms

end Keeps

end Conditions

end Disk

/-! ## Sessions -/

/-- A session whose databases all satisfy a condition, and whose connection leads to the database of
its path. -/
structure Session.Keeps (P : Int → Tables → Prop) (path : String) (s : DiskSession) : Prop where
  world : s.world.Keeps P
  serves : ∀ connection, s.connection = some connection → s.world.Serves P path connection

namespace Session.Keeps

variable {α : Type} {P : Int → Tables → Prop} {path : String} {s : DiskSession}
  {use : Use α}

theorem note (h : s.Keeps P path) (event : Event) : (s.note event).Keeps P path :=
  ⟨h.world, h.serves⟩

theorem of_serves {world : Disk} {log : List Event} (h : world.Keeps P)
    (hserves : world.Serves P path connection) :
    Keeps P path { connection := some connection, world, log } := by
  refine ⟨h, fun _ hsome => ?_⟩
  cases hsome
  exact hserves

variable (h : s.Keeps P path) (hempty : ∀ now, P now {})

include h hempty

theorem forget : (s.forget (diskAccess path)).Keeps P path := by
  rw [Session.forget]
  split
  · next connection _ =>
    exact ⟨h.world.yields hempty (Disk.yields_disconnect connection s.world), nofun⟩
  · exact h

theorem attempt (huse : Disk.Maintains P use) :
    (s.attempt (diskAccess path) (Disk.tryUse use)).2.Keeps P path := by
  obtain ⟨connection, world, log⟩ := s
  rw [Session.attempt]
  cases connection with
  | some connection =>
    obtain ⟨hkeeps, hserves⟩ := h.world.try_use hempty (h.serves connection rfl) huse
    exact of_serves hkeeps hserves
  | none =>
    have hprovides := h.world.try_connect hempty path
    dsimp only [diskAccess] at hprovides ⊢
    generalize world.tryConnect path = opened at hprovides ⊢
    obtain ⟨e | connection, met⟩ := opened
    · exact ⟨hprovides, nofun⟩
    · obtain ⟨hkeeps, hserves⟩ := hprovides.1.try_use hempty hprovides.2 huse
      exact of_serves hkeeps hserves

theorem recover : (Operation.recover (diskAccess path) s).2.Keeps P path := by
  have hprovides := (h.forget hempty).world.replace_damaged hempty path
  rw [Operation.recover]
  dsimp only [diskAccess] at hprovides ⊢
  generalize replaceDamaged path _ = replaced at hprovides ⊢
  obtain ⟨e | connection, world, events⟩ := replaced
  · exact ⟨hprovides, nofun⟩
  · exact of_serves hprovides.1 hprovides.2

/-- An operation maintains what its uses of connections maintain, however often it is tried. -/
theorem run (huse : Disk.Maintains P use) (op : Operation) :
    (op.run (diskAccess path) (Disk.tryUse use) s).2.Keeps P path := by
  have hattempt {s next : DiskSession} {result : Result α}
      (h : s.Keeps P path) (heq : s.attempt (diskAccess path) (Disk.tryUse use) = (result, next)) :
      next.Keeps P path := by
    have hnext := h.attempt hempty huse
    rwa [heq] at hnext
  have hattempts : Attempts op (diskAccess path) (Disk.tryUse use) (Keeps P path)
      fun _ s => s.Keeps P path := {
    note _ event h := h.note event
    success _ _ _ h heq := hattempt h heq
    permanent _ _ _ h heq _ := hattempt h heq
    transient _ _ _ h heq _ := ⟨(hattempt h heq).forget hempty, (hattempt h heq).forget hempty⟩
    corruption _ e next h heq _ := by
      have hrecover := ((hattempt h heq).note (op.damaged e)).recover hempty
      refine ⟨(hattempt h heq).forget hempty, fun last hlast => ?_, fun _ last hlast => ?_⟩
      · rwa [hlast] at hrecover
      · rwa [hlast] at hrecover }
  exact hattempts.run h

theorem read (huse : Disk.Maintains P use) :
    (s.read (diskAccess path) (Disk.tryUse use)).2.Keeps P path := by
  have hattempt := h.attempt hempty huse
  refine Session.read_ends (fun _ s => s.Keeps P path) ?_ ?_ ?_
  · intro _ next heq
    rwa [heq] at hattempt
  · intro _ next heq _
    rwa [heq] at hattempt
  · intro _ next heq _
    rw [heq] at hattempt
    exact hattempt.forget hempty

end Session.Keeps

end CodeAtlas.Store
