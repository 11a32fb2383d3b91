import CodeAtlas.Proofs.Store.Run

/-!
# The tables of an index

`Store.tables` are the tables that an index works on: those at the place of its path, or those of
its connection if nobody else can reach them. An attempt does to these tables exactly what it says,
or it fails and does nothing (`Session.Keeps.attempt_undergoes`). As long as the database has no
damage and nothing befalls it that loses it (`Session.IsCalm`), the same is so of an operation,
however often it was tried (`Session.IsCalm.run`). A query answers from these tables
(`Session.IsCalm.read`).
-/

namespace CodeAtlas.Store

open Files (FileTree Location)
open Logging (Event)

/-- The tables among contents; the catalogs of other programs count as none. -/
def Contents.toTables : Contents → Tables
  | .tables found => found
  | .catalog _ => {}

def Disk.tablesAt (disk : Disk) (place : Place) : Tables :=
  match disk.standing? place with
  | some database => database.contents.toTables
  | none => {}

variable (path : String)

/-- The place of the database of a path, if it has one that others can reach. -/
def placeOf? (tree : FileTree Content) : Option Place :=
  match Address.parse path with
  | .ok address => address.place? tree
  | .error _ => none

def Session.tables (s : DiskSession) : Tables :=
  match s.connection with
  | some (.own contents) => contents.toTables
  | _ =>
    match placeOf? path s.world.tree with
    | some place => s.world.tablesAt place
    | none => {}

def tables (store : Store) : Tables := store.session.tables store.path

def IsInFile : Prop :=
  ∃ address, Address.parse path = .ok address ∧ address.site = .file

/-- A failure that does not lose the database of a path. One that may pass closes the connection,
and databases in memory go away with it. -/
def DatabaseError.Spares (e : DatabaseError) : Prop :=
  e.classify ≠ .corruption ∧ (e.classify = .transient → IsInFile path)

variable {e : DatabaseError}

/-- An incident that does not lose the database of a path. -/
def Incident.Spares (path : String) (incident : Incident) : Prop :=
  ∀ e, incident.cause = some e → e.Spares path

/-- A session whose tables are sound, as are those of every other database on its disk. -/
abbrev Session.IsSound (path : String) (s : DiskSession) : Prop :=
  s.Keeps (fun _ => Tables.Sound) path

/-- A session whose tables are sound, whose database has no damage, and ahead of which lies nothing
that loses it. -/
structure Session.IsCalm (path : String) (s : DiskSession) : Prop where
  keeps : s.IsSound path
  intact : ∀ place, placeOf? path s.world.tree = some place → s.world.IsIntact place
  incidents : ∀ incident ∈ s.world.incidents, incident.Spares path

/-! ## Places -/

section Places

variable {disk next : Disk} {place : Place} {path : String} {P : Int → Tables → Prop}

theorem place_of_address {address : Address} (h : Address.parse path = .ok address)
    (tree : FileTree Content) : placeOf? path tree = address.place? tree := by
  rw [placeOf?, h]

theorem Disk.place_of_paths (h : disk.tree.SameLinks next.tree) :
    placeOf? path next.tree = placeOf? path disk.tree := by
  rw [placeOf?, placeOf?]
  split
  · next address _ => exact Disk.place_of_same_links address h
  · rfl

theorem Disk.Serves.place_eq {manner : Manner} {prepared : List Form}
    (h : disk.Serves P path (.to place manner prepared)) :
    placeOf? path disk.tree = some place := by
  obtain ⟨address, hparse, hplace, _⟩ := h
  rw [place_of_address hparse, hplace]

theorem IsInFile.is_file (h : IsInFile path) {tree : Files.FileTree Content}
    (hplace : placeOf? path tree = some place) : ∃ location, place = .file location := by
  obtain ⟨address, hparse, hsite⟩ := h
  rw [place_of_address hparse, Address.place?, hsite] at hplace
  obtain ⟨location, _, rfl⟩ := Option.map_eq_some_iff.mp hplace
  exact ⟨location, rfl⟩

theorem Disk.Serves.not_own (h : disk.Serves P path connection) (hfile : IsInFile path) :
    ∃ place manner prepared, connection = .to place manner prepared := by
  rcases connection with ⟨place, manner, prepared⟩ | ⟨contents⟩
  · exact ⟨place, manner, prepared, rfl⟩
  · obtain ⟨address, hparse, hsite⟩ := hfile
    obtain ⟨other, _, hother, hown, _⟩ := h
    cases hparse.symm.trans hother
    cases hsite.symm.trans hown

theorem Disk.tables_at_of_held {contents : Contents} (h : disk.held? place = some contents) :
    disk.tablesAt place = contents.toTables := by
  obtain ⟨database, hstanding, hcontents⟩ := standing_of_held h
  rw [tablesAt, hstanding, ← hcontents]

theorem Disk.Writes.isIntact {contents : Contents} (h : disk.Writes place contents next)
    (hintact : disk.IsIntact place) : next.IsIntact place := by
  obtain ⟨database, hstanding, hintact⟩ := hintact
  exact ⟨_, h.standing database hstanding, hintact.damaged, hintact.torn, hintact.fault⟩

variable {tree : FileTree Content}

theorem is_in_file_of_place {location : Location} (h : placeOf? path tree = some (.file location)) :
    IsInFile path := by
  rw [placeOf?] at h
  split at h
  · next address hparse =>
    refine ⟨address, hparse, ?_⟩
    rw [Address.place?] at h
    split at h
    · next hsite => exact hsite
    · cases h
    · cases h
  · cases h

theorem aim_of_place {location : Location} (h : placeOf? path tree = some (.file location)) :
    ∃ address, Address.parse path = .ok address ∧ address.site = .file ∧
      tree.aim? address.path = some location := by
  obtain ⟨address, hparse, hsite⟩ := is_in_file_of_place h
  refine ⟨address, hparse, hsite, ?_⟩
  rw [place_of_address hparse, Address.place?, hsite] at h
  obtain ⟨found, haim, heq⟩ := Option.map_eq_some_iff.mp h
  cases heq
  exact haim

end Places

namespace Session

variable {α : Type} {path : String} {world next : Disk} {log : List Event} {place : Place}
  {manner : Manner} {prepared : List Form} {s last : DiskSession}

theorem tables_eq (h : ∀ contents, s.connection ≠ some (.own contents)) :
    s.tables path = match placeOf? path s.world.tree with
      | some place => s.world.tablesAt place
      | none => {} := by
  rw [tables]
  split
  · next contents heq => exact absurd heq (h contents)
  · rfl

theorem tables_to (h : placeOf? path world.tree = some place) :
    tables path ⟨some (.to place manner prepared), world, log⟩ = world.tablesAt place := by
  rw [tables]
  dsimp only
  rw [h]

theorem Keeps.tables_all {P : Tables → Prop} (h : s.Keeps (fun _ => P) path) (hempty : P {}) :
    P (s.tables path) := by
  rw [tables]
  split
  · next contents heq =>
    obtain ⟨_, found, _, _, rfl, hfound⟩ := h.serves _ heq
    exact hfound
  · split
    · next place _ =>
      rw [Disk.tablesAt]
      split
      · next database hstanding =>
        rcases Disk.held_of_standing hstanding with hheld | hnothing
        · obtain ⟨found, hcontents, hfound⟩ := h.world.held place _ hheld
          rw [hcontents]
          exact hfound
        · rw [hnothing]
          exact hempty
      · exact hempty
    · exact hempty

theorem Keeps.tables_sound (h : s.IsSound path) : (s.tables path).Sound :=
  h.tables_all Tables.sound_empty

/-! ## Steps of sessions -/

theorem none_ne_own (contents : Contents) : none ≠ some (Connection.own contents) := by
  intro heq
  cases heq

theorem to_ne_own (contents : Contents) :
    some (Connection.to place manner prepared) ≠ some (.own contents) := by
  intro heq
  cases heq

/-- The same tables after something was done about them, with as much damage as before. -/
structure Remains (path : String) (s next : DiskSession) : Prop where
  keeps : next.IsSound path
  tables : next.tables path = s.tables path
  place : placeOf? path next.world.tree = placeOf? path s.world.tree
  intact : ∀ place, placeOf? path s.world.tree = some place →
    (next.world.IsIntact place ↔ s.world.IsIntact place)
  incidents : next.world.incidents ⊆ s.world.incidents

theorem Keeps.remains (h : s.IsSound path) : Remains path s s :=
  ⟨h, rfl, rfl, fun _ _ => Iff.rfl, List.Subset.refl _⟩

variable {result : Result α} {final : DiskSession}
  {outcome : Result α × Connection × Disk} {connection : Connection}

theorem Remains.trans (h : Remains path s last) (hfinal : Remains path last final) :
    Remains path s final where
  keeps := hfinal.keeps
  tables := hfinal.tables.trans h.tables
  place := hfinal.place.trans h.place
  intact place hplace := (hfinal.intact place (h.place.trans hplace)).trans (h.intact place hplace)
  incidents := List.Subset.trans hfinal.incidents h.incidents

/-- Settling the database of a path leaves its tables as they are, with a connection or without. -/
theorem Keeps.settles {connection other : Option Connection}
    (hconnection : ∀ contents, connection ≠ some (.own contents))
    (hother : ∀ contents, other ≠ some (.own contents))
    (hplace : placeOf? path world.tree = some place) (hsettles : world.Settles place next)
    (hkeeps : IsSound path ⟨other, next, log⟩) :
    Remains path ⟨connection, world, log⟩ ⟨other, next, log⟩ := by
  have hsame : placeOf? path next.tree = some place :=
    (Disk.place_of_paths hsettles.paths).trans hplace
  refine ⟨hkeeps, ?_, hsame.trans hplace.symm, fun found hfound => ?_,
    hsettles.incidents ▸ List.Subset.refl _⟩
  · rw [tables_eq hother, tables_eq hconnection, hsame, hplace]
    dsimp only [Disk.tablesAt]
    rw [hsettles.standing]
  · rw [hplace] at hfound
    cases hfound
    exact hsettles.isIntact

/-- Whether a session gives cause for a failure: it lies ahead, or damage is there to be found, and
a failure that may pass is one of a file. -/
def Accounts (path : String) (s : DiskSession) (e : DatabaseError) : Prop :=
  (∃ incident ∈ s.world.incidents, incident.cause = some e) ∨
    (e.classify = .corruption →
      ∃ place, placeOf? path s.world.tree = some place ∧ ¬ s.world.IsIntact place) ∧
    (e.classify = .transient → IsInFile path)

theorem Remains.accounts (h : Remains path s last) (haccounts : last.Accounts path e) :
    s.Accounts path e := by
  rcases haccounts with ⟨incident, hincident, hcause⟩ | ⟨hdamage, hpasses⟩
  · exact .inl ⟨incident, h.incidents hincident, hcause⟩
  · refine .inr ⟨fun hclass => ?_, hpasses⟩
    obtain ⟨place, hplace, hbroken⟩ := hdamage hclass
    rw [h.place] at hplace
    exact ⟨place, hplace, fun hintact => hbroken ((h.intact place hplace).mpr hintact)⟩

theorem accounts_of_permanent (h : e.classify = .permanent) : s.Accounts path e := by
  refine .inr ⟨fun hclass => ?_, fun hclass => ?_⟩ <;>
  · rw [h] at hclass
    cases hclass

/-- What befalls a session leaves its tables as they are. -/
theorem Keeps.meet_remains {connection : Option Connection}
    (h : IsSound path ⟨connection, world, log⟩) :
    Remains path ⟨connection, world, log⟩ ⟨connection, world.meet.2, log⟩ ∧
      ∀ e, world.meet.1 = some e → ∃ incident ∈ world.incidents, incident.cause = some e := by
  have hkeeps : IsSound path ⟨connection, world.meet.2, log⟩ :=
    ⟨h.world.meet, fun found hfound => (h.serves found hfound).meet h.world⟩
  rcases world.meet_cases with heq | ⟨incident, rest, hincidents, heq⟩
  · rw [heq]
    exact ⟨h.remains, nofun⟩
  · rw [heq] at hkeeps ⊢
    refine ⟨⟨hkeeps, ?_, rfl, fun place _ => ?_, fun other hother => ?_⟩, fun e hcause => ?_⟩
    · rw [tables, tables]
      dsimp only
      split
      · rfl
      · split
        · next place _ => cases place <;> rfl
        · rfl
    · cases place <;> exact Iff.rfl
    · exact hincidents ▸ List.mem_cons_of_mem incident hother
    · exact ⟨incident, hincidents ▸ List.mem_cons_self, hcause⟩

/-- What becomes of a session that asks for a connection. -/
def Opens (path : String) (s : DiskSession) : Result Connection × Disk → Prop
  | (.ok connection, next) => Remains path s { s with connection := some connection, world := next }
  | (.error e, next) => s.Accounts path e ∧ Remains path s { s with world := next }

theorem Remains.opens {connection : Option Connection} {opened : Result Connection × Disk}
    (h : Remains path ⟨connection, world, log⟩ ⟨connection, next, log⟩)
    (hopens : Opens path ⟨connection, next, log⟩ opened) :
    Opens path ⟨connection, world, log⟩ opened := by
  obtain ⟨e | connection, disk⟩ := opened
  · exact ⟨h.accounts hopens.1, h.trans hopens.2⟩
  · exact h.trans hopens

theorem Keeps.connect_opens (h : IsSound path ⟨none, world, log⟩) :
    Opens path ⟨none, world, log⟩ (world.connect path) := by
  have hprovides := h.world.connect (fun _ => Tables.sound_empty) path
  cases hparse : Address.parse path with
  | error e =>
    rw [Disk.connect, hparse]
    exact ⟨accounts_of_permanent (Address.parse_class hparse), h.remains⟩
  | ok address =>
    have hcases := Disk.connect_cases h.world.isPlain hparse
    generalize world.connect path = opened at hcases hprovides ⊢
    obtain ⟨result, next⟩ := opened
    have hplace := place_of_address hparse world.tree
    rw [Address.place?] at hplace
    cases hcases with
    | refused hclass hsite =>
      -- nothing has happened on the disk
      exact ⟨.inr ⟨fun hdamage => absurd hdamage hclass,
        fun htransient => ⟨address, hparse, hsite h.world.hold htransient⟩⟩, h.remains⟩
    | failed hsite haim houtcome =>
      -- the file was looked at, and is blamed for damage only if it is not intact
      rw [hsite, haim] at hplace
      refine ⟨.inr ⟨fun hclass => ⟨_, hplace, houtcome.blame _ rfl hclass⟩,
        fun _ => ⟨address, hparse, hsite⟩⟩,
        settles none_ne_own none_ne_own hplace houtcome.settles ⟨hprovides, fun _ hsome => ?_⟩⟩
      cases hsome
    | toFile hsite haim hsettles =>
      rw [hsite, haim] at hplace
      exact settles none_ne_own to_ne_own hplace hsettles
        (.of_serves hprovides.1 hprovides.2)
    | toMemory hsite hsettles =>
      rw [hsite] at hplace
      exact settles none_ne_own to_ne_own hplace hsettles
        (.of_serves hprovides.1 hprovides.2)
    | toOwn hsite =>
      rw [hsite] at hplace
      refine ⟨.of_serves hprovides.1 hprovides.2, ?_, rfl, fun _ _ => Iff.rfl,
        List.Subset.refl _⟩
      rw [tables, tables]
      dsimp only
      rw [hplace]
      rfl

/-- A use of connections that is all or nothing: what fails changes nothing and fails for good. -/
structure Transacts (use : Use α) (effect : Effect α) : Prop where
  performs : ∀ (disk : Disk) (connection : Connection), disk.IsLive connection →
    disk.Performs effect connection (use connection disk)
  preserves : Disk.Preserves (fun _ => Tables.Sound) effect
  atomic : ∀ now tables e, (effect now (.tables tables)).1 = .error e →
    (effect now (.tables tables)).2 = .tables tables ∧ e.classify = .permanent

variable {effect : Effect α}
  {use : Use α}

/-- A session after an effect on its tables, at the time that it is then. -/
structure Works (path : String) (effect : Effect α) (s : DiskSession)
    (result : Result α) (next : DiskSession) : Prop where
  keeps : next.IsSound path
  result : (effect next.world.now (.tables (s.tables path))).1 = result
  tables : (effect next.world.now (.tables (s.tables path))).2 = .tables (next.tables path)
  place : placeOf? path next.world.tree = placeOf? path s.world.tree
  intact : ∀ place, placeOf? path s.world.tree = some place → s.world.IsIntact place →
    next.world.IsIntact place
  incidents : next.world.incidents ⊆ s.world.incidents

/-- What becomes of a session by a use of its connection: the effect on its tables, or a failure for
which there is a cause. -/
inductive Undergoes (path : String) (effect : Effect α)
    (s : DiskSession) : Result α → DiskSession → Prop where
  | failed {e : DatabaseError} {next : DiskSession} (haccounts : s.Accounts path e)
    (hremains : Remains path s next) : Undergoes path effect s (.error e) next
  | done {result : Result α} {next : DiskSession}
    (hworks : Works path effect s result next) : Undergoes path effect s result next

theorem Remains.works (h : Remains path s last) (hworks : Works path effect last result final) :
    Works path effect s result final where
  keeps := hworks.keeps
  result := h.tables ▸ hworks.result
  tables := h.tables ▸ hworks.tables
  place := hworks.place.trans h.place
  intact place hplace hintact := by
    have hlast := h.place.trans hplace
    exact hworks.intact place hlast ((h.intact place hplace).mpr hintact)
  incidents := List.Subset.trans hworks.incidents h.incidents

theorem Remains.undergoes (h : Remains path s last)
    (hundergoes : Undergoes path effect last result final) :
    Undergoes path effect s result final := by
  cases hundergoes with
  | failed haccounts hremains => exact .failed (h.accounts haccounts) (h.trans hremains)
  | done hworks => exact .done (h.works hworks)

/-- Who gets to the database of a session does to its tables what it says. -/
theorem Keeps.reaches (h : IsSound path ⟨some connection, world, log⟩)
    (hpreserves : Disk.Preserves (fun _ => Tables.Sound) effect)
    (hreaches : world.Reaches effect connection outcome) :
    Works path effect ⟨some connection, world, log⟩ outcome.1
      ⟨some outcome.2.1, outcome.2.2, log⟩ := by
  have hserves := h.serves connection rfl
  obtain ⟨hkeeps, hserves'⟩ := h.world.performs (fun _ => Tables.sound_empty) hserves
    hpreserves (.reached hreaches)
  have hkept : IsSound path ⟨some outcome.2.1, outcome.2.2, log⟩ :=
    of_serves hkeeps hserves'
  cases hreaches with
  | own contents =>
    obtain ⟨_, tables, _, _, rfl, htables⟩ := hserves
    obtain ⟨changed, hchanged, _⟩ := hpreserves world.now tables htables
    refine ⟨hkept, rfl, ?_, rfl, fun _ _ => id, List.Subset.refl _⟩
    dsimp only [Session.tables, Contents.toTables]
    rw [hchanged]
  | @done place manner prepared later _ changed hheld hwrites =>
    have hplace := hserves.place_eq
    have hplace' := (Disk.place_of_paths hwrites.paths).trans hplace
    obtain ⟨tables, rfl, htables⟩ := h.world.held _ _ hheld
    obtain ⟨written, hwritten, _⟩ := hpreserves world.now tables htables
    have hbefore : Session.tables path ⟨some (.to place manner prepared), world, log⟩ = tables :=
      (tables_to hplace).trans (Disk.tables_at_of_held hheld)
    have hafter : Session.tables path ⟨some (.to place manner later), changed, log⟩ = written := by
      rw [tables_to hplace', Disk.tables_at_of_held hwrites.held, hwritten]
      rfl
    have hnow : changed.now = world.now := hwrites.now
    refine ⟨hkept, ?_, ?_, hplace'.trans hplace.symm, fun found hfound hintact => ?_,
      hwrites.incidents ▸ List.Subset.refl _⟩
    · rw [hbefore, hnow]
    · rw [hbefore, hafter, hnow]
      exact hwritten
    · rw [hplace] at hfound
      cases hfound
      exact hwrites.isIntact hintact

theorem Keeps.undergoes (h : IsSound path ⟨some connection, world, log⟩)
    (hpreserves : Disk.Preserves (fun _ => Tables.Sound) effect)
    (hperforms : world.Performs effect connection outcome) :
    Undergoes path effect ⟨some connection, world, log⟩ outcome.1
      ⟨some outcome.2.1, outcome.2.2, log⟩ := by
  have hserves := h.serves connection rfl
  obtain ⟨hkeeps, hserves'⟩ := h.world.performs (fun _ => Tables.sound_empty) hserves
    hpreserves hperforms
  cases hperforms with
  | reached hreaches => exact .done (h.reaches hpreserves hreaches)
  | failed houtcome =>
    have hplace := hserves.place_eq
    refine .failed (.inr ⟨fun hclass => ⟨_, hplace, houtcome.blame _ rfl hclass⟩, fun _ => ?_⟩)
      (settles to_ne_own to_ne_own hplace houtcome.settles
        (.of_serves hkeeps hserves'))
    obtain ⟨location, rfl⟩ := houtcome.inFile _ rfl h.world.hold
    exact is_in_file_of_place hplace

/-! ## Attempts -/

theorem Keeps.use_undergoes (h : IsSound path ⟨some connection, world, log⟩)
    (huse : Transacts use effect) :
    Undergoes path effect ⟨some connection, world, log⟩ (world.tryUse use connection).1
      ⟨some (world.tryUse use connection).2.1, (world.tryUse use connection).2.2, log⟩ := by
  obtain ⟨hremains, hcause⟩ := h.meet_remains
  rw [Disk.tryUse]
  split
  · next e met heq =>
    rw [heq] at hremains hcause
    exact .failed (.inl (hcause e rfl)) hremains
  · next met heq =>
    rw [heq] at hremains
    have hlive := (hremains.keeps.serves connection rfl).isLive
    exact hremains.undergoes
      (hremains.keeps.undergoes huse.preserves (huse.performs met connection hlive))

theorem Keeps.try_connect_opens (h : IsSound path ⟨none, world, log⟩) :
    Opens path ⟨none, world, log⟩ (world.tryConnect path) := by
  obtain ⟨hremains, hcause⟩ := h.meet_remains
  rw [Disk.tryConnect]
  split
  · next e met heq =>
    rw [heq] at hremains hcause
    exact ⟨.inl (hcause e rfl), hremains⟩
  · next met heq =>
    rw [heq] at hremains
    exact hremains.opens hremains.keeps.connect_opens

/-- An attempt has its effect on the tables, or fails and leaves them as they are. -/
theorem Keeps.attempt_undergoes (h : s.IsSound path) (huse : Transacts use effect) :
    Undergoes path effect s (s.attempt (diskAccess path) (Disk.tryUse use)).1
      (s.attempt (diskAccess path) (Disk.tryUse use)).2 := by
  obtain ⟨connection, world, log⟩ := s
  rw [Session.attempt]
  cases connection with
  | some connection => exact h.use_undergoes huse
  | none =>
    have hopens := h.try_connect_opens
    dsimp only [diskAccess]
    generalize world.tryConnect path = opened at hopens ⊢
    obtain ⟨e | connection, met⟩ := opened
    · exact .failed hopens.1 hopens.2
    · exact hopens.undergoes (hopens.keeps.use_undergoes huse)

theorem Works.failure (huse : Transacts use effect) (h : Works path effect s (.error e) last) :
    e.classify = .permanent ∧ last.tables path = s.tables path := by
  obtain ⟨hsame, hclass⟩ := huse.atomic _ _ e h.result
  exact ⟨hclass, Contents.tables.inj (h.tables.symm.trans hsame)⟩

/-! ## Calm sessions -/

/-- The same tables in a session that is calm still. -/
structure Stays (path : String) (s next : DiskSession) : Prop where
  calm : next.IsCalm path
  tables : next.tables path = s.tables path

theorem Stays.trans (h : Stays path s last) (hfinal : Stays path last final) : Stays path s final :=
  ⟨hfinal.calm, hfinal.tables.trans h.tables⟩

theorem IsCalm.note (h : s.IsCalm path) (event : Event) : Stays path s (s.note event) :=
  ⟨⟨h.keeps.note event, h.intact, h.incidents⟩, rfl⟩

theorem IsCalm.remains (h : s.IsCalm path) (hremains : Remains path s last) :
    Stays path s last := by
  refine ⟨⟨hremains.keeps, fun place hplace => ?_, fun incident hincident => ?_⟩, hremains.tables⟩
  · rw [hremains.place] at hplace
    exact (hremains.intact place hplace).mpr (h.intact place hplace)
  · exact h.incidents incident (hremains.incidents hincident)

/-- What a calm session gives cause for does not lose its database. -/
theorem IsCalm.spares (h : s.IsCalm path) (haccounts : s.Accounts path e) : e.Spares path := by
  rcases haccounts with ⟨incident, hincident, hcause⟩ | ⟨hdamage, hpasses⟩
  · exact h.incidents incident hincident e hcause
  · refine ⟨fun hclass => ?_, hpasses⟩
    obtain ⟨place, hplace, hbroken⟩ := hdamage hclass
    exact hbroken (h.intact place hplace)

theorem IsCalm.meet {connection : Option Connection} (h : IsCalm path ⟨connection, world, log⟩) :
    Stays path ⟨connection, world, log⟩ ⟨connection, world.meet.2, log⟩ ∧
      ∀ e, world.meet.1 = some e → e.Spares path := by
  obtain ⟨hremains, hcause⟩ := h.keeps.meet_remains
  exact ⟨h.remains hremains, fun e heq => h.spares (.inl (hcause e heq))⟩

/-- A session that is calm still after an effect on its tables at some time. -/
inductive Does (path : String) (effect : Effect α)
    (s : DiskSession) : Result α → DiskSession → Prop where
  | intro {next : DiskSession} (now : Int) (hcalm : next.IsCalm path)
    (htables : (effect now (.tables (s.tables path))).2 = .tables (next.tables path)) :
    Does path effect s (effect now (.tables (s.tables path))).1 next

/-- What becomes of a calm session by a use of its connection: the effect on its tables, or nothing.
-/
inductive Meets (path : String) (effect : Effect α)
    (s : DiskSession) : Result α → DiskSession → Prop where
  | failed {e : DatabaseError} {next : DiskSession} (hspares : e.Spares path)
    (hstays : Stays path s next) : Meets path effect s (.error e) next
  | done {result : Result α} {next : DiskSession}
    (hdoes : Does path effect s result next) : Meets path effect s result next

theorem Does.calm (h : Does path effect s result last) : last.IsCalm path := by
  cases h with
  | intro _ hcalm => exact hcalm

theorem Stays.does (h : Stays path s last) (hdoes : Does path effect last result final) :
    Does path effect s result final := by
  cases hdoes with
  | intro now hcalm htables =>
    rw [h.tables] at htables ⊢
    exact .intro now hcalm htables

theorem Stays.meets (h : Stays path s last) (hmeets : Meets path effect last result final) :
    Meets path effect s result final := by
  cases hmeets with
  | failed hspares hstays => exact .failed hspares (h.trans hstays)
  | done hdoes => exact .done (h.does hdoes)

theorem IsCalm.works (h : s.IsCalm path) (hworks : Works path effect s result last) :
    Does path effect s result last := by
  have hcalm : last.IsCalm path := by
    refine ⟨hworks.keeps, fun place hplace => ?_, fun incident hincident => ?_⟩
    · rw [hworks.place] at hplace
      exact hworks.intact place hplace (h.intact place hplace)
    · exact h.incidents incident (hworks.incidents hincident)
  rw [← hworks.result]
  exact .intro last.world.now hcalm hworks.tables

/-- Who gets to the database of a calm session does to its tables what it says. -/
theorem IsCalm.reaches (h : IsCalm path ⟨some connection, world, log⟩)
    (hpreserves : Disk.Preserves (fun _ => Tables.Sound) effect)
    (hreaches : world.Reaches effect connection outcome) :
    Does path effect ⟨some connection, world, log⟩ outcome.1
      ⟨some outcome.2.1, outcome.2.2, log⟩ :=
  h.works (h.keeps.reaches hpreserves hreaches)

theorem IsCalm.try_connect (h : IsCalm path ⟨none, world, log⟩) (connection : Connection)
    (hok : (world.tryConnect path).1 = .ok connection) :
    Stays path ⟨none, world, log⟩ ⟨some connection, (world.tryConnect path).2, log⟩ := by
  have hopens := h.keeps.try_connect_opens
  rw [← Prod.eta (world.tryConnect path), hok] at hopens
  exact h.remains hopens

theorem IsCalm.attempt (h : s.IsCalm path) (huse : Transacts use effect) :
    Meets path effect s (s.attempt (diskAccess path) (Disk.tryUse use)).1
      (s.attempt (diskAccess path) (Disk.tryUse use)).2 := by
  have hundergoes := h.keeps.attempt_undergoes huse
  generalize (s.attempt (diskAccess path) (Disk.tryUse use)).1 = result at hundergoes
  cases hundergoes with
  | failed haccounts hremains => exact .failed (h.spares haccounts) (h.remains hremains)
  | done hworks => exact .done (h.works hworks)

/-- Closing the connection to an intact file leaves its tables as they are. -/
theorem Keeps.forget_remains (h : s.IsSound path) (hfile : IsInFile path)
    (hintact : ∀ place, placeOf? path s.world.tree = some place → s.world.IsIntact place) :
    Remains path s (s.forget (diskAccess path)) := by
  have hkeeps := h.forget fun _ => Tables.sound_empty
  obtain ⟨connection, world, log⟩ := s
  cases connection with
  | none => exact h.remains
  | some connection =>
    have hserves := h.serves connection rfl
    obtain ⟨place, manner, prepared, rfl⟩ := hserves.not_own hfile
    obtain ⟨location, rfl⟩ := hfile.is_file hserves.place_eq
    exact settles to_ne_own none_ne_own hserves.place_eq
      (Disk.settles_unlink (hintact _ hserves.place_eq)) hkeeps

theorem IsCalm.forget (h : s.IsCalm path) (hfile : IsInFile path) :
    Stays path s (s.forget (diskAccess path)) :=
  h.remains (h.keeps.forget_remains hfile h.intact)

/-- How an operation on a calm session ends: with its effect on the tables, or with nothing. -/
inductive Ends (path : String) (effect : Effect α)
    (s : DiskSession) : Except Error α → DiskSession → Prop where
  | failed {e : Error} {next : DiskSession} (hstays : Stays path s next) :
    Ends path effect s (.error e) next
  | done {a : α} {next : DiskSession} (now : Int) (hcalm : next.IsCalm path)
    (heffect : effect now (.tables (s.tables path)) = (.ok a, .tables (next.tables path))) :
    Ends path effect s (.ok a) next

theorem Does.success {a : α} (h : Does path effect s (.ok a) last) :
    Ends path effect s (.ok a) last := by
  generalize hresult : (.ok a : Result α) = result at h
  cases h with
  | intro now hcalm htables => exact .done now hcalm (Prod.ext hresult.symm htables)

theorem Does.failure (huse : Transacts use effect) (h : Does path effect s (.error e) last) :
    e.classify = .permanent ∧ Stays path s last := by
  generalize hresult : (.error e : Result α) = result at h
  cases h with
  | intro now hcalm htables =>
    obtain ⟨hsame, hclass⟩ := huse.atomic now _ e hresult.symm
    rw [hsame] at htables
    exact ⟨hclass, hcalm, (Contents.tables.inj htables).symm⟩

theorem Meets.success {a : α} (h : Meets path effect s (.ok a) last) :
    Ends path effect s (.ok a) last := by
  cases h with
  | done hdoes => exact hdoes.success

theorem Meets.failure (huse : Transacts use effect) (h : Meets path effect s (.error e) last) :
    e.Spares path ∧ Stays path s last := by
  cases h with
  | failed hspares hstays => exact ⟨hspares, hstays⟩
  | done hdoes =>
    obtain ⟨hclass, hstays⟩ := hdoes.failure huse
    rw [DatabaseError.Spares, hclass]
    exact ⟨⟨nofun, nofun⟩, hstays⟩

/-- An operation on a calm session has its effect once if it succeeds, and none if it fails, however
often it was tried. -/
theorem IsCalm.run (h : s.IsCalm path) (huse : Transacts use effect) (op : Operation) :
    Ends path effect s (op.run (diskAccess path) (Disk.tryUse use) s).1
      (op.run (diskAccess path) (Disk.tryUse use) s).2 := by
  have hattempt {last next : DiskSession} {result : Result α}
      (hstays : Stays path s last)
      (heq : last.attempt (diskAccess path) (Disk.tryUse use) = (result, next)) :
      Meets path effect s result next := by
    have hmeets := hstays.meets (hstays.calm.attempt huse)
    rwa [heq] at hmeets
  have hattempts : Attempts op (diskAccess path) (Disk.tryUse use) (Stays path s)
      (Ends path effect s) := {
    note _ event hstays := hstays.trans (hstays.calm.note event)
    success _ _ _ hstays heq := (hattempt hstays heq).success
    permanent _ _ _ hstays heq _ := .failed ((hattempt hstays heq).failure huse).2
    transient _ e next hstays heq hclass := by
      obtain ⟨hspares, hnext⟩ := (hattempt hstays heq).failure huse
      have hforgotten := hnext.trans (hnext.calm.forget (hspares.2 hclass))
      exact ⟨hforgotten, .failed hforgotten⟩
    corruption _ e next hstays heq hclass :=
      absurd hclass ((hattempt hstays heq).failure huse).1.1 }
  exact hattempts.run ⟨h, rfl⟩

theorem IsCalm.read (h : s.IsCalm path) (huse : Transacts use effect) :
    Ends path effect s (s.read (diskAccess path) (Disk.tryUse use)).1
      (s.read (diskAccess path) (Disk.tryUse use)).2 := by
  have hmeets := h.attempt huse
  refine Session.read_ends (Ends path effect s) ?_ ?_ ?_
  · intro a next heq
    rw [heq] at hmeets
    exact hmeets.success
  · intro e next heq _
    rw [heq] at hmeets
    exact .failed (hmeets.failure huse).2
  · intro e next heq hclass
    rw [heq] at hmeets
    obtain ⟨hspares, hstays⟩ := hmeets.failure huse
    refine .failed (hstays.trans (hstays.calm.forget (hspares.2 ?_)))
    cases hother : e.classify with
    | transient => rfl
    | permanent => exact absurd hother hclass
    | corruption => exact absurd hother hspares.1

end Session

end CodeAtlas.Store
