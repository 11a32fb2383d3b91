import CodeAtlas.Proofs.Store.Replacement

/-!
# Sessions at work on a file

A session at work has a connection to a file with known tables, at a known time, and nothing in its
way (`Session.IsAtWork`). A statement then has exactly the result that it has on these tables at
that time, and the session is at work on the tables after it (`IsAtWork.tries`). Two ways lead
there: a new index is opened where there is no file (`open_at_work`), or a broken file is replaced.
A session that has closed its connection to a broken file is stranded (`Session.IsStranded`): unless
the file is replaced (`IsStranded.recover`), all its attempts fail and leave the file as it is
(`IsStranded.attempt`).
-/

namespace CodeAtlas.Store

open Files (FileTree Location)
open Logging (Event)

/-- The result of a statement on tables at a time, and the tables after it. -/
def Statement.apply {α : Type} (statement : Statement α) (now : Int) (tables : Tables) :
    Result α × Tables :=
  match statement.onTables now tables with
  | .ok (a, changed) => (.ok a, changed)
  | .error e => (.error e, tables)

theorem Statement.run_tables {α : Type} (statement : Statement α) (now : Int) (tables : Tables) :
    statement.run now (.tables tables) =
      ((statement.apply now tables).1, .tables (statement.apply now tables).2) := by
  rw [Statement.run, Statement.apply]
  rcases statement.onTables now tables with _ | ⟨_, _⟩ <;> rfl

/-- Whether a statement that fails on tables fails for good. -/
def Statement.IsFinal {α : Type} (statement : Statement α) : Prop :=
  ∀ now tables, FailsForGood (statement.onTables now tables)

variable {e : DatabaseError} {disk : Disk}

theorem Statement.IsFinal.apply {α : Type} {statement : Statement α} (h : statement.IsFinal)
    {now : Int} {tables : Tables} (herror : (statement.apply now tables).1 = .error e) :
    e.classify = .permanent := by
  unfold Statement.apply at herror
  split at herror <;> cases herror
  next hcause => exact h now tables e hcause

/-- Who has connected to a database with a log finds it as it is. -/
theorem Disk.database_of_logs {location : Location} {database : Database}
    (hhold : disk.hold = none) (hcontent : disk.content? location = some (.database database))
    (writes : Bool) : disk.databaseOf location {} writes = (.ok (some database), disk) := by
  rw [Disk.databaseOf.eq_def, hcontent, show ({} : Manner).logs = true from rfl]
  dsimp only
  rw [(Disk.refusal_file hhold location {} writes).mpr fun _ _ hguard => by cases hguard]

namespace Session

variable {α : Type} {path : String} {location : Location} {now : Int} {tables : Tables}
  {content : Content} {s next : DiskSession}

/-- With nothing ahead, a connection is used at once. -/
theorem attempt_connected (h : disk.incidents = []) (connection : Connection) (log : List Event)
    (use : Use α) :
    Session.attempt (diskAccess path) (Disk.tryUse use)
        { connection := some connection, world := disk, log } =
      ((use connection disk).1,
        { connection := some (use connection disk).2.1
          world := (use connection disk).2.2, log }) := by
  rw [Session.attempt]
  dsimp only
  rw [Disk.tryUse, Disk.meet, h]

theorem attempt_unconnected {made : Disk} (h : disk.incidents = [])
    (hconnect : disk.connect path = (.error e, made)) (log : List Event) (use : Use α) :
    Session.attempt (diskAccess path) (Disk.tryUse use) { connection := none, world := disk, log } =
      (.error e, { connection := none, world := made, log }) := by
  rw [Session.attempt]
  dsimp only [diskAccess]
  rw [Disk.try_connect_quiet h, hconnect]

/-! ## At work -/

/-- A session with a connection to a file that holds tables, with nothing ahead. -/
structure IsAtWork (path : String) (location : Location) (now : Int) (tables : Tables)
    (s : DiskSession) : Prop where
  connection : ∃ prepared, s.connection = some (.to (.file location) {} prepared)
  place : placeOf? path s.world.tree = some (.file location)
  database : ∃ database, s.world.content? location = some (.database database) ∧
    database.IsUsable ∧ database.contents = .tables tables
  hold : s.world.hold = none
  incidents : s.world.incidents = []
  now : s.world.now = now

theorem IsAtWork.tables_eq (h : s.IsAtWork path location now tables) : s.tables path = tables := by
  obtain ⟨database, hcontent, _, hcontents⟩ := h.database
  obtain ⟨_, hconnection⟩ := h.connection
  rw [Session.tables, hconnection]
  dsimp only
  rw [h.place]
  exact (Disk.tables_at_of_held (Disk.held_of_content hcontent)).trans (by rw [hcontents]; rfl)

theorem IsAtWork.attempt (h : s.IsAtWork path location now tables) (statement : Statement α) :
    (s.attempt (diskAccess path) (Disk.tryUse (Disk.write statement))).1 =
        (statement.apply now tables).1 ∧
      (s.attempt (diskAccess path) (Disk.tryUse (Disk.write statement))).2.IsAtWork path location
        now (statement.apply now tables).2 ∧
      s.world.Touches (location :: besides location)
        (s.attempt (diskAccess path) (Disk.tryUse (Disk.write statement))).2.world := by
  obtain ⟨connection, world, log⟩ := s
  obtain ⟨⟨prepared, rfl⟩, hplace, ⟨database, hcontent, husable, hcontents⟩, hhold, hincidents,
    rfl⟩ := h
  dsimp only at hplace hcontent hhold hincidents
  have htouches := Disk.touches_write statement world location {} prepared
  -- the statement finds the tables, and what it makes of them is put in their place
  have hcontents_of := Disk.contents_of_usable (Disk.database_of_logs hhold hcontent true) husable
    statement.subject
  rw [hcontents] at hcontents_of
  have hwrite : world.write statement (.to (.file location) {} prepared) =
      ((statement.apply world.now tables).1,
        .to (.file location) {}
          (prepare prepared statement.form (statement.apply world.now tables).1),
        world.put (.file location) statement.subject
          (.tables (statement.apply world.now tables).2)) := by
    rw [Disk.write, Disk.execute.eq_def]
    dsimp only
    rw [hcontents_of]
    dsimp only
    rw [Statement.run_tables]
  rw [hwrite] at htouches
  rw [attempt_connected hincidents, hwrite]
  refine ⟨rfl, ⟨⟨_, rfl⟩, ?_, ?_, ?_, ?_, ?_⟩, htouches⟩
  · exact (Disk.place_of_paths htouches.shape.sameLinks).trans hplace
  · have hheld := (Disk.writes_put (Disk.held_of_content hcontent) statement.subject
      (.tables (statement.apply world.now tables).2)).held
    obtain ⟨put, hput, hsame⟩ := Disk.content_of_held hheld
    obtain ⟨contents, logged, hkept⟩ := (Disk.tidies_put hcontent statement.subject
      (.tables (statement.apply world.now tables).2)).database database hcontent
    cases hput.symm.trans hkept
    exact ⟨_, hput, ⟨husable.damaged, husable.torn, husable.fault, husable.isReadOnly⟩, hsame⟩
  · exact htouches.hold.trans hhold
  · exact htouches.incidents.trans hincidents
  · exact htouches.now

/-- A session at work needs one attempt, whatever would be done about other ones. -/
theorem IsAtWork.tries {statement : Statement α} (h : s.IsAtWork path location now tables)
    (hfinal : statement.IsFinal) (op : Operation)
    (corrupted : Nat → DatabaseError → DiskSession →
      Except Error α × DiskSession) (left : Nat) :
    op.tries (diskAccess path) (Disk.tryUse (Disk.write statement)) corrupted left s =
      ((statement.apply now tables).1.mapError .database,
        (s.attempt (diskAccess path) (Disk.tryUse (Disk.write statement))).2) := by
  obtain ⟨hresult, _⟩ := h.attempt statement
  rw [Operation.tries.eq_def]
  dsimp only
  cases hattempt : s.attempt (diskAccess path) (Disk.tryUse (Disk.write statement)) with
  | mk result next =>
    rw [hattempt] at hresult
    rw [← hresult]
    cases result with
    | ok a => rfl
    | error e =>
      dsimp only
      rw [hfinal.apply hresult.symm]
      rfl

/-! ## Stranded -/

/-- A session without a connection whose file is broken, with nothing ahead. -/
structure IsStranded (path : String) (location : Location) (content : Content) (now : Int)
    (s : DiskSession) : Prop where
  connection : s.connection = none
  found : s.world.tree.find path = .ok (.found location (.file content))
  broken : ¬ s.world.IsIntact (.file location)
  unlinked : IsUnlinked path s.world.tree
  hold : s.world.hold = none
  incidents : s.world.incidents = []
  now : s.world.now = now

/-- A file that is kept while a session is at work on another one. -/
def HasBackup (path : String) (location : Location) (content : Content) (s : DiskSession) : Prop :=
  ∃ place, place ∉ location :: besides location ∧
    s.world.tree.find (backupPath path) = .ok (.found place (.file content))

theorem HasBackup.touches (h : s.HasBackup path location content)
    (htouches : s.world.Touches (location :: besides location) next.world) :
    next.HasBackup path location content := by
  obtain ⟨place, hout, hfound⟩ := h
  refine ⟨place, hout, FileTree.find_again hfound htouches.shape ?_⟩
  exact (htouches.entry place hout).trans (FileTree.find_found hfound)

namespace IsStranded

variable (h : s.IsStranded path location content now)

include h

theorem note (event : Event) : (s.note event).IsStranded path location content now :=
  ⟨h.connection, h.found, h.broken, h.unlinked, h.hold, h.incidents, h.now⟩

/-- A stranded session fails and is stranded still. -/
theorem attempt (hpath : IsFilePath path) (use : Use α) :
    ∃ e, (s.attempt (diskAccess path) (Disk.tryUse use)).1 = .error e ∧
      (s.attempt (diskAccess path) (Disk.tryUse use)).2.IsStranded path location content now := by
  obtain ⟨connection, world, log⟩ := s
  obtain ⟨rfl, hfound, hbroken, hunlinked, hhold, hincidents, rfl⟩ := h
  dsimp only at hfound hbroken hunlinked hhold hincidents
  obtain ⟨e, next, hconnect, htouches⟩ :=
    Disk.connect_broken hpath.1 hpath.2 (FileTree.find_aims hfound) hbroken
  have hout := Disk.not_mem_besides location
  rw [attempt_unconnected hincidents hconnect]
  refine ⟨e, rfl, rfl, ?_, ?_, hunlinked.congr htouches.shape, htouches.hold.trans hhold,
    htouches.incidents.trans hincidents, htouches.now⟩
  · exact FileTree.find_again hfound htouches.shape
      ((htouches.entry location hout).trans (FileTree.find_found hfound))
  · exact mt (Disk.intact_congr (htouches.content_eq hout)).mp hbroken

theorem forget : s.forget (diskAccess path) = s := by
  rw [Session.forget, h.connection]

theorem read (hpath : IsFilePath path) (use : Use α) :
    (∃ e, (s.read (diskAccess path) (Disk.tryUse use)).1 = .error (.database e)) ∧
      (s.read (diskAccess path) (Disk.tryUse use)).2.IsStranded path location content now := by
  obtain ⟨e, hresult, hstranded⟩ := h.attempt hpath use
  rw [Session.read]
  cases hattempt : s.attempt (diskAccess path) (Disk.tryUse use) with
  | mk result next =>
    rw [hattempt] at hresult hstranded
    cases hresult
    refine ⟨⟨e, rfl⟩, ?_⟩
    dsimp only
    split
    · exact hstranded
    · rw [hstranded.forget]
      exact hstranded

/-- A stranded session whose file can be replaced is at work on empty tables after that, and the
file is kept. -/
theorem recover (hpath : IsFilePath path)
    (hmade : (Operation.recover (diskAccess path) s).1 = .ok ()) :
    ∃ next, Operation.recover (diskAccess path) s = (.ok (), next) ∧
      next.IsAtWork path location now {} ∧ next.HasBackup path location content := by
  unfold Operation.recover at hmade ⊢
  rw [h.forget] at hmade ⊢
  cases hreplace : (diskAccess path).replace s.world with
  | mk result rest =>
    obtain ⟨world, events⟩ := rest
    rw [hreplace] at hmade
    cases result with
    | error e => cases hmade
    | ok connection =>
      obtain ⟨rfl, hreplaces⟩ := Disk.replace_damaged_cases hpath h.incidents h.found
        h.unlinked h.broken hreplace
      refine ⟨_, rfl, ⟨⟨_, rfl⟩, ?_, ?_, hreplaces.hold h.hold, ?_, ?_⟩, hreplaces.backup⟩
      · rw [place_of_address hpath.1, Address.place?, hpath.2]
        dsimp only
        rw [hreplaces.shape.sameLinks.aim, FileTree.find_aims h.found]
        rfl
      · exact ⟨_, hreplaces.database, ⟨rfl, rfl, rfl, rfl⟩, rfl⟩
      · exact hreplaces.incidents.trans h.incidents
      · exact hreplaces.now.trans h.now

end IsStranded

/-- Replacing a damaged file begins with closing the connection. -/
theorem recover_forget (s : DiskSession) :
    Operation.recover (diskAccess path) (s.forget (diskAccess path)) =
      Operation.recover (diskAccess path) s := by
  obtain ⟨_ | connection, world, log⟩ := s <;> rfl

theorem recover_note (s : DiskSession) (event : Event) :
    (Operation.recover (diskAccess path) (s.note event)).1 =
      (Operation.recover (diskAccess path) s).1 := by
  have hworld : ((s.note event).forget (diskAccess path)).world =
      (s.forget (diskAccess path)).world := by
    obtain ⟨_ | connection, world, log⟩ := s <;> rfl
  rw [Operation.recover, Operation.recover, hworld]
  rcases (diskAccess path).replace (s.forget (diskAccess path)).world with ⟨_ | _, _, _⟩ <;> rfl

/-- An operation that goes on after its file was replaced has its effect on empty tables. -/
theorem IsStranded.restart {statement : Statement α}
    (h : (s.forget (diskAccess path)).IsStranded path location content now)
    (hpath : IsFilePath path) (hmade : (Operation.recover (diskAccess path) s).1 = .ok ())
    (hfinal : statement.IsFinal) (op : Operation) (left : Nat) (e : DatabaseError) :
    ∃ next, op.restart (diskAccess path) (Disk.tryUse (Disk.write statement)) left e s =
        ((statement.apply now {}).1.mapError .database, next) ∧
      next.IsAtWork path location now (statement.apply now {}).2 ∧
      next.HasBackup path location content := by
  have hforget : (s.note (op.damaged e)).forget (diskAccess path) =
      (s.forget (diskAccess path)).note (op.damaged e) := by
    obtain ⟨_ | connection, world, log⟩ := s <;> rfl
  have hnoted := h.note (op.damaged e)
  rw [← recover_note s (op.damaged e), ← recover_forget, hforget] at hmade
  obtain ⟨made, hrecover, hwork, hbackup⟩ := hnoted.recover hpath hmade
  rw [Operation.restart, ← recover_forget, hforget, hrecover]
  dsimp only
  obtain ⟨_, hafter, htouches⟩ := hwork.attempt statement
  exact ⟨_, hwork.tries hfinal op _ left, hafter, hbackup.touches htouches⟩

/-! ## Damage -/

/-- A use that leaves nothing behind when it meets with damage but what was looked for. -/
def Stops (writes : Bool) (use : Use α) : Prop :=
  ∀ (disk : Disk) (location : Location) (manner : Manner) (prepared : List Form) (tables : Tables)
    (e : DatabaseError), disk.held? (.file location) = some (.tables tables) →
    (use (.to (.file location) manner prepared) disk).1 = .error e → e.classify = .corruption →
      use (.to (.file location) manner prepared) disk =
        (.error e, .to (.file location) manner prepared,
          (disk.databaseOf location manner writes).2)

theorem stops_execute (writes : Bool) {statement : Statement α} (h : statement.IsFinal) :
    Stops writes (Disk.execute writes statement) := by
  intro disk location manner prepared tables e hheld herror hclass
  have hdisk := disk.contents_of_disk location manner statement.subject writes
  have hlive := Option.isSome_of_mem hheld
  rw [Disk.execute.eq_def] at herror ⊢
  dsimp only at herror ⊢
  split at herror
  · next hlook =>
    cases herror
    rw [← hdisk, hlook]
  · next hlook =>
    -- whoever gets at the tables fails for good
    cases hheld.symm.trans (Disk.contents_of_ok hlive hlook).1
    rw [Statement.run_tables] at herror
    cases hclass.symm.trans (h.apply herror)

theorem stops_write {statement : Statement α} (h : statement.IsFinal) :
    Stops true (Disk.write statement) := stops_execute true h

theorem stops_read {query : Query α} (h : ∀ tables, FailsForGood (query.onTables tables)) :
    Stops false (Disk.read query) :=
  stops_execute false (statement_sound h).fails

theorem nothing_sound : Statement.nothing.IsSound where
  keeps _ _ _ _ hsound hdone := by
    cases hdone
    exact hsound
  fails _ _ := fails_for_good_ok _

/-- Where a write meets with damage and nothing lies ahead, a file is broken. -/
theorem Keeps.broken (h : s.IsSound path) (hquiet : s.world.incidents = [])
    (herror : (s.attempt (diskAccess path) (Disk.tryUse (Disk.write .nothing))).1 = .error e)
    (hclass : e.classify = .corruption) :
    ∃ location, placeOf? path s.world.tree = some (.file location) ∧
      ¬ s.world.IsIntact (.file location) := by
  have hundergoes := h.attempt_undergoes (transacts_write nothing_sound)
  rw [herror] at hundergoes
  have haccounts : s.Accounts path e := by
    generalize hresult : (.error e : Result Unit) = result at hundergoes
    cases hundergoes with
    | failed haccounts _ =>
      cases hresult
      exact haccounts
    | done hworks =>
      subst hresult
      exact accounts_of_permanent (hworks.failure (transacts_write nothing_sound)).1
  rcases haccounts with ⟨incident, hincident, _⟩ | ⟨hdamage, _⟩
  · rw [hquiet] at hincident
    cases hincident
  · obtain ⟨place, hplace, hbroken⟩ := hdamage hclass
    cases place with
    | file location => exact ⟨location, hplace, hbroken⟩
    | memory => exact absurd ⟨_, rfl, rfl, rfl, nofun⟩ hbroken

def look (path : String) (writes : Bool) (s : DiskSession) : DiskSession :=
  match s.connection with
  | some (.to (.file location) manner _) =>
    { s with world := (s.world.databaseOf location manner writes).2 }
  | some _ => s
  | none => { s with world := (s.world.connect path).2 }

theorem find_of_read {tree : FileTree Content} (h : tree.read path = .ok content) :
    ∃ location, tree.find path = .ok (.found location (.file content)) := by
  unfold FileTree.read at h
  split at h <;> cases h
  next location hfound => exact ⟨location, hfound⟩

/-- A session that meets with damage only looks at its file, and is stranded when it closes its
connection. -/
theorem Keeps.strands {writes : Bool} {use : Use α} (h : s.IsSound path) (hpath : IsFilePath path)
    (hquiet : s.world.incidents = []) (hunlinked : IsUnlinked path s.world.tree)
    (hplace : placeOf? path s.world.tree = some (.file location))
    (hbroken : ¬ s.world.IsIntact (.file location))
    (hfile : (s.forget (diskAccess path)).world.tree.read path = .ok content)
    (huse : Stops writes use)
    (herror : (s.attempt (diskAccess path) (Disk.tryUse use)).1 = .error e)
    (hclass : e.classify = .corruption) :
    (s.attempt (diskAccess path) (Disk.tryUse use)).2 = s.look path writes ∧
      ((s.look path writes).forget (diskAccess path)).IsStranded path location content
        s.world.now := by
  obtain ⟨found, hfound⟩ := find_of_read hfile
  obtain ⟨address, hparse, _, haim⟩ := aim_of_place hplace
  rw [hpath.1] at hparse
  cases hparse
  have haim' := FileTree.find_aims hfound
  obtain ⟨connection, world, log⟩ := s
  dsimp only at hquiet hunlinked hplace hbroken haim
  cases connection with
  | none =>
    obtain rfl : location = found := Option.some.inj (haim.symm.trans haim')
    have hstranded : IsStranded path location content world.now
        { connection := none, world, log } :=
      ⟨rfl, hfound, hbroken, hunlinked, h.world.hold, hquiet, rfl⟩
    obtain ⟨_, _, hafter⟩ := hstranded.attempt hpath use
    have hlook : (Session.attempt (diskAccess path) (Disk.tryUse use)
        { connection := none, world, log }).2 =
          look path writes { connection := none, world, log } := by
      obtain ⟨cause, next, hconnect, _⟩ := Disk.connect_broken hpath.1 hpath.2 haim hbroken
      rw [attempt_unconnected hquiet hconnect, look]
      dsimp only
      rw [hconnect]
    rw [hlook] at hafter ⊢
    refine ⟨rfl, ?_⟩
    rw [hafter.forget]
    exact hafter
  | some connection =>
    have hserves := h.serves connection rfl
    obtain ⟨place, manner, prepared, rfl⟩ := hserves.not_own ⟨_, hpath⟩
    cases hserves.place_eq.symm.trans hplace
    obtain ⟨_, _, _, _, hlive⟩ := hserves
    obtain ⟨held, hheld⟩ := Option.isSome_iff_exists.mp hlive
    obtain ⟨tables, rfl, _⟩ := h.world.held _ _ hheld
    rw [attempt_connected hquiet] at herror ⊢
    rw [huse world location manner prepared tables e hheld herror hclass]
    refine ⟨rfl, ?_⟩
    -- the file stays as it is, and closing the connection makes the same of it
    have htouches := Disk.touches_database_of world location manner writes
    generalize hlooked : (world.databaseOf location manner writes).2 = looked at htouches
    have hsame := htouches.content_eq (Disk.not_mem_besides location)
    have hshape := ((Disk.unlink_shape world location).symm.trans htouches.shape).trans
      (Disk.unlink_shape looked location)
    obtain ⟨hnow, hincidents, hhold⟩ := looked.unlink_rest location
    have hclosed : world.unlink (.file location) =
        (Session.forget (diskAccess path)
          { connection := some (.to (.file location) manner prepared), world, log }).world := rfl
    rw [← hclosed] at hfound haim'
    rw [(Disk.unlink_shape world location).sameLinks.aim] at haim'
    obtain rfl : location = found := Option.some.inj (haim.symm.trans haim')
    have hcontent : (looked.unlink (.file location)).content? location = some content := by
      rw [Disk.content_of_unlink htouches.links hsame, Disk.content?,
        FileTree.find_found hfound]
    have hforget : Session.forget (diskAccess path) (look path writes
        { connection := some (.to (.file location) manner prepared), world, log }) =
          { connection := none, world := looked.unlink (.file location), log } := by
      rw [look]
      dsimp only
      rw [hlooked]
      rfl
    rw [hforget]
    refine ⟨rfl, FileTree.find_again hfound hshape (Disk.content_eq_some.mp hcontent),
      Disk.broken_of_unlink (mt (Disk.intact_congr hsame).mp hbroken), ?_,
      (hhold.trans htouches.hold).trans h.world.hold,
      (hincidents.trans htouches.incidents).trans hquiet, hnow.trans htouches.now⟩
    exact hunlinked.congr (htouches.shape.trans (Disk.unlink_shape looked location))

/-! ## Opening -/

/-- A session without a connection, with nothing in its file and nothing ahead. -/
structure IsVacant (path : String) (now : Int) (s : DiskSession) : Prop where
  connection : s.connection = none
  vacant : ∀ location, s.world.tree.aim? (octets path) = some location → s.world.IsVacant location
  hold : s.world.hold = none
  incidents : s.world.incidents = []
  now : s.world.now = now

theorem IsVacant.forget (h : s.IsVacant path now) : s.forget (diskAccess path) = s := by
  rw [Session.forget, h.connection]

/-- The first attempt on a file with nothing in it makes the session ready for work, or fails and
blames no damage. -/
theorem IsVacant.attempt (h : s.IsVacant path now) (hpath : IsFilePath path) :
    (∃ location next,
      s.attempt (diskAccess path) (Disk.tryUse (Disk.write .nothing)) = (.ok (), next) ∧
        next.IsAtWork path location now {}) ∨
    ∃ e next, s.attempt (diskAccess path) (Disk.tryUse (Disk.write .nothing)) = (.error e, next) ∧
      e.classify ≠ .corruption ∧ (e.classify = .permanent ∨ next.IsVacant path now) := by
  obtain ⟨connection, world, log⟩ := s
  obtain ⟨rfl, hvacant, hhold, hincidents, rfl⟩ := h
  dsimp only at hvacant hhold hincidents
  rw [Session.attempt]
  dsimp only [diskAccess]
  rw [Disk.try_connect_quiet hincidents]
  rcases Disk.connect_vacant hpath hvacant with
    ⟨e, hconnect, hclass⟩ | ⟨location, haim, hfurnishes⟩
  · rw [hconnect]
    refine .inr ⟨e, _, rfl, ?_, .inr ⟨rfl, hvacant, hhold, hincidents, rfl⟩⟩
    rw [hclass]
    intro heq
    cases heq
  · generalize world.connect path = outcome at hfurnishes
    cases hfurnishes with
    | @failed e next hclass htouches hfailed =>
      refine .inr ⟨e, _, rfl, hclass, hfailed.imp_right fun hvacant => ?_⟩
      refine ⟨rfl, fun found hfound => ?_, htouches.hold.trans hhold,
        htouches.incidents.trans hincidents, htouches.now⟩
      rw [htouches.shape.sameLinks.aim, haim] at hfound
      cases hfound
      exact hvacant
    | @made made htouches hcontent =>
      have hplace : placeOf? path made.tree = some (.file location) := by
        rw [place_of_address hpath.1, Address.place?, hpath.2]
        dsimp only
        rw [htouches.shape.sameLinks.aim, haim]
        rfl
      have hwork : IsAtWork path location world.now {}
          { connection := some (.to (.file location) {})
            world := { made with links := .file location :: made.links }, log } :=
        ⟨⟨_, rfl⟩, hplace, ⟨_, hcontent, ⟨rfl, rfl, rfl, rfl⟩, rfl⟩, htouches.hold.trans hhold,
          htouches.incidents.trans hincidents, htouches.now⟩
      obtain ⟨hresult, hafter, _⟩ := hwork.attempt .nothing
      exact .inl ⟨location, _, Prod.ext hresult rfl, hafter⟩

end Session

/-- A disk without files, on which no one else has locked anything and nothing lies ahead. -/
structure Disk.IsBare (disk : Disk) : Prop where
  content : ∀ location, disk.content? location = none
  hold : disk.hold = none
  incidents : disk.incidents = []

theorem Session.attempts_vacant {path : String} (hpath : IsFilePath path) (now : Int)
    (op : Operation) : Attempts op (diskAccess path) (Disk.tryUse (Disk.write .nothing))
      (Session.IsVacant path now) fun result s => result = .ok () →
        ∃ location, s.IsAtWork path location now {} where
  note s event h := ⟨h.connection, h.vacant, h.hold, h.incidents, h.now⟩
  success s _ next h heq _ := by
    rcases h.attempt hpath with ⟨location, last, hok, hwork⟩ | ⟨_, _, hfailed, _⟩
    · cases heq.symm.trans hok
      exact ⟨location, hwork⟩
    · cases heq.symm.trans hfailed
  permanent s e next _ _ _ hok := by cases hok
  transient s e next h heq hclass := by
    rcases h.attempt hpath with ⟨_, _, hok, _⟩ | ⟨_, _, hfailed, _, hvacant⟩
    · cases heq.symm.trans hok
    · cases heq.symm.trans hfailed
      rw [hclass] at hvacant
      rcases hvacant with hnever | hvacant
      · cases hnever
      · rw [hvacant.forget]
        exact ⟨hvacant, fun hok => by cases hok⟩
  corruption s e next h heq hclass := by
    rcases h.attempt hpath with ⟨_, _, hok, _⟩ | ⟨_, _, hfailed, hnever, _⟩
    · cases heq.symm.trans hok
    · cases heq.symm.trans hfailed
      exact absurd hclass hnever

/-- An index that was opened where there is no file is at work on empty tables. -/
theorem open_at_work {path : String} {options : Options} {store : Store} (hpath : IsFilePath path)
    (hbare : disk.IsBare) (hopen : (open_ path options disk).1 = .ok store) :
    store.path = path ∧ store.options = options ∧
      ∃ location, store.session.IsAtWork path location disk.now {} := by
  revert hopen
  fun_cases open_ with
  | case3 _ tree htree opening opened hwrite =>
    rintro ⟨⟩
    have hvacant : opening.session.IsVacant path disk.now := by
      refine ⟨rfl, fun location _ => .inl ?_, hbare.hold, hbare.incidents, rfl⟩
      rw [Disk.content?]
      split
      · next content hfile =>
        have hnone := hbare.content location
        rw [Disk.content?, FileTree.file_of_make_directories htree hfile] at hnone
        cases hnone
      · rfl
    have hends := (Session.attempts_vacant hpath disk.now _).run hvacant (congrArg Prod.fst hwrite)
    obtain rfl := congrArg Prod.snd hwrite
    exact ⟨rfl, rfl, hends⟩
  | _ => rintro ⟨⟩

end CodeAtlas.Store
