import CodeAtlas.Proofs.Store.Standing

/-!
# What statements do to databases

A statement finds what the database at its place holds, and if it writes, the database holds what
the statement makes of that (`Disk.performs_execute`). Whatever goes wrong on the way, the database
keeps what it held. Closing a connection changes nothing that is held in an intact file.
-/

namespace CodeAtlas.Store

open Files (FileTree Location)

namespace Disk

variable {disk next : Disk} {location : Location} {place : Place} {contents : Contents}
  {database : Database} {manner : Manner}

/-- Who looks at a file with a database finds it. -/
theorem database_of_cases (h : disk.content? location = some (.database database)) (manner : Manner)
    (writes : Bool) :
    disk.Outcome (.file location) (disk.databaseOf location manner writes) ∧
      ∀ found, (disk.databaseOf location manner writes).1 = .ok found → found = some database := by
  have hstart := outcome_start disk location manner
  fun_cases databaseOf with
  | case1 _ _ _ _ hrefusal =>
    exact ⟨.refusal (refusal_class hrefusal ▸ nofun), fun _ herror => nomatch herror⟩
  | case2 _ _ hcontent =>
    cases h.symm.trans hcontent
    exact ⟨.success (.refl _ _), fun _ hfound => (Except.ok.inj hfound).symm⟩
  | case3 _ hother => exact absurd h (hother database)
  | case4 _ _ _ heq =>
    rw [heq] at hstart
    exact ⟨hstart.fails, fun _ herror => nomatch herror⟩
  | case5 _ _ heq _ hcontent =>
    cases h.symm.trans hcontent
    rw [heq] at hstart
    exact ⟨.success hstart.settles, fun _ hfound => (Except.ok.inj hfound).symm⟩
  | case6 _ _ _ _ hother hcontent =>
    cases h.symm.trans hcontent
    exact absurd rfl (hother database)
  | case7 _ _ _ hnone => cases h.symm.trans hnone

theorem content_of_held (h : disk.held? (.file location) = some contents) :
    ∃ database, disk.content? location = some (.database database) ∧
      database.contents = contents := by
  rw [held?] at h
  split at h <;> cases h
  next database hcontent => exact ⟨database, hcontent, rfl⟩

/-- A statement finds what its place holds. -/
theorem contents_of_cases (h : disk.held? place = some contents) (manner : Manner)
    (subject : Subject) (writes : Bool) :
    disk.Outcome place (disk.contentsOf place manner subject writes) ∧
      ∀ found, (disk.contentsOf place manner subject writes).1 = .ok found → found = contents := by
  rw [contentsOf.eq_def]
  cases place with
  | memory layer name =>
    dsimp only
    split
    · next hrefusal =>
      refine ⟨⟨.refl _ _, fun e heq hclass => ?_, fun _ _ hhold => ?_⟩,
        fun _ herror => nomatch herror⟩
      · cases heq
        rw [refusal_class hrefusal] at hclass
        cases hclass
      · rw [refusal_memory hhold] at hrefusal
        cases hrefusal
    · rw [show disk.memory.lookup (.memory layer name) = some contents from h]
      exact ⟨.success (.refl _ _), fun _ hfound => (Except.ok.inj hfound).symm⟩
  | file location =>
    obtain ⟨database, hcontent, rfl⟩ := content_of_held h
    obtain ⟨houtcome, hfound⟩ := database_of_cases hcontent manner writes
    have hintact := intact_iff hcontent
    dsimp only
    generalize disk.databaseOf location manner writes = look at houtcome hfound ⊢
    obtain ⟨e | found, looked⟩ := look
    · exact ⟨houtcome.fails, fun _ herror => nomatch herror⟩
    -- what was found is the database that is there, before it was looked at
    cases hfound found rfl
    have hsettles : disk.Settles (.file location) looked := houtcome.settles
    dsimp only
    repeat' split
    · next hdamaged =>
      refine ⟨.damage hsettles fun h => ?_, fun _ herror => nomatch herror⟩
      simp [(hintact.mp h).damaged, (hintact.mp h).torn] at hdamaged
    · next cause hfault =>
      refine ⟨⟨hsettles, fun e he hclass h => ?_, fun _ _ _ => ⟨location, rfl⟩⟩,
        fun _ herror => nomatch herror⟩
      cases he
      exact (hintact.mp h).fault cause hfault hclass
    · exact ⟨.failure hsettles nofun, fun _ herror => nomatch herror⟩
    · exact ⟨.success hsettles, fun _ heq => (Except.ok.inj heq).symm⟩

/-- A disk after new contents were written to the database at a place. -/
structure Writes (place : Place) (contents : Contents) (disk next : Disk) : Prop where
  now : next.now = disk.now
  incidents : next.incidents = disk.incidents
  hold : next.hold = disk.hold
  paths : disk.tree.SameLinks next.tree
  standing : ∀ database, disk.standing? place = some database →
    next.standing? place = some { database with contents }
  held : next.held? place = some contents
  others : ∀ other found, other ≠ place → next.held? other = some found →
    disk.held? other = some found

theorem writes_set {changed : Database} (h : disk.content? location = some (.database database))
    (hchanged : changed.settled = { database.settled with contents }) :
    disk.Writes (.file location) contents (disk.set location (.database changed)) where
  now := rfl
  incidents := rfl
  hold := rfl
  paths := FileTree.same_links_set (link_of_content h)
  standing found hfound := by
    rw [standing?, h] at hfound
    cases hfound
    rw [standing?, content_set_self (ne_root h), ← hchanged]
    rfl
  held := by
    rw [held_of_content (content_set_self (ne_root h))]
    exact congrArg (some ∘ Database.contents) hchanged
  others other found hother hheld := by
    cases other with
    | memory layer name => exact hheld
    | file found =>
      have hne : found ≠ location := by
        rintro rfl
        exact hother rfl
      rw [held?, content_set_ne hne] at hheld
      exact hheld

theorem Settles.writes {last : Disk} (h : disk.Settles place next)
    (hwrites : next.Writes place contents last) : disk.Writes place contents last where
  now := hwrites.now.trans h.now
  incidents := hwrites.incidents.trans h.incidents
  hold := hwrites.hold.trans h.hold
  paths := h.paths.trans hwrites.paths
  standing database hstanding := hwrites.standing database (h.standing.trans hstanding)
  held := hwrites.held
  others other found hother hheld :=
    h.others other found hother (hwrites.others other found hother hheld)

/-- What is put in a database in memory is there, and other databases stay. -/
theorem writes_memory {layer : Layer} {name : Bytes} {old : Contents}
    (h : disk.held? (.memory layer name) = some old) (subject : Subject) (contents : Contents) :
    disk.Writes (.memory layer name) contents (disk.put (.memory layer name) subject contents) := by
  have hlookup (other : Place) :
      (disk.put (.memory layer name) subject contents).memory.lookup other =
        (disk.memory.lookup other).map fun old =>
          if other = .memory layer name then contents else old :=
    Files.lookup_map_value disk.memory fun other old =>
      if other = .memory layer name then contents else old
  have hheld : (disk.put (.memory layer name) subject contents).held? (.memory layer name) =
      some contents := by
    rw [held?, hlookup, show disk.memory.lookup (.memory layer name) = some old from h]
    simp
  refine ⟨rfl, rfl, rfl, .refl _, fun database hstanding => ?_, hheld,
    fun other found hother hfound => ?_⟩
  · cases hstanding
    rw [standing?, show (disk.put (.memory layer name) subject contents).memory.lookup
      (.memory layer name) = some contents from hheld]
    rfl
  · cases other with
    | file location => exact hfound
    | memory layer' name' =>
      rw [held?, hlookup] at hfound
      obtain ⟨old, hold, heq⟩ := Option.map_eq_some_iff.mp hfound
      rw [if_neg hother] at heq
      rw [held?, hold, heq]

/-- What is put at a place that holds something is there, and other databases stay. -/
theorem writes_put {old : Contents} (h : disk.held? place = some old) (subject : Subject)
    (contents : Contents) : disk.Writes place contents (disk.put place subject contents) := by
  cases place with
  | memory layer name => exact writes_memory h subject contents
  | file location =>
    obtain ⟨database, hcontent, rfl⟩ := content_of_held h
    have hdropped := (content_drop_journal disk location).trans hcontent
    simp only [put, hcontent]
    repeat' split
    · next heq =>
      -- nothing new is written
      subst heq
      refine ⟨rfl, rfl, rfl, .refl _, fun found hfound => ?_, h, fun _ _ _ => id⟩
      have hstanding := hfound
      rw [standing?, hcontent] at hfound
      cases hfound
      exact hstanding
    · exact (settles_drop_journal disk location).writes (writes_set hdropped rfl)
    · exact writes_set hcontent rfl

theorem Settles.writes_held (h : disk.Settles place next)
    (hheld : disk.held? place = some contents) : disk.Writes place contents next := by
  obtain ⟨database, hstanding, hcontents⟩ := standing_of_held hheld
  have hkept : next.held? place = some contents := by
    obtain ⟨found, hfound⟩ := Option.isSome_iff_exists.mp (h.kept (by rw [hheld]; rfl))
    obtain ⟨database', hstanding', rfl⟩ := standing_of_held hfound
    rw [h.standing, hstanding] at hstanding'
    cases hstanding'
    rw [hfound, hcontents]
  refine ⟨h.now, h.incidents, h.hold, h.paths, fun other hother => ?_, hkept, h.others⟩
  rw [hstanding] at hother
  cases hother
  rw [h.standing, hstanding, ← hcontents]

/-! ## Uses of connections -/

/-- A use of a connection that gets to its database, if `effect` is what it does to the contents
that it finds. -/
inductive Reaches {α : Type} (effect : Effect α)
    (disk : Disk) : Connection → Result α × Connection × Disk → Prop where
  | own (contents : Contents) :
    Reaches effect disk (.own contents)
      ((effect disk.now contents).1, .own (effect disk.now contents).2, disk)
  | done {place : Place} {manner : Manner} {prepared later : List Form} {contents : Contents}
    {next : Disk} (hheld : disk.held? place = some contents)
    (hwrites : disk.Writes place (effect disk.now contents).2 next) :
    Reaches effect disk (.to place manner prepared)
      ((effect disk.now contents).1, .to place manner later, next)

/-- Everything that the use of a connection can do. -/
inductive Performs {α : Type} (effect : Effect α)
    (disk : Disk) : Connection → Result α × Connection × Disk → Prop where
  | failed {place : Place} {manner : Manner} {prepared : List Form} {e : DatabaseError}
    {next : Disk} (houtcome : disk.Outcome place ((.error e : Result α), next)) :
    Performs effect disk (.to place manner prepared) (.error e, .to place manner prepared, next)
  | reached {connection : Connection} {outcome : Result α × Connection × Disk}
    (hreaches : disk.Reaches effect connection outcome) : Performs effect disk connection outcome

def IsLive (disk : Disk) : Connection → Prop
  | .own _ => True
  | .to place _ _ => (disk.held? place).isSome

variable {α : Type} {connection : Connection}

/-- How a statement is refused does not depend on whether it was prepared, only what is said. -/
theorem classify_reported (isPrepared : Bool) (e : DatabaseError) :
    (reported isPrepared e).classify = e.classify := by
  rw [reported]
  split
  · next h => rw [eq_of_beq (Bool.and_eq_true_iff.mp h).2]; rfl
  · rfl

/-- A statement that is kept from its database leaves it as it is. -/
theorem contents_of_error {e : DatabaseError} {subject : Subject} {writes : Bool}
    (h : (disk.held? place).isSome)
    (hlook : disk.contentsOf place manner subject writes = (.error e, next)) (isPrepared : Bool) :
    disk.Outcome place ((.error (reported isPrepared e) : Result α), next) := by
  obtain ⟨contents, hheld⟩ := Option.isSome_iff_exists.mp h
  have houtcome := (contents_of_cases hheld manner subject writes).1
  rw [hlook] at houtcome
  refine ⟨houtcome.settles, fun cause hcause hclass => ?_, fun _ _ => houtcome.inFile e rfl⟩
  cases hcause
  exact houtcome.blame e rfl (classify_reported isPrepared e ▸ hclass)

theorem contents_of_ok {subject : Subject} {writes : Bool} (h : (disk.held? place).isSome)
    (hlook : disk.contentsOf place manner subject writes = (.ok contents, next)) :
    disk.held? place = some contents ∧ disk.Settles place next := by
  obtain ⟨found, hheld⟩ := Option.isSome_iff_exists.mp h
  obtain ⟨houtcome, hfound⟩ := contents_of_cases hheld manner subject writes
  rw [hlook] at houtcome hfound
  rw [hfound contents rfl]
  exact ⟨hheld, houtcome.settles⟩

/-- A statement does to the database what it says, or nothing. -/
theorem performs_execute (writes : Bool) (statement : Statement α) (h : disk.IsLive connection) :
    disk.Performs statement.run connection (disk.execute writes statement connection) := by
  rcases connection with ⟨place, manner, prepared⟩ | ⟨contents⟩
  case own => exact .reached (.own contents)
  case _ =>
    rw [execute.eq_def]
    dsimp only
    split
    · next hlook => exact .failed (contents_of_error h hlook _)
    · next contents looked hlook =>
      obtain ⟨hheld, hsettles⟩ := contents_of_ok h hlook
      have hkept := (hsettles.writes_held hheld).held
      rw [hsettles.now]
      exact .reached (.done hheld (hsettles.writes (writes_put hkept _ _)))

theorem performs_is_sound (h : disk.IsLive connection) :
    disk.Performs (fun _ contents => ((disk.isSound connection).1, contents)) connection
      (disk.isSound connection) := by
  fun_cases isSound with
  | case1 contents => exact .reached (.own contents)
  | case2 _ _ _ _ _ hrefusal | case3 _ _ _ _ hrefusal =>
    obtain ⟨contents, hheld⟩ := Option.isSome_iff_exists.mp h
    rw [hrefusal]
    exact .reached (.done hheld ((Settles.refl _ _).writes_held hheld))
  | case4 manner _ location _ _ hlook | case5 manner _ location _ _ hlook
  | case6 manner _ location _ hlook | case7 manner _ location _ _ hlook =>
    obtain ⟨contents, hheld⟩ := Option.isSome_iff_exists.mp h
    obtain ⟨database, hcontent, _⟩ := content_of_held hheld
    have hsettles := (database_of_cases hcontent manner false).1.settles
    rw [hlook] at hsettles
    exact .reached (.done hheld (hsettles.writes_held hheld))

/-! ## Closing connections -/

/-- Closing a connection to a file leaves the file, or puts the log of its database into it. -/
theorem unlink_cases (disk : Disk) (location : Location) :
    disk.unlink (.file location) = { disk with links := disk.links.erase (.file location) } ∨
      ∃ database, disk.content? location = some (.database database) ∧
        disk.unlink (.file location) =
          ({ disk with links := disk.links.erase (.file location) } : Disk).set location
            (if database.torn then .plain [0, 0]
              else .database { database with logged := .nothing }) := by
  rw [unlink]
  dsimp only
  split
  · exact .inl rfl
  · unfold checkpoint
    split
    · next database hcontent => exact .inr ⟨database, hcontent, by split <;> rfl⟩
    · exact .inl rfl

/-- What an intact file stands for is the same when nobody is connected any more. -/
theorem settles_unlink (h : disk.IsIntact (.file location)) :
    disk.Settles (.file location) (disk.unlink (.file location)) := by
  have hlinks := settles_links (.file location) disk (disk.links.erase (.file location))
  rcases disk.unlink_cases location with heq | ⟨database, hcontent, heq⟩ <;> rw [heq]
  · exact hlinks
  · rw [if_neg (by rw [((intact_iff hcontent).mp h).torn]; exact nofun)]
    exact hlinks.trans (settles_database hcontent rfl)

end Disk

end CodeAtlas.Store
