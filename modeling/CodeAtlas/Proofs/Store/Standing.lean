import CodeAtlas.Proofs.Files.Links
import CodeAtlas.Store.Basic

/-!
# Databases at their places

What matters of a database to those who use it is its standing: how changes get into its file is
left out, and a file that is missing or empty is as good as an empty database. All that happens
between statements, such as connecting and looking, settles the files beside a database and leaves
its standing as it was (`Disk.Settles`), and damage is reported only of a database that is not
intact (`Disk.Outcome`). `Disk.connect_cases` says everything that connecting can do.
-/

namespace CodeAtlas

open Files (Name)

theorem name_append_ne (name : Name) {suffix : String} (h : octets suffix ≠ []) :
    name.append suffix ≠ name := by
  intro heq
  have hoctets : name.octets ++ octets suffix = name.octets :=
    (Files.octets_of_octets _).symm.trans (congrArg Name.octets heq)
  exact h (List.append_right_eq_self.mp hoctets)

namespace Store

open Files (FileTree Location)

theorem beside_ne (location : Location) {suffix : String} (h : octets suffix ≠ []) :
    beside location suffix ≠ location := by
  intro heq
  have hlast : (beside location suffix).getLast? = location.getLast? := by rw [heq]
  rw [beside, List.getLast?_concat] at hlast
  cases hname : location.getLast? with
  | none =>
    rw [hname] at hlast
    cases hlast
  | some name =>
    rw [hname] at hlast
    exact name_append_ne name h (Option.some.inj hlast)

/-- A database apart from the way that its changes take into its file. -/
def Database.settled (database : Database) : Database :=
  { database with journal := .ahead, logged := .nothing }

/-- A database that can be read as it was written. -/
structure Database.IsIntact (database : Database) : Prop where
  damaged : database.damaged = false
  torn : database.torn = false
  fault : ∀ e, database.fault = some e → e.classify ≠ .corruption

def Content.standing? : Content → Option Database
  | .plain bytes => if bytes.length ≤ 1 then some {} else none
  | .database found => some found.settled

/-! ## Names of databases -/

variable {path : Bytes}

namespace Address

variable {address : Address} {e : DatabaseError}

variable {options : List (Bytes × Bytes)}

theorem fold_options_class (h : options.foldlM withOption address = .error e) :
    e.classify = .permanent := by
  induction options generalizing address with
  | nil => cases h
  | cons option rest ih =>
    rw [List.foldlM_cons] at h
    cases hfirst : address.withOption option <;> rw [hfirst] at h
    · cases h
      revert hfirst
      fun_cases withOption <;> rintro ⟨⟩ <;> rfl
    · exact ih h

theorem of_options_class (h : ofOptions path options = .error e) : e.classify = .permanent := by
  simp only [ofOptions, bind, Except.bind] at h
  split at h
  · next hfold =>
    cases h
    exact fold_options_class hfold
  · repeat' split at h
    all_goals cases h
    rfl

theorem parse_class {name : String} (h : parse name = .error e) : e.classify = .permanent := by
  revert h
  fun_cases parse with
  | case1 => rintro ⟨⟩; rfl
  | case2 => fun_cases ofUri <;> first | exact of_options_class | rintro ⟨⟩; rfl
  | case3 => rintro ⟨⟩

end Address

/-! ## What places stand for -/

namespace Disk

variable {disk next last : Disk} {location other : Location} {place : Place} {content : Content}
  {database : Database} {name : String} {address : Address} {manner : Manner} {e : DatabaseError}

def held? (disk : Disk) : Place → Option Contents
  | .file location =>
    match disk.content? location with
    | some (.database database) => some database.contents
    | _ => none
  | .memory layer name => disk.memory.lookup (.memory layer name)

/-- The database that a place stands for, which is empty if nothing is there. -/
def standing? (disk : Disk) : Place → Option Database
  | .file location =>
    match disk.content? location with
    | some content => content.standing?
    | none => some {}
  | .memory layer name =>
    some { contents := (disk.memory.lookup (.memory layer name)).getD (.tables {}) }

def IsIntact (disk : Disk) (place : Place) : Prop :=
  ∃ database, disk.standing? place = some database ∧ database.IsIntact

/-- A disk after something was done about the database at a place that does not change it. Other
databases may be taken away, if their files are where files beside the database belong. -/
structure Settles (place : Place) (disk next : Disk) : Prop where
  now : next.now = disk.now
  incidents : next.incidents = disk.incidents
  hold : next.hold = disk.hold
  paths : disk.tree.SameLinks next.tree
  standing : next.standing? place = disk.standing? place
  kept : (disk.held? place).isSome → (next.held? place).isSome
  there : ∀ location, place = .file location → (disk.content? location).isSome →
    (next.content? location).isSome
  others : ∀ other contents, other ≠ place → next.held? other = some contents →
    disk.held? other = some contents

namespace Settles

theorem refl (place : Place) (disk : Disk) : disk.Settles place disk :=
  ⟨rfl, rfl, rfl, .refl _, rfl, id, fun _ _ => id, fun _ _ _ h => h⟩

theorem trans (h : disk.Settles place next) (hlast : next.Settles place last) :
    disk.Settles place last where
  now := hlast.now.trans h.now
  incidents := hlast.incidents.trans h.incidents
  hold := hlast.hold.trans h.hold
  paths := h.paths.trans hlast.paths
  standing := hlast.standing.trans h.standing
  kept := hlast.kept ∘ h.kept
  there location hplace := hlast.there location hplace ∘ h.there location hplace
  others other contents hne hheld :=
    h.others other contents hne (hlast.others other contents hne hheld)

theorem isIntact (h : disk.Settles place next) : next.IsIntact place ↔ disk.IsIntact place := by
  rw [IsIntact, IsIntact, h.standing]

end Settles

theorem settles_links (place : Place) (disk : Disk) (links : List Place) :
    disk.Settles place { disk with links } :=
  ⟨rfl, rfl, rfl, .refl _, by cases place <;> rfl, by cases place <;> exact id,
    fun _ _ => id, fun other _ _ => by cases other <;> exact id⟩

/-! ## Single files -/

theorem content_eq_some :
    disk.content? location = some content ↔ disk.tree.entry? location = some (.file content) := by
  rw [content?]
  split
  · next h => rw [h, Option.some.injEq, Option.some.injEq, Files.Entry.file.injEq]
  · next h =>
    constructor
    · intro hnone
      cases hnone
    · intro hsome
      exact absurd hsome (h content)

theorem ne_root (h : disk.content? location = some content) : location ≠ [] := by
  rintro rfl
  cases content_eq_some.mp h

theorem link_of_content (h : disk.content? location = some content) :
    disk.tree.link? location = none := by
  rw [FileTree.link?, content_eq_some.mp h]

theorem content_erase_ne (h : other ≠ location) :
    (disk.erase location).content? other = disk.content? other := by
  rw [content?, content?, erase, FileTree.entry_erase_ne h]

theorem content_set_ne (h : other ≠ location) :
    (disk.set location content).content? other = disk.content? other := by
  rw [content?, content?, set, FileTree.entry_set_ne h]

theorem content_set_self (h : location ≠ []) :
    (disk.set location content).content? location = some content :=
  content_eq_some.mpr (FileTree.entry_set_self h)

theorem settles_erase (hother : other ≠ location)
    (hfile : disk.tree.entry? other = some (.file content)) :
    disk.Settles (.file location) (disk.erase other) where
  now := rfl
  incidents := rfl
  hold := rfl
  paths := FileTree.same_links_erase hfile
  standing := by rw [standing?, standing?, content_erase_ne hother.symm]
  kept h := by
    rw [held?, content_erase_ne hother.symm]
    exact h
  there found heq h := by
    cases heq
    rw [content_erase_ne hother.symm]
    exact h
  others place contents _ hheld := by
    cases place with
    | memory layer name => exact hheld
    | file found =>
      rw [held?] at hheld ⊢
      split at hheld
      · next database hcontent =>
        have hold := FileTree.entry_of_erase (content_eq_some.mp hcontent)
        rw [content_eq_some.mpr hold]
        exact hheld
      · cases hheld

/-- Writing a database again changes nothing but the way its changes take, and an empty file may
become a database. -/
theorem settles_set {changed : Content} (hroot : location ≠ [])
    (hlink : disk.tree.link? location = none)
    (hstanding : changed.standing? = disk.standing? (.file location))
    (hkept : (disk.held? (.file location)).isSome → ∃ database, changed = .database database) :
    disk.Settles (.file location) (disk.set location changed) where
  now := rfl
  incidents := rfl
  hold := rfl
  paths := FileTree.same_links_set hlink
  standing := by
    rw [← hstanding, standing?, content_set_self hroot]
  kept h := by
    obtain ⟨database, rfl⟩ := hkept h
    rw [held?, content_set_self hroot]
    rfl
  there found heq _ := by
    cases heq
    rw [content_set_self hroot]
    rfl
  others place contents hplace hheld := by
    cases place with
    | memory layer name => exact hheld
    | file found =>
      have hfound : found ≠ location := by
        rintro rfl
        exact hplace rfl
      rw [held?, content_set_ne hfound] at hheld
      exact hheld

theorem settles_database (hcontent : disk.content? location = some content)
    (hstanding : content.standing? = some database.settled) :
    disk.Settles (.file location) (disk.set location (.database database)) := by
  refine settles_set (ne_root hcontent) (link_of_content hcontent) ?_ fun _ => ⟨database, rfl⟩
  rw [standing?, hcontent]
  exact hstanding.symm

theorem held_of_content (h : disk.content? location = some (.database database)) :
    disk.held? (.file location) = some database.contents := by
  rw [held?, h]

theorem standing_of_held {contents : Contents} (h : disk.held? place = some contents) :
    ∃ database, disk.standing? place = some database ∧ database.contents = contents := by
  cases place with
  | memory layer name =>
    refine ⟨_, rfl, ?_⟩
    change ((disk.memory.lookup (.memory layer name)).getD (.tables {})) = contents
    rw [show disk.memory.lookup (.memory layer name) = some contents from h]
    rfl
  | file location =>
    rw [held?] at h
    split at h
    · next database hcontent =>
      cases h
      exact ⟨database.settled, by rw [standing?, hcontent]; rfl, rfl⟩
    · cases h

/-- A place stands for what its database holds, or for an empty database. -/
theorem held_of_standing (h : disk.standing? place = some database) :
    disk.held? place = some database.contents ∨ database.contents = .tables {} := by
  cases place with
  | memory layer name =>
    cases h
    rw [held?]
    cases disk.memory.lookup (.memory layer name) with
    | none => exact .inr rfl
    | some contents => exact .inl rfl
  | file location =>
    rw [standing?] at h
    split at h
    · next content hcontent =>
      cases content with
      | plain bytes =>
        dsimp only [Content.standing?] at h
        split at h <;> cases h
        exact .inr rfl
      | database found =>
        cases h
        exact .inl (by rw [held_of_content hcontent]; rfl)
    · cases h
      exact .inr rfl

/-- What is held after the disk has settled was held before, or is empty. -/
theorem Settles.held {contents : Contents} {other : Place} (h : disk.Settles place next)
    (hheld : next.held? other = some contents) :
    disk.held? other = some contents ∨ contents = .tables {} := by
  by_cases hother : other = place
  · subst hother
    obtain ⟨database, hstanding, rfl⟩ := standing_of_held hheld
    exact held_of_standing (h.standing ▸ hstanding)
  · exact .inl (h.others other contents hother hheld)

/-- All databases on the disk hold tables of this library. -/
def IsPlain (disk : Disk) : Prop :=
  ∀ place contents, disk.held? place = some contents → ∃ tables, contents = .tables tables

theorem Settles.isPlain (h : disk.Settles place next) (hplain : disk.IsPlain) : next.IsPlain := by
  intro other contents hheld
  rcases h.held hheld with hheld | rfl
  · exact hplain other contents hheld
  · exact ⟨{}, rfl⟩

/-! ## Outcomes -/

/-- What may come of something that is done about a database: the disk settles, damage is reported
only if the database is not intact, and in memory nothing goes wrong unless others have locked it.
-/
structure Outcome {β : Type} (place : Place) (disk : Disk) (outcome : Result β × Disk) : Prop where
  settles : disk.Settles place outcome.2
  blame : ∀ e, outcome.1 = .error e → e.classify = .corruption → ¬ disk.IsIntact place
  inFile : ∀ e, outcome.1 = .error e → disk.hold = none → ∃ location, place = .file location

namespace Outcome

variable {β : Type} {b : β}

theorem success (h : disk.Settles place next) : disk.Outcome place (.ok b, next) :=
  ⟨h, fun _ herror => (nomatch herror), fun _ herror => (nomatch herror)⟩

theorem failure (h : disk.Settles (.file location) next) (hclass : e.classify ≠ .corruption) :
    disk.Outcome (.file location) ((.error e : Result β), next) := by
  refine ⟨h, fun cause hcause hdamage => ?_, fun _ _ _ => ⟨location, rfl⟩⟩
  cases hcause
  exact absurd hdamage hclass

theorem refusal (hclass : e.classify ≠ .corruption) :
    disk.Outcome (.file location) ((.error e : Result β), disk) :=
  failure (.refl _ _) hclass

theorem damage (hsettles : disk.Settles (.file location) next)
    (h : ¬ disk.IsIntact (.file location)) :
    disk.Outcome (.file location) ((.error e : Result β), next) :=
  ⟨hsettles, fun _ _ _ => h, fun _ _ _ => ⟨location, rfl⟩⟩

theorem fails {γ : Type} (h : disk.Outcome place ((.error e : Result β), next)) :
    disk.Outcome place ((.error e : Result γ), next) := by
  refine ⟨h.settles, fun cause hcause => ?_, fun _ _ => h.inFile e rfl⟩
  cases hcause
  exact h.blame e rfl

theorem trans {outcome : Result β × Disk} (h : disk.Settles place next)
    (houtcome : next.Outcome place outcome) : disk.Outcome place outcome where
  settles := h.trans houtcome.settles
  blame e herror hclass hintact := houtcome.blame e herror hclass (h.isIntact.mpr hintact)
  inFile e herror hhold := houtcome.inFile e herror (h.hold.trans hhold)

end Outcome

theorem refusal_class {writes : Bool} (h : disk.refusal place manner writes = some e) :
    e.classify = .transient := by
  have hheld (hold : Option Hold) {e : DatabaseError}
      (h : (hold.bind fun hold =>
        if hold.place ≠ place then none
        else if hold.manner.cached && manner.cached then some sharedFailure
        else if hold.manner.guard == .locks && manner.guard == .locks &&
            (writes || hold.isExclusive) then some lockedFailure
        else none) = some e) : e.classify = .transient := by
    obtain ⟨held, _, hheld⟩ := Option.bind_eq_some_iff.mp h
    repeat' split at hheld
    all_goals cases hheld
    all_goals rfl
  revert h
  fun_cases refusal with
  | case1 =>
    intro h
    rcases Option.or_eq_some_iff.mp h with h | ⟨_, ⟨⟩⟩
    · exact hheld _ h
    · rfl
  | case2 | case3 => exact hheld _

theorem refusal_memory (h : disk.hold = none) {layer : Layer} {writes : Bool} :
    disk.refusal (.memory layer path) manner writes = none := by
  rw [refusal.eq_def, h]
  rfl

theorem settles_drop_journal (disk : Disk) (location : Location) :
    disk.Settles (.file location) (disk.dropJournal location) := by
  rw [dropJournal]
  split
  · next hfile => exact settles_erase (beside_ne location (by decide)) hfile
  · exact .refl _ _

theorem content_drop_journal (disk : Disk) (location : Location) :
    (disk.dropJournal location).content? location = disk.content? location := by
  rw [dropJournal]
  split
  · exact content_erase_ne (beside_ne location (by decide)).symm
  · rfl

theorem settle_journal_cases (disk : Disk) (location : Location) :
    match disk.settleJournal location with
    | .ok next => disk.Settles (.file location) next
    | .error e => e.classify = .transient := by
  fun_cases settleJournal
  all_goals first | exact rfl | exact .refl _ _ | exact settles_drop_journal _ _

theorem settle_log_cases (disk : Disk) (location : Location) (manner : Manner) :
    match disk.settleLog location manner with
    | .ok next => disk.Settles (.file location) next
    | .error e => e.classify = .transient := by
  fun_cases settleLog with
  | case1 => dsimp only; split <;> rfl
  | case2 _ _ hfile => exact settles_erase (beside_ne location (by decide)) hfile
  | case3 => rfl
  | case4 => exact .refl _ _

theorem outcome_start (disk : Disk) (location : Location) (manner : Manner) :
    disk.Outcome (.file location) (disk.start location manner) := by
  have hjournal := disk.settle_journal_cases location
  fun_cases start with
  | case1 _ hrefusal => exact .refusal (refusal_class hrefusal ▸ nofun)
  | case2 _ _ heq =>
    rw [heq] at hjournal
    exact .refusal (hjournal ▸ nofun)
  | case3 _ middle heq _ hlog | case4 _ middle heq _ hlog =>
    rw [heq] at hjournal
    have hlooked := middle.settle_log_cases location manner
    rw [hlog] at hlooked
    first | exact .failure hjournal (hlooked ▸ nofun) | exact .success (hjournal.trans hlooked)

/-! ## Connecting -/

/-- Reaching a file finds it where its path leads, or makes it there if nothing is there. -/
theorem reach_cases (h : disk.reach name address = .ok (location, next)) :
    disk.tree.named? address.path = some location ∧
      ((∃ content, disk.content? location = some content ∧ next = disk) ∨
        (disk.tree.entry? location = none ∧ next = disk.set location (.plain []))) := by
  simp only [reach, bind, Except.bind, throw, throwThe, MonadExceptOf.throw] at h
  repeat' split at h
  all_goals cases h
  · next content hnamed _ _ hentry =>
    exact ⟨hnamed, .inl ⟨content, content_eq_some.mpr hentry, rfl⟩⟩
  · next hnamed _ _ hentry => exact ⟨hnamed, .inr ⟨hentry, rfl⟩⟩

theorem reach_class (h : disk.reach name address = .error e) : e.classify = .transient := by
  simp only [reach, bind, Except.bind, throw, throwThe, MonadExceptOf.throw] at h
  repeat' split at h
  all_goals cases h
  all_goals rfl

theorem settles_reach (h : disk.reach name address = .ok (location, next)) :
    disk.Settles (.file location) next := by
  obtain ⟨_, ⟨_, _, rfl⟩ | ⟨hentry, rfl⟩⟩ := reach_cases h
  · exact .refl _ _
  · have hnone : disk.content? location = none := by rw [content?, hentry]
    have hroot : location ≠ [] := by
      rintro rfl
      cases hentry
    refine settles_set hroot (by rw [FileTree.link?, hentry]) ?_ fun hheld => ?_
    · rw [standing?, hnone]
      rfl
    · rw [held?, hnone] at hheld
      cases hheld

theorem content_of_reach (h : disk.reach name address = .ok (location, next)) :
    (next.content? location).isSome := by
  obtain ⟨_, ⟨_, hcontent, rfl⟩ | ⟨hentry, rfl⟩⟩ := reach_cases h
  · rw [hcontent]
    rfl
  · have hroot : location ≠ [] := by
      rintro rfl
      cases hentry
    rw [content_set_self hroot]
    rfl

theorem open_map_class (h : disk.openMap location manner = .error e) : e.classify = .permanent := by
  revert h
  fun_cases openMap <;> rintro ⟨⟩
  rfl

theorem content_of_blank (h : disk.isBlank location = true) :
    ∃ bytes, disk.content? location = some (.plain bytes) ∧ bytes.length ≤ 1 := by
  obtain ⟨content, hcontent, hblank⟩ := (Option.any_eq_true _ _).mp h
  cases content with
  | plain bytes => exact ⟨bytes, hcontent, of_decide_eq_true hblank⟩
  | database => cases hblank

theorem outcome_found (h : disk.isBlank location = true) (address : Address) :
    disk.Outcome (.file location) (disk.found address location) := by
  have hdropped := settles_drop_journal disk location
  fun_cases found with
  | case1 | case2 | case3 => exact .refusal nofun
  | case4 => exact .failure hdropped nofun
  | case5 =>
    obtain ⟨bytes, hcontent, hlength⟩ := content_of_blank h
    rw [← content_drop_journal] at hcontent
    have hmade : disk.Settles (.file location) ((disk.dropJournal location).set location
        (.database (if address.manner.logs then { logged := .whole }
          else { journal := .rollback }))) := by
      refine hdropped.trans (settles_database hcontent ?_)
      rw [Content.standing?, if_pos hlength]
      split <;> rfl
    cases hmap : (disk.dropJournal location).openMap location address.manner with
    | ok => exact .success hmade
    | error e => exact .failure hmade (open_map_class hmap ▸ nofun)

theorem found_database (hblank : disk.isBlank location = true)
    (h : disk.found address location = (.ok (), next)) :
    ∃ database, next.content? location = some (.database database) := by
  obtain ⟨bytes, hcontent, _⟩ := content_of_blank hblank
  revert h
  fun_cases found with
  | case5 =>
    intro h
    rw [← (Prod.mk.inj h).2]
    exact ⟨_, content_set_self (ne_root hcontent)⟩
  | _ => rintro ⟨⟩

/-- Writing the schema of a database of this library changes nothing that it holds. -/
theorem furnish_tables {tables : Tables} (h : database.contents = .tables tables) :
    disk.furnish location database = (.ok (), disk.set location (.database database)) := by
  obtain ⟨contents, journal, logged, damaged, torn, fault, isReadOnly⟩ := database
  cases h
  rfl

theorem intact_iff (h : disk.content? location = some (.database database)) :
    disk.IsIntact (.file location) ↔ database.IsIntact := by
  rw [IsIntact, standing?, h]
  constructor
  · rintro ⟨_, heq, hintact⟩
    cases heq
    exact ⟨hintact.damaged, hintact.torn, hintact.fault⟩
  · intro hintact
    exact ⟨database.settled, rfl, hintact.damaged, hintact.torn, hintact.fault⟩

theorem outcome_enter {tables : Tables}
    (hcontent : disk.content? location = some (.database database))
    (htables : database.contents = .tables tables) (address : Address) :
    disk.Outcome (.file location) (disk.enter address location database) := by
  have hintact := intact_iff hcontent
  have hdropped := settles_drop_journal disk location
  have hcontent' := (content_drop_journal disk location).trans hcontent
  fun_cases enter with
  | case1 => exact .refusal nofun
  -- only torn, damaged and faulty files may be blamed for damage
  | case2 _ _ htorn => exact .damage (.refl _ _) fun h => by simp [(hintact.mp h).torn] at htorn
  | case3 _ _ _ _ hmap =>
    split at hmap
    · exact .refusal (open_map_class hmap ▸ nofun)
    · cases hmap
  | case4 _ _ _ _ hdamaged =>
    exact .damage (.refl _ _) fun h => by simp [(hintact.mp h).damaged] at hdamaged
  | case5 _ _ _ _ _ cause hfault =>
    by_cases hclass : cause.classify = .corruption
    · exact .damage (.refl _ _) fun h => (hintact.mp h).fault cause hfault hclass
    · exact .refusal hclass
  | case6 =>
    refine .refusal ?_
    rw [readOnlyRefusal, htables]
    exact nofun
  | case7 _ _ _ _ _ _ _ hrefusal => exact .refusal (refusal_class hrefusal ▸ nofun)
  -- the journal of the file goes before its database is moved to a log
  | case8 _ _ _ _ _ _ _ _ _ moved =>
    have hmoved : moved.contents = .tables tables := htables
    rw [furnish_tables hmoved]
    exact .success (hdropped.trans (settles_database hcontent' rfl))
  | case9 _ _ _ _ _ _ _ _ _ _ _ hmap =>
    exact .failure (hdropped.trans (settles_database hcontent' rfl)) (open_map_class hmap ▸ nofun)
  | case10 =>
    rw [furnish_tables htables]
    exact .success (settles_database hcontent rfl)

/-- Everything that connecting to an address can do. -/
inductive Connects (address : Address) (disk : Disk) : Result Connection → Disk → Prop where
  | refused {e : DatabaseError} (hclass : e.classify ≠ .corruption)
    (hsite : disk.hold = none → e.classify = .transient → address.site = .file) :
    Connects address disk (.error e) disk
  | failed {location : Location} {e : DatabaseError} {next : Disk}
    (hsite : address.site = .file) (haim : disk.tree.aim? address.path = some location)
    (houtcome : disk.Outcome (.file location) ((.error e : Result Unit), next)) :
    Connects address disk (.error e) next
  | toFile {location : Location} {next : Disk}
    (hsite : address.site = .file) (haim : disk.tree.aim? address.path = some location)
    (hsettles : disk.Settles (.file location) next)
    (hheld : (next.held? (.file location)).isSome) :
    Connects address disk (.ok (.to (.file location) address.manner)) next
  | toMemory {next : Disk} (hsite : address.site = .shared)
    (hsettles : disk.Settles (.memory address.layer address.path) next)
    (hheld : (next.held? (.memory address.layer address.path)).isSome) :
    Connects address disk (.ok (.to (.memory address.layer address.path) address.manner)) next
  | toOwn (hsite : address.site = .own) : Connects address disk (.ok (.own (.tables {}))) disk

/-- A file that is there is foreign if it is neither a database nor blank. -/
theorem not_intact_of_foreign (hthere : (disk.content? location).isSome)
    (hdatabase : ∀ database, disk.content? location ≠ some (.database database))
    (hblank : disk.isBlank location ≠ true) : ¬ disk.IsIntact (.file location) := by
  obtain ⟨content, hcontent⟩ := Option.isSome_iff_exists.mp hthere
  rintro ⟨database, hstanding, _⟩
  rw [standing?, hcontent] at hstanding
  cases content with
  | database found => exact hdatabase found hcontent
  | plain bytes =>
    dsimp only [Content.standing?] at hstanding
    split at hstanding
    · next hlength =>
      refine hblank ?_
      rw [isBlank, hcontent]
      exact decide_eq_true hlength
    · cases hstanding

theorem outcome_enter_file (hplain : disk.IsPlain) (hthere : (disk.content? location).isSome)
    (address : Address) : disk.Outcome (.file location) (disk.enterFile address location) := by
  fun_cases enterFile with
  | case1 database hcontent =>
    obtain ⟨tables, htables⟩ := hplain _ _ (held_of_content hcontent)
    exact outcome_enter hcontent htables address
  | case2 hblank => exact outcome_found hblank address
  | case3 hblank hdatabase =>
    exact .damage (.refl _ _) (not_intact_of_foreign hthere hdatabase hblank)

theorem held_of_enter_file (hplain : disk.IsPlain)
    (h : disk.enterFile address location = (.ok (), next)) :
    (next.held? (.file location)).isSome := by
  revert h
  fun_cases enterFile with
  | case1 database hcontent =>
    intro h
    have hheld := held_of_content hcontent
    obtain ⟨tables, htables⟩ := hplain _ _ hheld
    have hsettles := (outcome_enter hcontent htables address).settles
    rw [h] at hsettles
    exact hsettles.kept (by rw [hheld]; rfl)
  | case2 hblank =>
    intro h
    obtain ⟨database, hcontent⟩ := found_database hblank h
    rw [held_of_content hcontent]
    rfl
  | case3 => rintro ⟨⟩

theorem connect_file_cases (hplain : disk.IsPlain) (hsite : address.site = .file) (name : String) :
    Connects address disk (disk.connectFile name address).1 (disk.connectFile name address).2 := by
  -- the file is looked at before anything is made of it, unless it is taken not to change
  have hlook {reached : Disk} {location : Location} {outcome : Result Unit × Disk}
      (h : (if address.frozen then (.ok (), reached)
        else reached.start location address.manner) = outcome) :
      reached.Outcome (.file location) outcome := by
    subst h
    split
    · exact .success (.refl _ _)
    · exact outcome_start _ _ _
  fun_cases connectFile with
  | case1 e hreach => exact .refused (reach_class hreach ▸ nofun) fun _ _ => hsite
  | case2 location reached hreach e started hstart =>
    exact .failed hsite (FileTree.aim_of_named (reach_cases hreach).1)
      (.trans (settles_reach hreach) (hlook hstart))
  | case3 location reached hreach started hstart e last hlast
  | case4 location reached hreach started hstart last hlast =>
    have haim := FileTree.aim_of_named (reach_cases hreach).1
    have hsettles := (hlook hstart).settles
    have hstarted := (settles_reach hreach).trans hsettles
    have hplain' := hstarted.isPlain hplain
    have houtcome := outcome_enter_file hplain'
      (hsettles.there location rfl (content_of_reach hreach)) address
    rw [hlast] at houtcome
    have hlinks := settles_links (.file location) last (.file location :: last.links)
    first
    | exact .failed hsite haim (.trans hstarted houtcome)
    | exact .toFile hsite haim ((hstarted.trans houtcome.settles).trans hlinks)
        (hlinks.kept (held_of_enter_file hplain' hlast))

theorem settles_make_memory {layer : Layer} (h : disk.memory.lookup (.memory layer path) = none) :
    disk.Settles (.memory layer path)
      { disk with memory := (.memory layer path, .tables {}) :: disk.memory } where
  now := rfl
  incidents := rfl
  hold := rfl
  paths := .refl _
  standing := by
    rw [standing?, standing?, h, List.lookup_cons_self]
    rfl
  kept := by
    rw [held?, h]
    exact nofun
  there _ heq := nomatch heq
  others other contents hother hheld := by
    cases other with
    | file location => exact hheld
    | memory layer' path' =>
      rw [held?, List.lookup_cons, beq_false_of_ne hother] at hheld
      exact hheld

theorem connect_memory_cases (hsite : address.site = .shared) (disk : Disk) :
    Connects address disk (disk.connectMemory address).1 (disk.connectMemory address).2 := by
  rw [connectMemory]
  split
  · next hrefusal =>
    split at hrefusal
    · cases hrefusal
    · refine .refused (refusal_class hrefusal ▸ nofun) fun hhold _ => ?_
      rw [refusal_memory hhold] at hrefusal
      cases hrefusal
  · split
    · exact .refused nofun nofun
    · have hlinks := settles_links (.memory address.layer address.path) disk
        (.memory address.layer address.path :: disk.links)
      dsimp only
      cases hfound : disk.memory.lookup (.memory address.layer address.path) with
      | some contents => exact .toMemory hsite hlinks (hlinks.kept (by rw [held?, hfound]; rfl))
      | none =>
        refine .toMemory hsite (hlinks.trans (settles_make_memory hfound)) ?_
        rw [held?, if_neg nofun, List.lookup_cons_self]
        rfl

theorem connect_cases (hplain : disk.IsPlain) (haddress : Address.parse name = .ok address) :
    Connects address disk (disk.connect name).1 (disk.connect name).2 := by
  rw [connect, haddress]
  dsimp only
  rw [connectAt.eq_def]
  cases hsite : address.site with
  | file => exact connect_file_cases hplain hsite name
  | shared => exact connect_memory_cases hsite disk
  | own =>
    dsimp only
    split
    · exact .refused nofun nofun
    · exact .toOwn hsite

end Disk

end Store

end CodeAtlas
