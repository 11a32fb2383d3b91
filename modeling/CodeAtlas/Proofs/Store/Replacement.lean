import CodeAtlas.Proofs.Store.Frames
import CodeAtlas.Proofs.Store.Readiness

/-!
# New databases in the place of damaged ones

Who connects to a file in which there is nothing makes an empty database of it
(`Disk.connect_vacant`). A damaged file is moved aside first (`quarantine_moves`). If a connection
is made after that, then it leads to an empty database in the place of the file, and the file is
kept under its other name (`replace_damaged_cases`): a connection to the file itself could not have
been made, since it is broken.
-/

namespace CodeAtlas.Store

open Files (FileTree Location Name)
open Logging (Event)

/-- Whether a path is that of a file, and neither a URI nor the name of something in memory. -/
def IsFilePath (path : String) : Prop :=
  Address.parse path = .ok { path := octets path } ∧
    ({ path := octets path } : Address).site = .file

instance (path : String) : Decidable (IsFilePath path) := inferInstanceAs (Decidable (_ ∧ _))

/-- What the names of the files that belong to a database end in. -/
def sideSuffixes : List String := [".corrupt", logSuffix, mapSuffix]

/-- Whether no link has the name of a database's file, or of one that belongs to it. Files are moved
and removed by their names, so a link would be moved in the place of the file. -/
def IsUnlinked (path : String) (tree : FileTree Content) : Prop :=
  ∀ suffix ∈ "" :: sideSuffixes, tree.IsPlain (path ++ suffix)

namespace IsUnlinked

variable {path : String} {tree next : FileTree Content} (h : IsUnlinked path tree)

include h

theorem congr (hshape : tree.SameShape next) : IsUnlinked path next := by
  intro suffix hsuffix name hname directory
  rw [hshape.sameLinks.link]
  exact h suffix hsuffix name hname directory

theorem plain {suffix : String} (hsuffix : suffix ∈ sideSuffixes) : tree.IsPlain (path ++ suffix) :=
  h suffix (.tail _ hsuffix)

theorem locate : tree.locate path = tree.find path := by
  have hplain := h "" (.head _)
  rw [String.append_empty] at hplain
  exact FileTree.locate_eq_find hplain

end IsUnlinked

theorem unlinked_of_entries {path : String} {tree : FileTree Content}
    (h : (tree.entries.all fun entry => match entry.2 with
      | .link _ => false
      | _ => true) = true) : IsUnlinked path tree := by
  intro suffix _ name _ directory
  rw [FileTree.link?]
  split
  · next target hentry =>
    rw [FileTree.entry?, if_neg (by simp)] at hentry
    obtain ⟨before, after, hentries, _⟩ := List.lookup_eq_some_iff.mp hentry
    rw [hentries, List.all_append, List.all_cons] at h
    simp at h
  · rfl

theorem is_suffix_of_side {suffix : String} (h : suffix ∈ sideSuffixes) :
    FileTree.IsSuffix suffix := by
  simp only [sideSuffixes, List.mem_cons, List.not_mem_nil, or_false] at h
  rcases h with rfl | rfl | rfl <;> exact ⟨by decide, by decide⟩

namespace Disk

variable {disk next last : Disk} {location : Location} {path : String} {content : Content}
  {events : List Event}

/-! ## Files with nothing in them -/

/-- Whether there is nothing to be read at a location. -/
def IsVacant (disk : Disk) (location : Location) : Prop :=
  disk.content? location = none ∨ disk.isBlank location = true

theorem IsVacant.congr (h : disk.IsVacant location)
    (hcontent : next.content? location = disk.content? location) : next.IsVacant location := by
  unfold IsVacant isBlank at h ⊢
  rw [hcontent]
  exact h

theorem intact_congr (hcontent : next.content? location = disk.content? location) :
    next.IsIntact (.file location) ↔ disk.IsIntact (.file location) := by
  rw [IsIntact, IsIntact, standing?, standing?, hcontent]

/-- What connecting to a file with nothing in it comes to: a failure that may pass and leaves
nothing in it, a failure for good, or an empty database. -/
inductive Furnishes (location : Location) (disk : Disk) : Result Connection × Disk → Prop where
  | failed {e : DatabaseError} {next : Disk} (hclass : e.classify ≠ .corruption)
    (htouches : disk.Touches (location :: besides location) next)
    (hvacant : e.classify = .permanent ∨ next.IsVacant location) :
    Furnishes location disk (.error e, next)
  | made {made : Disk} (htouches : disk.Touches (location :: besides location) made)
    (hcontent : made.content? location = some (.database { logged := .whole })) :
    Furnishes location disk
      (.ok (.to (.file location) {}), { made with links := .file location :: made.links })

/-- What making an empty database of a blank file comes to. -/
theorem found_blank (h : disk.isBlank location = true) (bytes : Bytes) :
    (∃ e next, disk.found { path := bytes } location = (.error e, next) ∧
      e.classify ≠ .corruption ∧ (e.classify = .permanent ∨ next.IsVacant location)) ∨
    ∃ next, disk.found { path := bytes } location = (.ok (), next) ∧
      next.content? location = some (.database { logged := .whole }) := by
  have hvacant : disk.IsVacant location := .inr h
  fun_cases found disk { path := bytes } location with
  | case1 hreadOnly => cases hreadOnly
  | case2 | case3 => exact .inl ⟨_, _, rfl, by decide, .inr hvacant⟩
  | case4 =>
    exact .inl ⟨_, _, rfl, by decide, .inr (hvacant.congr (content_drop_journal disk location))⟩
  | case5 _ _ _ _ dropped =>
    obtain ⟨_, hcontent, _⟩ := content_of_blank h
    cases hmap : dropped.openMap location ({ path := bytes } : Address).manner with
    | error e =>
      have hclass := open_map_class hmap
      exact .inl ⟨e, _, rfl, by rw [hclass]; decide, .inl hclass⟩
    | ok => exact .inr ⟨_, rfl, content_set_self (ne_root hcontent)⟩

theorem try_connect_quiet (h : disk.incidents = []) (path : String) :
    disk.tryConnect path = disk.connect path := by
  rw [tryConnect, meet, h]

/-- Who connects to a file in which there is nothing makes an empty database of it, or fails and
blames no damage. -/
theorem connect_vacant (hpath : IsFilePath path)
    (hvacant : ∀ location, disk.tree.aim? (octets path) = some location →
      disk.IsVacant location) :
    (∃ e, disk.connect path = (.error e, disk) ∧ e.classify = .transient) ∨
      ∃ location, disk.tree.aim? (octets path) = some location ∧
        disk.Furnishes location (disk.connect path) := by
  obtain ⟨hparse, hsite⟩ := hpath
  rw [connect, hparse]
  dsimp only
  rw [connectAt, hsite]
  dsimp only
  unfold connectFile
  split
  · next e hreach => exact .inl ⟨e, rfl, reach_class hreach⟩
  · next location reached hreach =>
    obtain ⟨hnamed, hreached⟩ := reach_cases hreach
    have haim := FileTree.aim_of_named hnamed
    refine .inr ⟨location, haim, ?_⟩
    -- The file was blank before, or reaching it made it.
    have hblank : reached.isBlank location = true := by
      rcases hreached with ⟨content, hcontent, rfl⟩ | ⟨hentry, rfl⟩
      · rcases hvacant location haim with hnone | hblank
        · rw [hnone] at hcontent
          cases hcontent
        · exact hblank
      · have hroot : location ≠ [] := by
          rintro rfl
          cases hentry
        rw [isBlank, content_set_self hroot]
        rfl
    have hreached := touches_reach hreach
    have hstart := touches_start reached location ({ path := octets path } : Address).manner
    have houtcome := outcome_start reached location ({ path := octets path } : Address).manner
    rw [if_neg Bool.false_ne_true]
    -- A start touches only what is beside the file, so it stays blank.
    have hsame := hstart.content_eq (not_mem_besides location)
    have hlooked := hreached.trans (hstart.mono (List.subset_cons_self location _))
    split
    · next e started heq =>
      rw [heq] at houtcome hsame hlooked
      refine .failed (fun hclass => ?_) hlooked (.inr (IsVacant.congr (.inr hblank) hsame))
      exact houtcome.blame e rfl hclass (intact_of_blank hblank)
    · next started heq =>
      rw [heq] at hsame hlooked
      have hblank : started.isBlank location = true := by
        rw [isBlank, hsame]
        exact hblank
      obtain ⟨bytes, hcontent, _⟩ := content_of_blank hblank
      have hfound := hlooked.trans
        (touches_found { path := octets path } (shape_of_content hcontent))
      have henter : started.enterFile { path := octets path } location =
          started.found { path := octets path } location := by
        rw [enterFile, hcontent]
        exact if_pos hblank
      rw [henter]
      rcases found_blank hblank (octets path) with
        ⟨e, next, heq, hclass, hvacant⟩ | ⟨next, heq, hcontent⟩
      · rw [heq] at hfound ⊢
        exact .failed hclass hfound hvacant
      · rw [heq] at hfound ⊢
        exact .made hfound hcontent

/-! ## Moving a file aside -/

/-- A disk on which files that belong to databases were removed. -/
structure Clears (disk next : Disk) : Prop where
  now : next.now = disk.now
  incidents : next.incidents = disk.incidents
  hold : disk.hold = none → next.hold = none
  shape : disk.tree.SameShape next.tree
  entry : ∀ location, next.tree.entry? location = disk.tree.entry? location ∨
    next.tree.entry? location = none ∧ ∃ suffix ∈ [logSuffix, mapSuffix], ∃ directory name,
      location = directory ++ [(Name.text name).append suffix]

theorem Clears.refl (disk : Disk) : disk.Clears disk :=
  ⟨rfl, rfl, id, .refl _, fun _ => .inl rfl⟩

theorem Clears.trans (h : disk.Clears next) (hlast : next.Clears last) : disk.Clears last where
  now := hlast.now.trans h.now
  incidents := hlast.incidents.trans h.incidents
  hold hnone := hlast.hold (h.hold hnone)
  shape := h.shape.trans hlast.shape
  entry location := by
    rcases hlast.entry location with heq | hgone
    · rw [heq]
      exact h.entry location
    · exact .inr hgone

theorem abandon_at_rest (disk : Disk) (path : String) :
    (disk.abandonAt path).now = disk.now ∧ (disk.abandonAt path).incidents = disk.incidents ∧
      (disk.hold = none → (disk.abandonAt path).hold = none) := by
  unfold abandonAt
  split
  · refine ⟨rfl, rfl, fun hnone => ?_⟩
    rw [abandon, hnone]
    rfl
  · exact ⟨rfl, rfl, id⟩

theorem clears_remove {suffix : String} (hsuffix : suffix ∈ [logSuffix, mapSuffix])
    (hlinks : IsUnlinked path disk.tree)
    (h : removeIfThere (path ++ suffix) disk = (.ok (), next, events)) : disk.Clears next := by
  have hside : suffix ∈ sideSuffixes := List.mem_cons_of_mem _ hsuffix
  obtain ⟨hnow, hincidents, hhold⟩ := disk.abandon_at_rest (path ++ suffix)
  unfold removeIfThere at h
  split at h
  · next tree hremove =>
    cases h
    rw [FileTree.remove, FileTree.locate_eq_find (hlinks.plain hside)] at hremove
    split at hremove <;> cases hremove
    next location entry hdirectory hfind =>
    obtain ⟨name, hnamed⟩ :=
      FileTree.find_suffix (is_suffix_of_side hside) (hlinks.plain hside) hfind
    cases hnamed with
    | @found directory _ hentry hlink =>
      have hshape : disk.tree.shape? (directory ++ [(Name.text name).append suffix]) = none := by
        rw [FileTree.link?, hentry] at hlink
        rw [FileTree.shape?, hentry]
        cases entry with
        | directory => exact (hdirectory rfl).elim
        | link => cases hlink
        | file => rfl
      refine ⟨hnow, hincidents, hhold, FileTree.same_shape_erase hshape, fun other => ?_⟩
      by_cases hother : other = directory ++ [(Name.text name).append suffix]
      · right
        rw [hother]
        refine ⟨FileTree.entry_erase_self (List.concat_ne_nil _ _), ?_⟩
        exact ⟨suffix, hsuffix, directory, name, rfl⟩
      · exact .inl (FileTree.entry_erase_ne hother)
  · cases h
    exact .refl disk
  · cases h

theorem clears_remove_all {suffixes : List String}
    (hsuffixes : ∀ suffix ∈ suffixes, suffix ∈ [logSuffix, mapSuffix])
    (hlinks : IsUnlinked path disk.tree) (h : (removeAll (suffixes.map (path ++ ·)) disk).1 = .ok ()) :
    disk.Clears (removeAll (suffixes.map (path ++ ·)) disk).2.1 := by
  induction suffixes generalizing disk with
  | nil => exact .refl disk
  | cons suffix suffixes ih =>
    rw [List.map_cons, removeAll] at h ⊢
    cases hremove : removeIfThere (path ++ suffix) disk with
    | mk result rest =>
      obtain ⟨cleared, events⟩ := rest
      rw [hremove] at h
      cases result with
      | error e => cases h
      | ok =>
        have hfirst := clears_remove (hsuffixes suffix (.head _)) hlinks hremove
        have hrest := ih (fun other hother => hsuffixes other (.tail _ hother))
          (hlinks.congr hfirst.shape) h
        exact hfirst.trans hrest

theorem moves_file {place : Location} (hentry : disk.tree.entry? location = some (.file content))
    (hroot : place ≠ []) (hshape : disk.tree.shape? place = none) :
    disk.tree.SameShape ((disk.tree.erase location).set place (.file content)) ∧
      FileTree.entry? ((disk.tree.erase location).set place (.file content)) place =
        some (.file content) ∧
      (place ≠ location →
        FileTree.entry? ((disk.tree.erase location).set place (.file content)) location =
          none) := by
  have herased := FileTree.same_shape_erase (FileTree.shape_of_file hentry)
  refine ⟨herased.trans (FileTree.same_shape_set ((herased.shape place).trans hshape)),
    FileTree.entry_set_self hroot, fun hne => ?_⟩
  rw [FileTree.entry_set_ne hne.symm]
  refine FileTree.entry_erase_self ?_
  rintro rfl
  cases hentry

/-- A disk on which the file of a path was moved to a place, with the files beside it removed. -/
structure Quarantines (path : String) (location place : Location) (content : Content)
    (disk next : Disk) : Prop where
  now : next.now = disk.now
  incidents : next.incidents = disk.incidents
  hold : disk.hold = none → next.hold = none
  shape : disk.tree.SameShape next.tree
  backup : next.tree.find (backupPath path) = .ok (.found place (.file content))
  gone : place ≠ location → next.content? location = none

/-- Names of files that are kept are none of those that are removed. -/
theorem corrupt_ne_side {suffix : String} (h : suffix ∈ [journalSuffix, logSuffix, mapSuffix])
    (name other : Name) : name.append ".corrupt" ≠ other.append suffix := by
  simp only [List.mem_cons, List.not_mem_nil, or_false] at h
  rcases h with rfl | rfl | rfl <;>
    exact Files.append_ne_append 0x74 (by decide) (by decide) (by decide) name other

/-- The file is kept when the files beside it are removed. -/
theorem quarantines_moved {found : Files.Place Content} {directory : Location} {name : String}
    (hlinks : IsUnlinked path disk.tree)
    (hentry : disk.tree.entry? location = some (.file content))
    (htarget : disk.tree.find (backupPath path) = .ok found)
    (hlocation : found.location = directory ++ [(Name.text name).append ".corrupt"])
    (hslash : ∀ missed, found ≠ .missing missed true)
    (hshape : disk.tree.shape? found.location = none)
    (h : removeAll (sidecars path) { disk.abandonAt path with
      tree := (disk.tree.erase location).set found.location (.file content) } =
        (.ok (), next, events)) :
    disk.Quarantines path location found.location content next := by
  obtain ⟨hnow, hincidents, hhold⟩ := disk.abandon_at_rest path
  have hroot : found.location ≠ [] := hlocation ▸ List.concat_ne_nil _ _
  obtain ⟨hmoved, hplace, hgone⟩ := moves_file hentry hroot hshape
  have hdone : (removeAll ([logSuffix, mapSuffix].map (path ++ ·)) { disk.abandonAt path with
      tree := (disk.tree.erase location).set found.location (.file content) }).1 = .ok () :=
    congrArg Prod.fst h
  have hclears := clears_remove_all (fun _ => id) (hlinks.congr hmoved) hdone
  rw [show removeAll ([logSuffix, mapSuffix].map (path ++ ·)) _ = _ from h] at hclears
  have hsame := hmoved.trans hclears.shape
  refine ⟨hclears.now.trans hnow, hclears.incidents.trans hincidents,
    fun hnone => hclears.hold (hhold hnone), hsame,
    FileTree.find_file htarget hsame ?_ hslash, fun hne => ?_⟩
  · rcases hclears.entry found.location with heq | ⟨_, suffix, hsuffix, other, side, heq⟩
    · exact heq.trans hplace
    · -- the other name ends in another way than those of the files that are removed
      rw [hlocation] at heq
      have hlast := (List.cons.inj (List.append_inj' heq rfl).2).1
      exact absurd hlast (corrupt_ne_side (List.mem_cons_of_mem _ hsuffix) _ _)
  · rw [content?]
    rcases hclears.entry location with heq | ⟨hnone, _⟩
    · rw [heq, hgone hne]
    · rw [hnone]

/-- A damaged file that is moved aside is under its other name, and no longer under its own unless
that is the same. -/
theorem quarantine_moves (hfound : disk.tree.find path = .ok (.found location (.file content)))
    (hlinks : IsUnlinked path disk.tree) (h : quarantine path disk = (.ok (), next, events)) :
    ∃ directory name, disk.Quarantines path location
      (directory ++ [(Name.text name).append ".corrupt"]) content next := by
  have hside : ".corrupt" ∈ sideSuffixes := .head _
  have hentry := FileTree.find_found hfound
  have hbackup : disk.tree.locate (backupPath path) = disk.tree.find (backupPath path) :=
    FileTree.locate_eq_find (hlinks.plain hside)
  unfold quarantine FileTree.rename at h
  rw [hlinks.locate, hfound, hbackup] at h
  dsimp only at h
  cases htarget : disk.tree.find (backupPath path) with
  | error fault =>
    have hthere : fault ≠ .notFound := by
      rintro rfl
      exact FileTree.find_suffix_reaches (is_suffix_of_side hside) (hlinks.plain hside) hfound
        htarget
    rw [htarget] at h
    split at h
    · next heq => cases heq
    · next heq =>
      cases heq
      exact absurd rfl hthere
    · cases h
  | ok found =>
    obtain ⟨name, hnamed⟩ :=
      FileTree.find_suffix (is_suffix_of_side hside) (hlinks.plain hside) htarget
    rw [htarget] at h
    cases hnamed with
    | @missing directory hnone =>
      have hshape : disk.tree.shape? (directory ++ [(Name.text name).append ".corrupt"]) =
          none := by rw [FileTree.shape?, hnone]
      exact ⟨directory, name,
        quarantines_moved hlinks hentry htarget rfl (fun _ heq => by cases heq) hshape h⟩
    | @found directory entry hthere hlink =>
      cases entry with
      | directory => cases h
      | link target =>
        rw [FileTree.link?, hthere] at hlink
        cases hlink
      | file old =>
        exact ⟨directory, name, quarantines_moved hlinks hentry htarget rfl
          (fun _ heq => by cases heq) (FileTree.shape_of_file hthere) h⟩

/-! ## Replacing a file -/

/-- A disk on which a damaged file was replaced by an empty database, with its content kept. -/
structure Replaces (path : String) (location : Location) (content : Content)
    (disk next : Disk) : Prop where
  now : next.now = disk.now
  incidents : next.incidents = disk.incidents
  hold : disk.hold = none → next.hold = none
  shape : disk.tree.SameShape next.tree
  database : next.content? location = some (.database { logged := .whole })
  backup : ∃ place, place ∉ location :: besides location ∧
    next.tree.find (backupPath path) = .ok (.found place (.file content))

/-- A broken file for which a new connection is made was replaced. -/
theorem replace_damaged_cases {connection : Connection} (hpath : IsFilePath path)
    (hincidents : disk.incidents = [])
    (hfound : disk.tree.find path = .ok (.found location (.file content)))
    (hlinks : IsUnlinked path disk.tree) (hbroken : ¬ disk.IsIntact (.file location))
    (h : replaceDamaged path disk = (.ok connection, next, events)) :
    connection = .to (.file location) {} ∧ disk.Replaces path location content next := by
  unfold replaceDamaged at h
  split at h
  · cases h
  · next moved reports hquarantine =>
    obtain ⟨directory, name, hmoves⟩ := quarantine_moves hfound hlinks hquarantine
    generalize hplace : directory ++ [(Name.text name).append ".corrupt"] = place at hmoves
    have haim : moved.tree.aim? (octets path) = some location :=
      (hmoves.shape.sameLinks.aim _).trans (FileTree.find_aims hfound)
    rw [try_connect_quiet (hmoves.incidents.trans hincidents)] at h
    -- the file is not under its old name any more, or else nobody could connect
    have hne : place ≠ location := by
      intro heq
      have hentry := FileTree.find_found hmoves.backup
      have hsame : moved.content? location = disk.content? location := by
        rw [content?, content?, ← heq, hentry, heq, FileTree.find_found hfound]
      obtain ⟨e, failed, hconnect, _⟩ := connect_broken hpath.1 hpath.2 haim
        (mt (intact_congr hsame).mp hbroken)
      rw [hconnect] at h
      cases h
    have hvacant (found : Location) (hfound : moved.tree.aim? (octets path) = some found) :
        moved.IsVacant found := by
      cases haim.symm.trans hfound
      exact .inl (hmoves.gone hne)
    rcases connect_vacant hpath hvacant with ⟨e, hconnect, _⟩ | ⟨found, hfound, hfurnishes⟩
    · rw [hconnect] at h
      cases h
    · cases haim.symm.trans hfound
      generalize moved.connect path = outcome at h hfurnishes
      cases hfurnishes with
      | failed => cases h
      | made htouches hcontent =>
        cases h
        have hout : place ∉ location :: besides location := by
          rw [List.mem_cons, not_or]
          refine ⟨hne, fun hmem => ?_⟩
          simp only [besides, List.mem_cons, List.not_mem_nil, or_false] at hmem
          rcases hmem with heq | heq <;>
          · rw [← hplace, beside] at heq
            have hlast := (List.cons.inj (List.append_inj' heq rfl).2).1
            exact corrupt_ne_side (by decide) _ _ hlast
        have hkept := FileTree.find_again hmoves.backup htouches.shape
          ((htouches.entry place hout).trans (FileTree.find_found hmoves.backup))
        exact ⟨rfl, htouches.now.trans hmoves.now, htouches.incidents.trans hmoves.incidents,
          fun hnone => htouches.hold.trans (hmoves.hold hnone),
          hmoves.shape.trans htouches.shape, hcontent, place, hout, hkept⟩

end Disk

end CodeAtlas.Store
