import CodeAtlas.Proofs.Files.Paths
import CodeAtlas.Proofs.Store.Uses

/-!
# What is left alone on a disk

Whatever is done about the database of a file, other files stay as they are, apart from the journal
and the log beside it (`Disk.Touches`, `besides`). A file that is broken is left alone, too: who
tries to connect to it fails and changes nothing in it (`Disk.connect_broken`).
-/

namespace CodeAtlas.Store

open Files (FileTree Location)

/-- The files beside a database that are removed when they do not belong to it. -/
def besides (location : Location) : List Location :=
  [beside location journalSuffix, beside location logSuffix]

namespace Disk

variable {disk next last : Disk} {location other : Location} {locations more : List Location}
  {place : Place} {manner : Manner} {address : Address} {name : String} {content : Content}
  {database : Database}

/-- A disk that differs from another in the files at some locations only. -/
structure Touches (locations : List Location) (disk next : Disk) : Prop where
  rest : next = { disk with tree := next.tree }
  shape : disk.tree.SameShape next.tree
  entry : ∀ location, location ∉ locations → next.tree.entry? location = disk.tree.entry? location

namespace Touches

theorem refl (locations : List Location) (disk : Disk) : disk.Touches locations disk :=
  ⟨rfl, .refl _, fun _ _ => rfl⟩

variable (h : disk.Touches locations next)

include h

theorem trans (hlast : next.Touches locations last) : disk.Touches locations last where
  rest := by
    rw [hlast.rest, h.rest]
  shape := h.shape.trans hlast.shape
  entry location hout := (hlast.entry location hout).trans (h.entry location hout)

theorem mono (hsub : locations ⊆ more) : disk.Touches more next :=
  ⟨h.rest, h.shape, fun location hout => h.entry location fun hin => hout (hsub hin)⟩

theorem links : next.links = disk.links := by
  rw [h.rest]

theorem now : next.now = disk.now := by
  rw [h.rest]

theorem hold : next.hold = disk.hold := by
  rw [h.rest]

theorem incidents : next.incidents = disk.incidents := by
  rw [h.rest]

theorem content_eq (hout : location ∉ locations) :
    next.content? location = disk.content? location := by
  unfold content?
  rw [h.entry location hout]

end Touches

theorem touches_erase (h : location ∈ locations) (hshape : disk.tree.shape? location = none) :
    disk.Touches locations (disk.erase location) := by
  refine ⟨rfl, FileTree.same_shape_erase hshape, fun other hout => FileTree.entry_erase_ne ?_⟩
  rintro rfl
  exact hout h

theorem touches_set (h : location ∈ locations) (hshape : disk.tree.shape? location = none) :
    disk.Touches locations (disk.set location content) := by
  refine ⟨rfl, FileTree.same_shape_set hshape, fun other hout => FileTree.entry_set_ne ?_⟩
  rintro rfl
  exact hout h

theorem shape_of_content (h : disk.content? location = some content) :
    disk.tree.shape? location = none := by
  unfold content? at h
  split at h
  · next hentry => exact FileTree.shape_of_file hentry
  · cases h

theorem not_mem_besides (location : Location) : location ∉ besides location := by
  unfold besides
  simp only [List.mem_cons, List.not_mem_nil, or_false, not_or]
  exact ⟨(beside_ne location (by decide)).symm, (beside_ne location (by decide)).symm⟩

/-! ## Looking and writing -/

theorem touches_drop_journal (disk : Disk) (location : Location) :
    disk.Touches (besides location) (disk.dropJournal location) := by
  unfold dropJournal
  split
  · next hentry => exact touches_erase (List.mem_cons_self ..) (FileTree.shape_of_file hentry)
  · exact .refl _ _

theorem touches_settle_journal (h : disk.settleJournal location = .ok next) :
    disk.Touches (besides location) next := by
  revert h
  fun_cases settleJournal <;> rintro ⟨⟩
  all_goals first | exact .refl _ _ | exact touches_drop_journal disk location

theorem touches_settle_log (h : disk.settleLog location manner = .ok next) :
    disk.Touches (besides location) next := by
  revert h
  fun_cases settleLog <;> rintro ⟨⟩
  · next hentry _ =>
    exact touches_erase (List.mem_cons_of_mem _ (List.mem_cons_self ..))
      (FileTree.shape_of_file hentry)
  · exact .refl _ _

theorem touches_start (disk : Disk) (location : Location) (manner : Manner) :
    disk.Touches (besides location) (disk.start location manner).2 := by
  fun_cases start with
  | case1 | case2 => exact .refl _ _
  | case3 _ _ hjournal => exact touches_settle_journal hjournal
  | case4 _ _ hjournal _ hlog =>
    exact (touches_settle_journal hjournal).trans (touches_settle_log hlog)

theorem touches_database_of (disk : Disk) (location : Location) (manner : Manner) (writes : Bool) :
    disk.Touches (besides location) (disk.databaseOf location manner writes).2 := by
  have hstart := touches_start disk location manner
  fun_cases databaseOf with
  | case1 | case2 | case3 => exact .refl _ _
  | case4 _ _ _ heq | case5 _ _ heq | case6 _ _ heq | case7 _ _ heq =>
    rw [heq] at hstart
    exact hstart

/-- The disk after a statement has looked for its contents is the one after the database was looked
for. -/
theorem contents_of_disk (disk : Disk) (location : Location) (manner : Manner) (subject : Subject)
    (writes : Bool) : (disk.contentsOf (.file location) manner subject writes).2 =
      (disk.databaseOf location manner writes).2 := by
  simp only [contentsOf]
  generalize disk.databaseOf location manner writes = look
  repeat' split
  all_goals rfl

theorem touches_contents_of (disk : Disk) (location : Location) (manner : Manner)
    (subject : Subject) (writes : Bool) :
    disk.Touches (besides location) (disk.contentsOf (.file location) manner subject writes).2 := by
  rw [contents_of_disk]
  exact touches_database_of disk location manner writes

theorem touches_put (disk : Disk) (location : Location) (subject : Subject) (contents : Contents) :
    disk.Touches (location :: besides location) (disk.put (.file location) subject contents) := by
  simp only [put]
  repeat' split
  · exact .refl _ _
  · next hcontent _ _ _ =>
    have hdropped := (content_drop_journal disk location).trans hcontent
    exact ((touches_drop_journal disk location).mono (List.subset_cons_self ..)).trans
      (touches_set (List.mem_cons_self ..) (shape_of_content hdropped))
  · next hcontent _ _ _ => exact touches_set (List.mem_cons_self ..) (shape_of_content hcontent)
  · exact .refl _ _

theorem touches_write {α : Type} (statement : Statement α) (disk : Disk) (location : Location)
    (manner : Manner) (prepared : List Form) : disk.Touches (location :: besides location)
      (disk.write statement (.to (.file location) manner prepared)).2.2 := by
  have hlook := (touches_contents_of disk location manner statement.subject true).mono
    (List.subset_cons_self location _)
  unfold write execute
  dsimp only
  split
  · next heq =>
    rw [heq] at hlook
    exact hlook
  · next heq =>
    rw [heq] at hlook
    exact hlook.trans (touches_put _ location _ _)

/-! ## Connecting -/

theorem touches_found (address : Address) (h : disk.tree.shape? location = none) :
    disk.Touches (location :: besides location) (disk.found address location).2 := by
  have hdropped := (touches_drop_journal disk location).mono (List.subset_cons_self location _)
  have hshape := (hdropped.shape.shape location).trans h
  fun_cases found with
  | case1 | case2 | case3 => exact .refl _ _
  | case4 => exact hdropped
  | case5 => exact hdropped.trans (touches_set (List.mem_cons_self ..) hshape)

theorem touches_reach (h : disk.reach name address = .ok (location, next)) :
    disk.Touches (location :: besides location) next := by
  obtain ⟨_, ⟨_, _, rfl⟩ | ⟨hentry, rfl⟩⟩ := reach_cases h
  · exact .refl _ _
  · refine touches_set (List.mem_cons_self ..) ?_
    rw [FileTree.shape?, hentry]

/-! ## Broken files -/

/-- A file with nothing in it stands for an empty database, which has no damage. -/
theorem intact_of_none (h : disk.content? location = none) : disk.IsIntact (.file location) := by
  refine ⟨{}, ?_, rfl, rfl, nofun⟩
  rw [standing?, h]

theorem intact_of_blank (h : disk.isBlank location = true) : disk.IsIntact (.file location) := by
  obtain ⟨bytes, hcontent, hlength⟩ := content_of_blank h
  refine ⟨{}, ?_, rfl, rfl, nofun⟩
  rw [standing?, hcontent]
  exact if_pos hlength

theorem enter_broken (h : ¬ database.IsIntact) (disk : Disk) (address : Address)
    (location : Location) : ∃ e, disk.enter address location database = (.error e, disk) := by
  have hreasons : database.torn = true ∨ database.damaged = true ∨ ∃ e, database.fault = some e := by
    by_contra hnone
    simp only [not_or, Bool.not_eq_true, not_exists] at hnone
    exact h ⟨hnone.2.1, hnone.1, fun e he => absurd he (hnone.2.2 e)⟩
  fun_cases enter with
  | case1 | case2 | case3 | case4 | case5 | case6 | case7 => exact ⟨_, rfl⟩
  | case8 | case9 | case10 => simp_all

/-- Nobody gets a connection to a file that is broken, and the file stays as it is. -/
theorem connect_broken (hparse : Address.parse name = .ok address) (hsite : address.site = .file)
    (haim : disk.tree.aim? address.path = some location)
    (hbroken : ¬ disk.IsIntact (.file location)) :
    ∃ e next, disk.connect name = (.error e, next) ∧ disk.Touches (besides location) next := by
  rw [connect, hparse]
  dsimp only
  rw [connectAt, hsite]
  dsimp only
  unfold connectFile
  split
  · exact ⟨_, _, rfl, .refl _ _⟩
  · next found reached hreach =>
    obtain ⟨hnamed, hreached⟩ := reach_cases hreach
    have hfound : found = location :=
      Option.some.inj ((FileTree.aim_of_named hnamed).symm.trans haim)
    subst hfound
    rcases hreached with ⟨content, hcontent, rfl⟩ | ⟨hentry, _⟩
    · have hlook : reached.Touches (besides found)
            (if address.frozen then (.ok (), reached)
              else reached.start found address.manner : Result Unit × Disk).2 ∧
          reached.Settles (.file found)
            (if address.frozen then (.ok (), reached)
              else reached.start found address.manner : Result Unit × Disk).2 := by
        split
        · exact ⟨.refl _ _, .refl _ _⟩
        · exact ⟨touches_start _ _ _, (outcome_start _ _ _).settles⟩
      split
      · next heq =>
        rw [heq] at hlook
        exact ⟨_, _, rfl, hlook.1⟩
      · next started heq =>
        rw [heq] at hlook
        obtain ⟨htouches, hsettles⟩ := hlook
        have hbroken' : ¬ started.IsIntact (.file found) := fun hintact =>
          hbroken (hsettles.isIntact.mp hintact)
        have hfails : ∃ e, started.enterFile address found = (.error e, started) := by
          unfold enterFile
          split
          · next database hdatabase =>
            exact enter_broken (fun hintact => hbroken' ((intact_iff hdatabase).mpr hintact)) _ _ _
          · rw [if_neg fun hblank => hbroken' (intact_of_blank hblank)]
            exact ⟨_, rfl⟩
        obtain ⟨e, hfails⟩ := hfails
        rw [hfails]
        exact ⟨e, started, rfl, htouches⟩
    · refine absurd (intact_of_none ?_) hbroken
      rw [content?, hentry]

theorem unlink_shape (disk : Disk) (location : Location) :
    disk.tree.SameShape (disk.unlink (.file location)).tree := by
  rcases disk.unlink_cases location with heq | ⟨database, hcontent, heq⟩ <;> rw [heq]
  · exact .refl _
  · exact FileTree.same_shape_set (shape_of_content hcontent)

theorem unlink_rest (disk : Disk) (location : Location) :
    (disk.unlink (.file location)).now = disk.now ∧
      (disk.unlink (.file location)).incidents = disk.incidents ∧
      (disk.unlink (.file location)).hold = disk.hold := by
  rcases disk.unlink_cases location with heq | ⟨_, _, heq⟩ <;> rw [heq] <;> exact ⟨rfl, rfl, rfl⟩

theorem broken_of_unlink (h : ¬ disk.IsIntact (.file location)) :
    ¬ (disk.unlink (.file location)).IsIntact (.file location) := by
  have hlinks := settles_links (.file location) disk (disk.links.erase (.file location))
  have hbroken := mt hlinks.isIntact.mp h
  rcases disk.unlink_cases location with heq | ⟨database, hcontent, heq⟩ <;> rw [heq]
  · exact hbroken
  · split
    · -- what was torn is no database any more
      rintro ⟨found, hstanding, _⟩
      rw [standing?, content_set_self (ne_root hcontent)] at hstanding
      cases hstanding
    · refine mt (Settles.isIntact ?_).mp h
      exact hlinks.trans (settles_database hcontent rfl)

/-- What closing a connection leaves in a file depends on the file and on who else is connected. -/
theorem content_of_unlink (hlinks : next.links = disk.links)
    (hcontent : next.content? location = disk.content? location) :
    (next.unlink (.file location)).content? location =
      (disk.unlink (.file location)).content? location := by
  unfold unlink
  dsimp only
  rw [hlinks]
  split
  · exact hcontent
  · have hsame : ({ next with links := disk.links.erase (.file location) } : Disk).content?
        location = ({ disk with links := disk.links.erase (.file location) } : Disk).content?
          location := hcontent
    unfold checkpoint
    rw [hsame]
    split
    · next database hdatabase =>
      have hroot := ne_root hdatabase
      split
      · rw [content_set_self hroot, content_set_self hroot]
      · rw [content_set_self hroot, content_set_self hroot]
    · exact hcontent

end Disk

end CodeAtlas.Store
