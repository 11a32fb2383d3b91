import CodeAtlas.Files.FileTree

/-!
# What changes of a tree of files leave alone

`set` and `erase` change one location (`entry_set_ne`, `entry_erase_ne`). Everything else that
changes a tree is made of them: a file that is there after a file was removed or moved, or after
directories were made, was there before, perhaps at another location (`file_of_remove`,
`file_of_rename`, `file_of_make_directories`).
-/

namespace CodeAtlas.Files

/-! ## Lists of entries -/

section Lookup

variable {κ β : Type} [BEq κ] [LawfulBEq κ] [DecidableEq κ] {key other : κ} (entries : List (κ × β))

theorem lookup_filter_ne (h : other ≠ key) :
    (entries.filter fun (found, _) => found ≠ key).lookup other = entries.lookup other := by
  induction entries with
  | nil => rfl
  | cons first rest ih =>
    obtain ⟨found, value⟩ := first
    by_cases hfound : found = key
    · subst hfound
      have hne : (other == found) = false := by simpa using h
      rw [List.filter_cons_of_neg (by simp), List.lookup_cons, hne]
      exact ih
    · rw [List.filter_cons_of_pos (by simpa using hfound), List.lookup_cons, List.lookup_cons, ih]

theorem lookup_filter_self : (entries.filter fun (found, _) => found ≠ key).lookup key = none := by
  rw [List.lookup_eq_none_iff]
  intro first hfirst
  have hne : first.1 ≠ key := of_decide_eq_true (List.mem_filter.mp hfirst).2
  exact bne_iff_ne.mpr hne.symm

theorem lookup_map_value (change : κ → β → β) :
    (entries.map fun (found, value) => (found, change found value)).lookup key =
      (entries.lookup key).map (change key) := by
  induction entries with
  | nil => rfl
  | cons first rest ih =>
    obtain ⟨found, value⟩ := first
    rw [List.map_cons, List.lookup_cons, List.lookup_cons]
    by_cases hfound : key = found
    · subst hfound
      rw [beq_self_eq_true]
      rfl
    · rw [beq_false_of_ne hfound]
      exact ih

end Lookup

namespace FileTree

variable {α : Type} {tree next : FileTree α} {location other : Location} {entry : Entry α}

/-! ## Single locations -/

theorem entry_set_self (h : location ≠ []) :
    entry? (tree.set location entry) location = some entry := by
  rw [ entry?, if_neg h, set]
  exact List.lookup_cons_self

theorem entry_set_ne (h : other ≠ location) :
    entry? (tree.set location entry) other = tree.entry? other := by
  rw [ entry?, entry?]
  split
  · rfl
  · have hne : (other == location) = false := by simpa using h
    rw [set, List.lookup_cons, hne]
    exact lookup_filter_ne tree.entries h

theorem entry_erase_ne (h : other ≠ location) :
    entry? (tree.erase location) other = tree.entry? other := by
  rw [ entry?, entry?]
  split
  · rfl
  · exact lookup_filter_ne tree.entries h

theorem entry_erase_self (h : location ≠ []) : entry? (tree.erase location) location = none := by
  rw [ entry?, if_neg h]
  exact lookup_filter_self tree.entries

theorem entry_of_set {found : Entry α} (h : entry? (tree.set location entry) other = some found) :
    (other = location ∧ found = entry) ∨ tree.entry? other = some found := by
  by_cases hother : other = location
  · by_cases hroot : location = []
    · subst hother hroot
      exact .inr h
    · subst hother
      rw [entry_set_self hroot] at h
      exact .inl ⟨rfl, (Option.some.inj h).symm⟩
  · exact .inr (entry_set_ne hother ▸ h)

theorem entry_of_erase {found : Entry α} (h : entry? (tree.erase location) other = some found) :
    tree.entry? other = some found := by
  by_cases hother : other = location
  · by_cases hroot : location = []
    · subst hother hroot
      exact h
    · subst hother
      rw [entry_erase_self hroot] at h
      cases h
  · exact entry_erase_ne hother ▸ h

/-! ## Paths -/

/-- A walk ends at what its last location holds, if that is so of walks behind links. -/
theorem walk_found {follow : List Name → Location → Except Fault (Place α)}
    (hfollow : ∀ parts start, follow parts start = .ok (.found location entry) →
      tree.entry? location = some entry)
    {parts : List Name} {start : Location}
    (h : tree.walk follow parts start = .ok (.found location entry)) :
    tree.entry? location = some entry := by
  fun_induction walk with
  | case1 _ _ hentry =>
    cases h
    exact hentry
  | case3 _ _ _ _ _ ih | case4 _ _ _ _ ih | case9 _ _ _ _ _ _ _ _ _ _ ih => exact ih h
  | case8 => exact hfollow _ _ h
  | case2 | case5 | case6 | case7 | case10 | case11 => cases h

variable {path : String} {content : α}

/-- A path that leads somewhere is not too long, not empty and without a nul, so it is walked along
in any tree. -/
theorem find_eq_walk {place : Place α} (h : tree.find path = .ok place) (next : FileTree α) :
    next.find path = next.walkThrough (linkLimit + 1) (Files.names path)
      (if isAbsolute path then [] else next.current) := by
  rw [find, follow] at h ⊢
  grind

theorem find_found (h : tree.find path = .ok (.found location entry)) :
    tree.entry? location = some entry := by
  have hwalk (links : Nat) (parts : List Name) (start : Location)
      (hfound : tree.walkThrough links parts start = .ok (.found location entry)) :
      tree.entry? location = some entry := by
    induction links generalizing parts start with
    | zero => cases hfound
    | succ links ih => exact walk_found ih hfound
  rw [find_eq_walk h] at h
  exact hwalk _ _ _ h

/-! ## Files -/

theorem file_of_remove (h : tree.remove path = .ok next)
    (hfile : next.entry? location = some (.file content)) :
    tree.entry? location = some (.file content) := by
  rw [remove] at h
  split at h <;> cases h
  exact entry_of_erase hfile

theorem locate_found (h : tree.locate path = .ok (.found location entry)) :
    tree.entry? location = some entry := by
  rw [locate] at h
  split at h
  · next found target hlast =>
    split at h <;> cases h
    rw [lastLink?] at hlast
    split at hlast
    · split at hlast <;> cases hlast
      assumption
    · cases hlast
  · exact find_found h

theorem file_of_rename {source target : String} (h : tree.rename source target = .ok next)
    (hfile : next.entry? location = some (.file content)) :
    ∃ old, tree.entry? old = some (.file content) := by
  have hmoved {from_ place : Location} {moved : Entry α} (hfrom : tree.entry? from_ = some moved)
      (hentry : entry? ((tree.erase from_).set place moved) location = some (.file content)) :
      ∃ old, tree.entry? old = some (.file content) := by
    rcases entry_of_set hentry with ⟨_, rfl⟩ | hold
    · exact ⟨from_, hfrom⟩
    · exact ⟨location, entry_of_erase hold⟩
  rw [rename] at h
  split at h
  · cases h
  · cases h
  · next hsource =>
    split at h <;> cases h
    · exact hmoved (locate_found hsource) hfile
    · exact hmoved (locate_found hsource) hfile

theorem file_of_make_directory (h : tree.makeDirectory path = .ok next)
    (hfile : next.entry? location = some (.file content)) :
    tree.entry? location = some (.file content) := by
  rw [makeDirectory] at h
  split at h <;> cases h
  rcases entry_of_set hfile with ⟨_, heq⟩ | hold
  · cases heq
  · exact hold

theorem file_of_make_directories_within {levels : Nat}
    (h : tree.makeDirectoriesWithin levels path = .ok next)
    (hfile : next.entry? location = some (.file content)) :
    tree.entry? location = some (.file content) := by
  fun_induction makeDirectoriesWithin tree levels path generalizing next with
  | case1 | case9 =>
    cases h
    exact hfile
  | case2 _ _ _ made hmade =>
    cases h
    exact file_of_make_directory hmade hfile
  | case6 path _ _ levels above _ upper hupper made hmade ih =>
    -- the directory above is made first, and then the directory itself
    cases h
    exact ih hupper (file_of_make_directory hmade hfile)
  | case7 path _ _ levels above _ upper hupper _ _ _ ih =>
    cases h
    exact ih hupper hfile
  | case3 | case4 | case5 | case8 | case10 => cases h

theorem file_of_make_directories (h : tree.makeDirectories path = .ok next)
    (hfile : next.entry? location = some (.file content)) :
    tree.entry? location = some (.file content) :=
  file_of_make_directories_within h hfile

end FileTree

end CodeAtlas.Files
