import CodeAtlas.Proofs.Files.Entries
import CodeAtlas.Proofs.Text.Utf8

/-!
# Where paths aim

The location that a path names depends on the links on the way, and there is none if a name before
the last is that of a file. `FileTree.aim?` does without the second condition: it is where a path
leads if it leads anywhere (`aim_of_named`), and stays the same as long as the links do
(`SameLinks.aim`), whatever becomes of files.
-/

namespace CodeAtlas.Files

theorem octets_of_octets (bytes : Bytes) : (Name.ofOctets bytes).octets = bytes := by
  rw [Name.ofOctets]
  cases hread : text? bytes with
  | none => rfl
  | some text => exact text_eq_some_iff.mp hread

def Entry.cleared {α : Type} : Entry α → Entry α
  | .file _ => .directory
  | entry => entry

namespace FileTree

variable {α : Type} {tree next last : FileTree α} {location : Location} {content : α}

def link? (tree : FileTree α) (location : Location) : Option String :=
  match tree.entry? location with
  | some (.link target) => some target
  | _ => none

/-- Two trees with the same links and the same working directory. -/
structure SameLinks (tree next : FileTree α) : Prop where
  current : next.current = tree.current
  link : ∀ location, next.link? location = tree.link? location

namespace SameLinks

theorem refl (tree : FileTree α) : tree.SameLinks tree := ⟨rfl, fun _ => rfl⟩

theorem trans (h : tree.SameLinks next) (hlast : next.SameLinks last) : tree.SameLinks last :=
  ⟨hlast.current.trans h.current, fun location => (hlast.link location).trans (h.link location)⟩

end SameLinks

theorem same_links_set (h : tree.link? location = none) :
    tree.SameLinks (tree.set location (.file content)) := by
  refine ⟨rfl, fun other => ?_⟩
  by_cases hother : other = location
  · subst hother
    rw [h, link?]
    split
    · next target hentry =>
      rcases entry_of_set hentry with ⟨_, heq⟩ | hold
      · cases heq
      · rw [link?, hold] at h
        cases h
    · rfl
  · rw [link?, link?, entry_set_ne hother]

theorem same_links_erase (h : tree.entry? location = some (.file content)) :
    tree.SameLinks (tree.erase location) := by
  refine ⟨rfl, fun other => ?_⟩
  by_cases hother : other = location
  · subst hother
    have hroot : other ≠ [] := by
      rintro rfl
      cases h
    rw [link?, link?, entry_erase_self hroot, h]
  · rw [link?, link?, entry_erase_ne hother]

/-! ## Paths in trees without files -/

/-- A tree with directories in the place of files. -/
def cleared (tree : FileTree α) : FileTree α :=
  { tree with entries := tree.entries.map fun (location, entry) => (location, entry.cleared) }

/-- The location that a path names, if no file were in its way. -/
def aim? (tree : FileTree α) (path : Bytes) : Option Location := tree.cleared.named? path

theorem entry_cleared (tree : FileTree α) (location : Location) :
    tree.cleared.entry? location = (tree.entry? location).map Entry.cleared := by
  rw [ entry?, entry?]
  split
  · rfl
  · exact lookup_map_value tree.entries fun _ entry => entry.cleared

/-- Where no files are, only links matter to the way behind a name. -/
theorem resolve_cleared_cons (tree : FileTree α) (follow : List Name → Location → Option Location)
    (piece : Name) (rest : List Name) (location : Location) :
    tree.cleared.resolve follow (piece :: rest) location =
      if piece = "" ∨ piece = "." then tree.cleared.resolve follow rest location
      else if piece = ".." then tree.cleared.resolve follow rest location.dropLast
      else if nameLimit < piece.octets.length then none
      else
        match tree.link? (location ++ [piece]) with
        | some target =>
          follow (Files.names target ++ rest) (if isAbsolute target then [] else location)
        | none => tree.cleared.resolve follow rest (location ++ [piece]) := by
  rw [resolve, link?, entry_cleared, entry_cleared]
  rcases tree.entry? location with _ | (_ | _ | _) <;>
    rcases tree.entry? (location ++ [piece]) with _ | (_ | _ | _) <;> rfl

/-- Trees with the same links lead along the same ways. -/
theorem SameLinks.resolve (h : tree.SameLinks next)
    (follow : List Name → Location → Option Location) (parts : List Name) (start : Location) :
    next.cleared.resolve follow parts start = tree.cleared.resolve follow parts start := by
  induction parts generalizing start with
  | nil => rfl
  | cons piece rest ih =>
    rw [resolve_cleared_cons, resolve_cleared_cons, h.link, ih, ih, ih]

theorem SameLinks.aim (h : tree.SameLinks next) (path : Bytes) :
    next.aim? path = tree.aim? path := by
  have hthrough (links : Nat) :
      next.cleared.resolveThrough links = tree.cleared.resolveThrough links := by
    induction links with
    | zero => rfl
    | succ links ih =>
      funext parts start
      rw [resolveThrough, resolveThrough, ih]
      exact h.resolve _ parts start
  rw [aim?, aim?, named?, named?, hthrough]
  change FileTree.resolveThrough _ _ _ (if _ then [] else next.current) = _
  rw [h.current]
  rfl

/-- A way that leads somewhere leads there without files, too. -/
theorem resolve_cleared {follow through : List Name → Location → Option Location}
    (hfollow : ∀ parts start found, follow parts start = some found →
      through parts start = some found)
    {parts : List Name} {start found : Location}
    (h : tree.resolve follow parts start = some found) :
    tree.cleared.resolve through parts start = some found := by
  fun_induction tree.resolve follow parts start with
  | case1 => exact h
  | case2 _ _ _ hdot ih =>
    rw [resolve_cleared_cons, if_pos hdot]
    exact ih h
  | case3 _ _ hdot ih =>
    rw [resolve_cleared_cons, if_neg hdot, if_pos rfl]
    exact ih h
  | case4 | case5 => cases h
  | case6 _ _ _ hdot hdots hlong _ hlink =>
    rw [resolve_cleared_cons, if_neg hdot, if_neg hdots, if_neg hlong, link?, hlink]
    exact hfollow _ _ _ h
  | case7 _ _ _ hdot hdots hlong _ hlink ih =>
    rw [resolve_cleared_cons, if_neg hdot, if_neg hdots, if_neg hlong, link?]
    split
    · next htarget =>
      split at htarget
      · next hentry => exact absurd hentry (hlink _)
      · cases htarget
    · exact ih h

theorem aim_of_named {path : Bytes} (h : tree.named? path = some location) :
    tree.aim? path = some location := by
  have hthrough (links : Nat) (parts : List Name) (start found : Location)
      (hfound : tree.resolveThrough links parts start = some found) :
      tree.cleared.resolveThrough links parts start = some found := by
    induction links generalizing parts start found with
    | zero => exact hfound
    | succ links ih => exact resolve_cleared ih hfound
  exact hthrough _ _ _ _ h

end FileTree

end CodeAtlas.Files
