import CodeAtlas.Proofs.Files.Links

/-!
# Where paths of text lead

A path is a text to those who move and remove files, and octets to those who keep a database in one.
Both cut it into the same names (`split_octets`), so a path that leads somewhere leads to where it
aims (`find_aims`). It leads there still when files have come and gone (`find_file`). With a suffix
it leads to something whose name has that suffix (`find_suffix`).
-/

namespace CodeAtlas

/-! ## Cutting -/

section CutAt

variable {α : Type} [DecidableEq α] {mark : α}

theorem cut_at_ne_nil (mark : α) (items : List α) : cutAt mark items ≠ [] := by
  cases items with
  | nil => exact List.cons_ne_nil _ _
  | cons first rest =>
    rw [cutAt]
    split
    · split <;> exact List.cons_ne_nil _ _
    · exact List.cons_ne_nil _ _

theorem cut_at_mark (mark : α) (rest : List α) :
    cutAt mark (mark :: rest) = [] :: cutAt mark rest := by
  rw [cutAt]
  split
  · next heq => rw [if_pos rfl, heq]
  · next heq => exact absurd heq (cut_at_ne_nil mark rest)

theorem cut_at_append {items : List α} (h : mark ∉ items) (rest : List α) :
    cutAt mark (items ++ rest) = (cutAt mark rest).modifyHead (items ++ ·) := by
  induction items with
  | nil =>
    rw [List.nil_append]
    cases cutAt mark rest <;> rfl
  | cons first items ih =>
    rw [List.mem_cons, not_or] at h
    rw [List.cons_append, cutAt, ih h.2]
    cases hrest : cutAt mark rest with
    | nil => exact absurd hrest (cut_at_ne_nil mark rest)
    | cons piece pieces => exact if_neg (Ne.symm h.1)

/-- What has no mark in it goes to the last piece of what is before it. -/
theorem cut_at_suffix {more : List α} (h : mark ∉ more) (items : List α) :
    ∃ pieces last, cutAt mark items = pieces ++ [last] ∧
      cutAt mark (items ++ more) = pieces ++ [last ++ more] := by
  induction items with
  | nil =>
    have hwhole := cut_at_append h []
    rw [List.append_nil] at hwhole
    exact ⟨[], [], rfl, hwhole.trans (by rw [cutAt, List.modifyHead_cons, List.append_nil]; rfl)⟩
  | cons first items ih =>
    obtain ⟨pieces, last, hitems, hmore⟩ := ih
    by_cases hfirst : first = mark
    · subst hfirst
      refine ⟨[] :: pieces, last, ?_, ?_⟩
      · rw [cut_at_mark, hitems, List.cons_append]
      · rw [List.cons_append, cut_at_mark, hmore, List.cons_append]
    · have hnot : mark ∉ [first] := by simpa using Ne.symm hfirst
      have hcut (rest : List α) :
          cutAt mark (first :: rest) = (cutAt mark rest).modifyHead (first :: ·) :=
        cut_at_append hnot rest
      rw [hcut, hitems, List.cons_append, hcut, hmore]
      cases pieces with
      | nil => exact ⟨[], first :: last, rfl, rfl⟩
      | cons piece pieces => exact ⟨(first :: piece) :: pieces, last, rfl, rfl⟩

end CutAt

namespace Files

open Utf8 (encode encodeChar)

theorem eq_slash_of_mem {c : Char} (h : Name.slash ∈ encodeChar c) : c = '/' :=
  Utf8.eq_of_mem_encode_char (show ('/').toNat < 0x80 by decide) h

theorem cut_at_encode (text : List Char) :
    cutAt Name.slash (encode text) = (cutAt '/' text).map encode := by
  induction text with
  | nil => rfl
  | cons c rest ih =>
    rw [encode, List.flatMap_cons]
    change cutAt Name.slash (encodeChar c ++ encode rest) = _
    by_cases hc : c = '/'
    · subst hc
      rw [cut_at_mark '/', List.map_cons, ← ih]
      exact cut_at_mark Name.slash (encode rest)
    · rw [cut_at_append fun hmem => hc (eq_slash_of_mem hmem), ih, cutAt]
      cases hrest : cutAt '/' rest with
      | nil => exact absurd hrest (cut_at_ne_nil '/' rest)
      | cons piece pieces =>
        dsimp only
        rw [if_neg hc]
        rfl

/-- The names of a path do not depend on whether it is taken as text or as octets. -/
theorem split_octets (path : String) : Name.split (octets path) = names path := by
  have hname (piece : List Char) : Name.ofOctets (encode piece) = .text (String.ofList piece) := by
    rw [Name.ofOctets, text?, Utf8.decode_encode]
    rfl
  rw [Name.split, octets, cut_at_encode, List.map_map, names, pieces, List.map_map]
  exact List.map_congr_left fun piece _ => hname piece

theorem head_octets (path : String) :
    (octets path).head? = some Name.slash ↔ isAbsolute path = true := by
  rw [octets, isAbsolute]
  cases path.toList with
  | nil => decide
  | cons c rest =>
    have hhead : (encode (c :: rest)).head? = (encodeChar c).head? := by
      rw [encode, List.flatMap_cons]
      fun_cases encodeChar <;> rfl
    rw [hhead]
    constructor
    · intro h
      rw [eq_slash_of_mem (List.mem_of_head? h)]
      rfl
    · intro h
      rw [show c = '/' from by simpa using h]
      rfl

theorem append_text (name suffix : String) :
    (Name.text name).append suffix = .text (name ++ suffix) := by
  rw [Name.append, Name.octets, ← octets_append, Name.ofOctets, text_eq_some_iff.mpr rfl]
  rfl

theorem append_ne_append {suffix other : String} (last : UInt8)
    (h : (octets suffix).getLast? = some last) (hother : (octets other).getLast? ≠ some last)
    (hempty : octets other ≠ []) (first second : Name) :
    first.append suffix ≠ second.append other := by
  intro heq
  have hlast : (first.append suffix).octets.getLast? = (second.append other).octets.getLast? := by
    rw [heq]
  have hsome : (octets other).getLast? = some ((octets other).getLast hempty) :=
    List.getLast?_eq_some_getLast hempty
  rw [Name.append, Name.append, octets_of_octets, octets_of_octets, List.getLast?_append,
    List.getLast?_append, h, hsome] at hlast
  exact hother (hsome.trans hlast.symm)

/-- A suffix without a slash goes to the last name of a path. -/
theorem names_append {suffix : String} (h : '/' ∉ suffix.toList) (path : String) :
    ∃ before name, names path = before ++ [.text name] ∧
      names (path ++ suffix) = before ++ [(Name.text name).append suffix] := by
  obtain ⟨pieces, last, hpath, hmore⟩ := cut_at_suffix h path.toList
  refine ⟨pieces.map fun piece => .text (String.ofList piece), String.ofList last, ?_, ?_⟩
  · rw [names, Files.pieces, hpath, List.map_append, List.map_append, List.map_map]
    rfl
  · rw [names, Files.pieces, String.toList_append, hmore, append_text, List.map_append,
      List.map_append, List.map_map, List.map_singleton, List.map_singleton, String.ofList_append,
      String.ofList_toList]
    rfl

/-! ## Finding -/

def Place.location {α : Type} : Place α → Location
  | .found location _ => location
  | .missing location _ => location

namespace FileTree

variable {α : Type} {tree : FileTree α} {place : Place α}
  {follow : List Name → Location → Except Fault (Place α)} {parts : List Name} {entry : Entry α}
  {path : String}

theorem resolve_empty (follow : List Name → Location → Option Location)
    (h : parts.all (· = "") = true) (start : Location) :
    tree.resolve follow parts start = some start := by
  induction parts with
  | nil => rfl
  | cons piece rest ih =>
    rw [List.all_cons, Bool.and_eq_true] at h
    rw [resolve, if_pos (.inl (of_decide_eq_true h.1))]
    exact ih h.2

/-- A walk that ends somewhere ends where its names lead without files. -/
theorem walk_aims {through : List Name → Location → Option Location}
    (hfollow : ∀ parts start, follow parts start = .ok place →
      through parts start = some place.location)
    {start : Location} (h : tree.walk follow parts start = .ok place) :
    tree.cleared.resolve through parts start = some place.location := by
  fun_induction tree.walk follow parts start with
  | case1 =>
    cases h
    rfl
  | case3 _ _ _ _ hdot ih =>
    rw [resolve_cleared_cons, if_pos hdot]
    exact ih h
  | case4 _ _ _ hdot ih =>
    rw [resolve_cleared_cons, if_neg hdot, if_pos rfl]
    exact ih h
  | case6 _ _ _ _ hdot hdots hshort hnone hempty =>
    cases h
    rw [resolve_cleared_cons, if_neg hdot, if_neg hdots, if_neg hshort, link?, hnone]
    exact resolve_empty through hempty _
  | case8 _ _ _ _ hdot hdots hshort _ hlink =>
    rw [resolve_cleared_cons, if_neg hdot, if_neg hdots, if_neg hshort, link?, hlink]
    exact hfollow _ _ h
  | case9 _ _ _ _ hdot hdots hshort found hlink hfound ih =>
    rw [resolve_cleared_cons, if_neg hdot, if_neg hdots, if_neg hshort, link?, hfound]
    cases found with
    | link target => exact absurd rfl (hlink target)
    | directory | file => exact ih h
  | case2 | case5 | case7 | case10 | case11 => cases h

/-- A path that leads somewhere, or to where something could be made, aims there. -/
theorem find_aims (h : tree.find path = .ok place) :
    tree.aim? (octets path) = some place.location := by
  have hthrough (links : Nat) (parts : List Name) (start : Location)
      (hwalk : tree.walkThrough links parts start = .ok place) :
      tree.cleared.resolveThrough links parts start = some place.location := by
    induction links generalizing parts start with
    | zero => cases hwalk
    | succ links ih => exact walk_aims ih hwalk
  rw [find_eq_walk h] at h
  rw [aim?, named?, split_octets]
  simp only [head_octets]
  exact hthrough _ _ _ h

/-! ## Trees that differ in files -/

/-- What is at a location if it is no file: a directory, or a link to a target. -/
def shape? (tree : FileTree α) (location : Location) : Option (Option String) :=
  match tree.entry? location with
  | some .directory => some none
  | some (.link target) => some (some target)
  | _ => none

/-- Two trees that differ in files only. -/
structure SameShape (tree next : FileTree α) : Prop where
  current : next.current = tree.current
  shape : ∀ location, next.shape? location = tree.shape? location

variable {next last : FileTree α} {location : Location} {content : α}

namespace SameShape

theorem refl (tree : FileTree α) : tree.SameShape tree := ⟨rfl, fun _ => rfl⟩

theorem symm (h : tree.SameShape next) : next.SameShape tree :=
  ⟨h.current.symm, fun location => (h.shape location).symm⟩

theorem trans (h : tree.SameShape next) (hlast : next.SameShape last) : tree.SameShape last :=
  ⟨hlast.current.trans h.current, fun location => (hlast.shape location).trans (h.shape location)⟩

theorem sameLinks (h : tree.SameShape next) : tree.SameLinks next := by
  have hlink (tree : FileTree α) (location : Location) :
      tree.link? location = (tree.shape? location).bind id := by
    unfold link? shape?
    rcases tree.entry? location with _ | (_ | _ | _) <;> rfl
  exact ⟨h.current, fun location => by rw [hlink, hlink, h.shape]⟩

theorem directory (h : tree.SameShape next) (hentry : tree.entry? location = some .directory) :
    next.entry? location = some .directory := by
  have hshape := h.shape location
  unfold shape? at hshape
  rw [hentry] at hshape
  split at hshape
  · next heq => exact heq
  · cases hshape
  · cases hshape

end SameShape

theorem same_shape_set (h : tree.shape? location = none) :
    tree.SameShape (tree.set location (.file content)) := by
  refine ⟨rfl, fun other => ?_⟩
  by_cases hother : other = location
  · subst hother
    have hroot : other ≠ [] := by
      rintro rfl
      cases h
    rw [h, shape?, entry_set_self hroot]
  · rw [shape?, shape?, entry_set_ne hother]

theorem same_shape_erase (h : tree.shape? location = none) :
    tree.SameShape (tree.erase location) := by
  refine ⟨rfl, fun other => ?_⟩
  by_cases hother : other = location
  · subst hother
    have hroot : other ≠ [] := by
      rintro rfl
      cases h
    rw [h, shape?, entry_erase_self hroot]
  · rw [shape?, shape?, entry_erase_ne hother]

theorem shape_of_file (h : tree.entry? location = some (.file content)) :
    tree.shape? location = none := by
  rw [shape?, h]

/-- A walk leads to the file that is where it led before, if it did not end in a slash. -/
theorem walk_file {through : List Name → Location → Except Fault (Place α)}
    (hshape : tree.SameShape next) (hfile : next.entry? place.location = some (.file content))
    (hslash : ∀ missed, place ≠ .missing missed true)
    (hfollow : ∀ parts start, follow parts start = .ok place →
      through parts start = .ok (.found place.location (.file content)))
    {start : Location} (h : tree.walk follow parts start = .ok place) :
    next.walk through parts start = .ok (.found place.location (.file content)) := by
  have hend {location : Location} (hlocation : place.location = location) :
      next.walk through [] location = .ok (.found place.location (.file content)) := by
    rw [walk, ← hlocation, hfile]
  fun_induction tree.walk follow parts start with
  | case1 =>
    cases h
    exact hend rfl
  | case3 _ _ _ hentry hdot ih =>
    simp only [walk, hshape.directory hentry, if_pos hdot]
    exact ih h
  | case4 _ _ hentry hdot ih =>
    simp only [walk, hshape.directory hentry, if_neg hdot, if_true]
    exact ih h
  | case6 _ rest _ hentry hdot hdots hshort =>
    -- nothing was there, so the file is new and the last on the way
    cases h
    have hrest : rest = [] := by
      cases rest with
      | nil => rfl
      | cons => exact absurd rfl (hslash _)
    subst hrest
    change next.entry? (_ ++ [_]) = _ at hfile
    simp only [walk, hshape.directory hentry, if_neg hdot, if_neg hdots, if_neg hshort, hfile]
    rfl
  | case8 piece rest location hentry hdot hdots hshort target hlink =>
    have hsame := hshape.sameLinks.link (location ++ [piece])
    rw [link?, link?, hlink] at hsame
    split at hsame <;> cases hsame
    next heq =>
    simp only [walk, hshape.directory hentry, if_neg hdot, if_neg hdots, if_neg hshort, heq]
    exact hfollow _ _ h
  | case9 piece rest location hentry hdot hdots hshort found hlink hfound ih =>
    cases found with
    | link target => exact absurd rfl (hlink target)
    | directory =>
      simp only [walk, hshape.directory hentry, if_neg hdot, if_neg hdots, if_neg hshort,
        hshape.directory hfound]
      exact ih h
    | file old =>
      -- there is no way behind a file
      cases rest <;> rw [walk, hfound] at h <;> cases h
      change next.entry? (_ ++ [_]) = _ at hfile
      simp only [walk, hshape.directory hentry, if_neg hdot, if_neg hdots, if_neg hshort, hfile]
      rfl
  | case2 | case5 | case7 | case10 | case11 => cases h

/-- A path leads to the file that is where it led before, however the files were changed. -/
theorem find_file (h : tree.find path = .ok place) (hshape : tree.SameShape next)
    (hfile : next.entry? place.location = some (.file content))
    (hslash : ∀ missed, place ≠ .missing missed true) :
    next.find path = .ok (.found place.location (.file content)) := by
  have hthrough (links : Nat) (parts : List Name) (start : Location)
      (hwalk : tree.walkThrough links parts start = .ok place) :
      next.walkThrough links parts start = .ok (.found place.location (.file content)) := by
    induction links generalizing parts start with
    | zero => cases hwalk
    | succ links ih => exact walk_file hshape hfile hslash ih hwalk
  rw [find_eq_walk h, hshape.current]
  rw [find_eq_walk h] at h
  exact hthrough _ _ _ h

theorem find_again {location : Location} (h : tree.find path = .ok (.found location entry))
    (hshape : tree.SameShape next) (hfile : next.entry? location = some (.file content)) :
    next.find path = .ok (.found location (.file content)) :=
  find_file h hshape hfile fun _ heq => by cases heq

/-! ## Paths with a suffix -/

/-- Whether no link has the last name of a path. -/
def IsPlain (tree : FileTree α) (path : String) : Prop :=
  ∀ name ∈ (Files.names path).getLast?, ∀ directory, tree.link? (directory ++ [name]) = none

theorem locate_eq_find (h : tree.IsPlain path) : tree.locate path = tree.find path := by
  have hnone : tree.lastLink? path = none := by
    rw [lastLink?]
    split
    · next directory name _ hname =>
      split
      · next hentry =>
        have hlink := h name hname directory
        rw [link?, hentry] at hlink
        cases hlink
      · rfl
    · rfl
  rw [locate, hnone]

/-- A place of a name: what is there and no link, or where something of that name could be made. -/
inductive IsNamed (tree : FileTree α) (name : Name) : Place α → Prop where
  | found {directory : Location} {entry : Entry α}
    (hentry : tree.entry? (directory ++ [name]) = some entry)
    (hlink : tree.link? (directory ++ [name]) = none) :
    IsNamed tree name (.found (directory ++ [name]) entry)
  | missing {directory : Location} (hentry : tree.entry? (directory ++ [name]) = none) :
    IsNamed tree name (.missing (directory ++ [name]) false)

section Suffix

variable {name : Name} {parts : List Name} {start : Location}

/-- One name from a directory leads to something of that name, if that is no link. -/
theorem walk_one (hname : name ≠ "" ∧ name ≠ "." ∧ name ≠ "..")
    (hlinks : ∀ directory, tree.link? (directory ++ [name]) = none)
    (hstart : tree.entry? start = some .directory) :
    tree.walk follow [name] start = .error .nameTooLong ∨
      ∃ place, tree.walk follow [name] start = .ok place ∧ tree.IsNamed name place := by
  rw [walk, hstart]
  dsimp only
  rw [if_neg (not_or.mpr ⟨hname.1, hname.2.1⟩), if_neg hname.2.2]
  split
  · exact .inl rfl
  · right
    split
    · next hentry => exact ⟨_, rfl, .missing hentry⟩
    · next hlink =>
      have hnone := hlinks start
      rw [link?, hlink] at hnone
      cases hnone
    · next hentry =>
      rw [walk, hentry]
      exact ⟨_, rfl, .found hentry (hlinks start)⟩

theorem walk_starts {piece : Name} (h : tree.walk follow (piece :: parts) start = .ok place) :
    tree.entry? start = some .directory := by
  rw [walk] at h
  split at h
  · assumption
  · cases h
  · cases h

/-- A walk whose last name is neither a dot nor that of a link ends at something of that name. -/
theorem walk_named (hname : name ≠ "" ∧ name ≠ "." ∧ name ≠ "..")
    (hlinks : ∀ directory, tree.link? (directory ++ [name]) = none)
    (hfollow : ∀ parts start, follow (parts ++ [name]) start = .ok place → tree.IsNamed name place)
    (h : tree.walk follow (parts ++ [name]) start = .ok place) : tree.IsNamed name place := by
  induction parts generalizing start with
  | nil =>
    rcases walk_one hname hlinks (walk_starts h) with hlong | ⟨found, hfound, hnamed⟩
    · cases h.symm.trans hlong
    · cases h.symm.trans hfound
      exact hnamed
  | cons piece rest ih =>
    rw [List.cons_append, walk] at h
    repeat' split at h
    any_goals first | exact ih h | cases h
    · next hall =>
      -- the last name is not empty, so something is missing on the way
      rw [List.all_append, Bool.and_eq_true, List.all_cons, Bool.and_eq_true] at hall
      exact absurd (of_decide_eq_true hall.2.1) hname.1
    all_goals
      rw [← List.append_assoc] at h
      exact hfollow _ _ h

/-- Where a walk leads to something, nothing is missing on the way to another last name. -/
theorem walk_reaches {other : Name} {found : Location}
    (hname : name ≠ "" ∧ name ≠ "." ∧ name ≠ "..")
    (hlinks : ∀ directory, tree.link? (directory ++ [name]) = none)
    (hfollow : ∀ parts start, follow (parts ++ [other]) start = .ok (.found found entry) →
      follow (parts ++ [name]) start ≠ .error .notFound)
    (h : tree.walk follow (parts ++ [other]) start = .ok (.found found entry)) :
    tree.walk follow (parts ++ [name]) start ≠ .error .notFound := by
  induction parts generalizing start with
  | nil =>
    rcases walk_one hname hlinks (walk_starts h) with hlong | ⟨place, hplace, _⟩
    · exact fun heq => by cases heq.symm.trans hlong
    · exact fun heq => by cases heq.symm.trans hplace
  | cons piece rest ih =>
    rw [List.cons_append, walk] at h ⊢
    simp only [← List.append_assoc] at h ⊢
    grind

variable {path suffix : String}

/-- What a suffix must be like to make a name of its own: long enough not to make a dot, and without
a slash. -/
structure IsSuffix (suffix : String) : Prop where
  slash : '/' ∉ suffix.toList
  long : 2 < suffix.length

theorem IsSuffix.name_ne (h : IsSuffix suffix) (name : String) :
    (Name.text name).append suffix ≠ "" ∧ (Name.text name).append suffix ≠ "." ∧
      (Name.text name).append suffix ≠ ".." := by
  have hlength : 2 < (name ++ suffix).length := by
    have hlong := h.long
    rw [String.length_append]
    omega
  rw [append_text]
  refine ⟨?_, ?_, ?_⟩ <;>
  · intro heq
    rw [Name.text.inj heq] at hlength
    exact absurd hlength (by decide)

/-- A path with a suffix leads to something whose name has that suffix, if that is no link. -/
theorem find_suffix (hsuffix : IsSuffix suffix) (hplain : tree.IsPlain (path ++ suffix))
    (h : tree.find (path ++ suffix) = .ok place) :
    ∃ name, tree.IsNamed ((Name.text name).append suffix) place := by
  obtain ⟨before, name, _, hnames⟩ := names_append hsuffix.slash path
  have hlinks := hplain _ (hnames ▸ List.getLast?_concat)
  refine ⟨name, ?_⟩
  have hthrough (links : Nat) (parts : List Name) (start : Location)
      (hwalk : tree.walkThrough links (parts ++ [(Name.text name).append suffix]) start =
        .ok place) : tree.IsNamed ((Name.text name).append suffix) place := by
    induction links generalizing parts start with
    | zero => cases hwalk
    | succ links ih =>
      exact walk_named (hsuffix.name_ne name) hlinks ih hwalk
  rw [find_eq_walk h, hnames] at h
  exact hthrough _ _ _ h

/-- Where a path leads to something, its directory is there for the path with a suffix. -/
theorem find_suffix_reaches {found : Location} (hsuffix : IsSuffix suffix)
    (hplain : tree.IsPlain (path ++ suffix)) (h : tree.find path = .ok (.found found entry)) :
    tree.find (path ++ suffix) ≠ .error .notFound := by
  obtain ⟨before, name, hnames, hmore⟩ := names_append hsuffix.slash path
  have hlinks := hplain _ (hmore ▸ List.getLast?_concat)
  have hthrough (links : Nat) (parts : List Name) (start : Location)
      (hwalk : tree.walkThrough links (parts ++ [.text name]) start = .ok (.found found entry)) :
      tree.walkThrough links (parts ++ [(Name.text name).append suffix]) start ≠
        .error .notFound := by
    induction links generalizing parts start with
    | zero => cases hwalk
    | succ links ih =>
      exact walk_reaches (hsuffix.name_ne name) hlinks ih hwalk
  have hempty : path ≠ "" := by
    rintro rfl
    cases h
  have habsolute : isAbsolute (path ++ suffix) = isAbsolute path := by
    rw [isAbsolute, isAbsolute, String.toList_append, List.head?_append]
    cases hhead : path.toList with
    | nil => exact absurd (String.toList_eq_nil_iff.mp hhead) hempty
    | cons => rfl
  rw [find_eq_walk h, hnames] at h
  rw [find, follow, hmore, habsolute,
    if_neg fun hnone => hempty (String.append_eq_empty_iff.mp hnone).1]
  intro hmissing
  split at hmissing
  · cases hmissing
  · split at hmissing
    · cases hmissing
    · exact hthrough _ _ _ h hmissing

end Suffix

end FileTree

end Files

end CodeAtlas
