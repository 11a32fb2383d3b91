import CodeAtlas.Proofs.Text.Utf8
import CodeAtlas.Uri.File

/-!
# What the URI of a file says

A path is encoded octet by octet and reads back as it was, since percent signs are encoded too
(`unescape_escape`), so the URI of a file names one path only, and nothing of it is taken for a query
or a fragment (`uri_names_path`). Of the octets that are not encoded, all but the backslash may
stand in the path of a URI (`path_text_escape_iff`): a file has a URI exactly if no name on its path
has a backslash (`path_has_uri_iff`).
-/

namespace CodeAtlas

/-- Octets below 0x80 are a text. -/
theorem text_of_ascii {bytes : Bytes} (h : ∀ octet ∈ bytes, octet < 0x80) :
    ∃ text, octets text = bytes := by
  induction bytes with
  | nil => exact ⟨"", rfl⟩
  | cons octet rest ih =>
    obtain ⟨hoctet, hrest⟩ := List.forall_mem_cons.mp h
    obtain ⟨text, rfl⟩ := ih hrest
    have hlow : octet.toNat < 0x80 := hoctet
    have hvalue : (Char.ofNat octet.toNat).toNat = octet.toNat := by
      rw [Char.toNat_ofNat, if_pos (.inl (by omega))]
    refine ⟨String.singleton (Char.ofNat octet.toNat) ++ text, ?_⟩
    rw [octets_append, octets, String.toList_singleton, Utf8.encode_cons,
      Utf8.encode_char_ascii (by omega), hvalue]
    simp [Utf8.encode]

/-- Octets below 0x80 stand for characters of their own. -/
theorem mem_octets_iff {c : Char} (h : c.toNat < 0x80) {text : String} :
    c.toNat.toUInt8 ∈ octets text ↔ c ∈ text.toList := by
  rw [octets, Utf8.encode, List.mem_flatMap]
  constructor
  · rintro ⟨d, hd, hmem⟩
    rwa [← Utf8.eq_of_mem_encode_char h hmem]
  · intro hmem
    exact ⟨c, hmem, by simp [Utf8.encode_char_ascii h]⟩

namespace Uri

open Files (FileTree)

variable {keep : UInt8 → Bool} {bytes : Bytes} {octet : UInt8}

/-! ## Escapes -/

theorem hex_digit_read {n : Nat} (h : n < 16) : Json.hexDigit? (hexDigit n) = some n := by
  revert n
  decide

theorem unescape_escape_octet (octet : UInt8) (rest : Bytes) :
    unescape (escapeOctet octet ++ rest) = octet :: unescape rest := by
  have hoctet := octet.toNat_lt
  have hhigh := hex_digit_read (show octet.toNat / 16 < 16 by omega)
  have hlow := hex_digit_read (show octet.toNat % 16 < 16 by omega)
  have hvalue : octet.toNat / 16 * 16 + octet.toNat % 16 = octet.toNat := by omega
  change unescape (0x25 :: _ :: _ :: rest) = _
  rw [unescape.eq_2]
  simp [hhigh, hlow, hvalue]

/-- What is encoded reads back, if percent signs are encoded. -/
theorem unescape_escape (h : keep percentSign = false) (bytes : Bytes) :
    unescape (escape keep bytes) = bytes := by
  induction bytes with
  | nil => rfl
  | cons octet rest ih =>
    rw [escape]
    split
    next hkeep =>
      rw [unescape.eq_3, ih]
      rintro high low tail rfl
      cases h.symm.trans hkeep
    next => rw [unescape_escape_octet, ih]

/-- What is encoded consists of octets that are kept, percent signs and digits. -/
theorem escape_all {P : UInt8 → Prop} (hkeep : ∀ octet, keep octet = true → P octet)
    (hpercent : P percentSign) (hdigit : ∀ n < 16, P (hexDigit n)) :
    ∀ octet ∈ escape keep bytes, P octet := by
  induction bytes with
  | nil => exact List.forall_mem_nil P
  | cons octet rest ih =>
    have hoctet := octet.toNat_lt
    rw [escape]
    split
    next h => exact List.forall_mem_cons.mpr ⟨hkeep octet h, ih⟩
    next =>
      simp only [escapeOctet, List.cons_append, List.nil_append, List.forall_mem_cons]
      exact ⟨hpercent, hdigit _ (by omega), hdigit _ (by omega), ih⟩

theorem escape_append (keep : UInt8 → Bool) (front back : Bytes) :
    escape keep (front ++ back) = escape keep front ++ escape keep back := by
  induction front with
  | nil => rfl
  | cons octet front ih =>
    simp only [List.cons_append, escape, ih]
    split <;> simp

/-! ## Paths of URIs -/

def backslash : UInt8 := 0x5C

/-- The generic syntax of a path: octets that stand for themselves, and encoded ones. -/
inductive IsPathText : Bytes → Prop where
  | nil : IsPathText []
  | plain {octet : UInt8} {rest : Bytes} :
      isPathOctet octet = true → IsPathText rest → IsPathText (octet :: rest)
  | encoded {high low : UInt8} {rest : Bytes} :
      isHex high = true → isHex low = true → IsPathText rest →
      IsPathText (percentSign :: high :: low :: rest)

/-- Every octet that is kept may stand in the path of a URI, with one exception. -/
theorem path_octet_of_keeps (h : keepsInPath octet = true) (hne : octet ≠ backslash) :
    isPathOctet octet = true := by
  have hall : ∀ n < 256, keepsInPath n.toUInt8 = true → n.toUInt8 ≠ backslash →
      isPathOctet n.toUInt8 = true := by decide +kernel
  have hoctet : octet.toNat.toUInt8 = octet := by simp
  exact hoctet ▸ hall octet.toNat octet.toNat_lt (hoctet.symm ▸ h) (hoctet.symm ▸ hne)

theorem IsPathText.ne_backslash {text : Bytes} (h : IsPathText text) : backslash ∉ text := by
  have hplain {octet : UInt8} (h : isPathOctet octet = true) : backslash ≠ octet := by
    rintro rfl
    revert h
    decide
  have hhex {octet : UInt8} (h : isHex octet = true) : backslash ≠ octet := by
    rintro rfl
    cases h
  have hpercent : backslash ≠ percentSign := by decide
  induction h with
  | nil => exact List.not_mem_nil
  | plain hoctet _ ih => simp [ih, hplain hoctet]
  | encoded hhigh hlow _ ih => simp [ih, hhex hhigh, hhex hlow, hpercent]

/-- A backslash stays as it is. -/
theorem escape_backslash (front back : Bytes) :
    escape keepsInPath (front ++ backslash :: back) =
      escape keepsInPath front ++ backslash :: escape keepsInPath back := by
  have hkeeps : keepsInPath backslash = true := by decide
  rw [escape_append, escape, if_pos hkeeps]

/-- The encoded form of a path may stand in a URI exactly if the path has no backslash. -/
theorem path_text_escape_iff : IsPathText (escape keepsInPath bytes) ↔ backslash ∉ bytes := by
  constructor
  · intro h hmem
    obtain ⟨front, back, rfl⟩ := List.mem_iff_append.mp hmem
    exact h.ne_backslash (by simp [escape_backslash])
  · intro h
    have hhex {n : Nat} (hn : n < 16) : isHex (hexDigit n) = true := by
      rw [isHex, hex_digit_read hn]
      rfl
    induction bytes with
    | nil => exact .nil
    | cons octet rest ih =>
      have hoctet := octet.toNat_lt
      rw [List.mem_cons, not_or] at h
      rw [escape]
      split
      next hkeep => exact .plain (path_octet_of_keeps hkeep (Ne.symm h.1)) (ih h.2)
      next => exact .encoded (hhex (by omega)) (hhex (by omega)) (ih h.2)

/-- A path is stepped over as a whole. -/
theorem IsPathText.scan {text : Bytes} (h : IsPathText text) (rest : Bytes) (index : Nat) :
    Uri.scan isPathOctet (text ++ rest) index =
      Uri.scan isPathOctet rest (index + text.length) := by
  induction h generalizing index with
  | nil => rfl
  | @plain octet rest hoctet hrest ih =>
    have hne : octet ≠ percentSign := by
      rintro rfl
      revert hoctet
      decide
    rw [List.cons_append, scan.eq_3 _ _ _ _ fun _ _ _ hpercent => absurd hpercent hne,
      if_neg hne, if_pos hoctet, ih, List.length_cons, Nat.add_assoc, Nat.add_comm 1]
  | encoded hhigh hlow _ ih =>
    simp only [List.cons_append, percentSign, scan.eq_2, hhigh, hlow, Bool.and_self, if_true, ih,
      List.length_cons, Nat.add_assoc, Nat.add_comm 3]

/-- Behind the scheme and an authority that is empty there is a path, and nothing is left to check
but what follows it. -/
theorem check_file (rest : Bytes) :
    check (octets "file://" ++ Files.Name.slash :: rest) =
      (do checkTail (← scan isPathOctet (Files.Name.slash :: rest) 7)) := by
  have hrooted : check (octets "file://" ++ Files.Name.slash :: rest) =
      checkRooted ⟨Files.Name.slash :: rest, 7⟩ := rfl
  have hslash : (Files.Name.slash :: rest).head? = some 0x2F := rfl
  simp [hrooted, checkRooted, hslash]

/-- The text that is made from an absolute path is a URI exactly if the path has no backslash: the
first one is not stepped over. -/
theorem check_escaped_iff (location : Files.Location) :
    check (octets "file://" ++ escape keepsInPath (Files.pathOctets location)) = .ok () ↔
      backslash ∉ Files.pathOctets location := by
  obtain ⟨rest, hslash⟩ : ∃ rest, escape keepsInPath (Files.pathOctets location) =
      Files.Name.slash :: rest := ⟨_, rfl⟩
  rw [hslash, check_file, ← hslash]
  constructor
  · intro h hmem
    obtain ⟨front, back, hparts, hfront⟩ := List.eq_append_cons_of_mem hmem
    have hscan := (path_text_escape_iff.mpr hfront).scan (backslash :: escape keepsInPath back) 7
    rw [hparts, escape_backslash, hscan] at h
    cases h
  · intro h
    have hscan := (path_text_escape_iff.mpr h).scan [] 7
    rw [List.append_nil] at hscan
    rw [hscan]
    rfl

/-! ## URIs of files -/

/-- The text of the URI for a path is a scheme and the encoded path. -/
theorem file_text_eq (path : String) : ∃ escaped : String, fileText path = "file://" ++ escaped ∧
    octets escaped = escape keepsInPath (octets path) := by
  have hascii (octet : UInt8) (h : keepsInPath octet = true) : octet < 0x80 := by
    simp only [keepsInPath, Bool.and_eq_true, decide_eq_true_eq] at h
    exact UInt8.lt_trans h.1.2 (by decide)
  obtain ⟨escaped, hescaped⟩ := text_of_ascii (escape_all hascii (by decide) (by decide))
  exact ⟨escaped, by rw [fileText, text_eq_some_iff.mpr hescaped]; rfl, hescaped⟩

/-- Only texts that are URIs are read, and they are read as they are. -/
theorem parse_eq_ok_iff {text : String} {uri : Uri} : parse text = .ok uri ↔ uri.text = text := by
  unfold parse
  constructor
  · intro h
    split at h <;> cases h
    rfl
  · rintro rfl
    split
    · rfl
    next fault herror => cases uri.valid.symm.trans herror

/-- A path exists, and the text of its resolved absolute path is `absolute`. -/
def IsCanonical {α : Type} (tree : FileTree α) (path absolute : String) : Prop :=
  ∃ location, tree.canonical path = .ok location ∧
    text? (Files.pathOctets location) = some absolute

variable {α β : Type} {tree : FileTree α} {path absolute : String} {uri : Uri}

theorem of_path_eq_ok_iff (h : IsCanonical tree path absolute) :
    ofPath tree path = .ok uri ↔ uri.text = fileText absolute := by
  obtain ⟨location, hlocation, htext⟩ := h
  simp only [ofPath, hlocation, htext, ofAbsolute, ← parse_eq_ok_iff]
  cases parse (fileText absolute) <;> simp

/-- The marks that start a query and a fragment are encoded. -/
theorem mark_not_mem_file_text {mark : Char} (h : mark = '?' ∨ mark = '#') (path : String) :
    mark ∉ (fileText path).toList := by
  obtain ⟨escaped, htext, hescaped⟩ := file_text_eq path
  have hothers : ∀ octet ∈ octets escaped, octet ≠ mark.toNat.toUInt8 := by
    rw [hescaped]
    rcases h with rfl | rfl <;>
    · refine escape_all ?_ (by decide) (by decide)
      rintro _ hkeep rfl
      revert hkeep
      decide
  rw [htext, String.toList_append, List.mem_append, not_or]
  constructor
  · rcases h with rfl | rfl <;> decide
  · rw [← mem_octets_iff (by rcases h with rfl | rfl <;> decide)]
    exact fun hmem => hothers _ hmem rfl

/-- The URI of a file is `file://` and a text that reads back as its resolved path. So another path
has the same URI exactly if it is resolved to the same path. No mark of a query or a fragment is in
the URI. -/
theorem uri_names_path (h : IsCanonical tree path absolute) (huri : ofPath tree path = .ok uri) :
    (∃ escaped, uri.text = "file://" ++ escaped ∧
      text? (unescape (octets escaped)) = some absolute) ∧
    (∀ (others : FileTree β) (other named : String), IsCanonical others other named →
      (ofPath others other = .ok uri ↔ named = absolute)) ∧
    '?' ∉ uri.text.toList ∧ '#' ∉ uri.text.toList := by
  rw [of_path_eq_ok_iff h] at huri
  have hreads {named escaped : String}
      (hescaped : octets escaped = escape keepsInPath (octets named)) :
      text? (unescape (octets escaped)) = some named := by
    rw [hescaped, unescape_escape (by decide), text_eq_some_iff]
  obtain ⟨escaped, htext, hescaped⟩ := file_text_eq absolute
  refine ⟨⟨escaped, huri.trans htext, hreads hescaped⟩, fun others other named hnamed => ?_, ?_, ?_⟩
  · rw [of_path_eq_ok_iff hnamed, huri]
    constructor
    · intro hsame
      obtain ⟨encoded, hencoded, hoctets⟩ := file_text_eq named
      rw [htext, hencoded, String.append_right_inj] at hsame
      exact Option.some.inj ((hreads hoctets).symm.trans (hsame ▸ hreads hescaped))
    · rintro rfl
      rfl
  · exact huri ▸ mark_not_mem_file_text (.inl rfl) absolute
  · exact huri ▸ mark_not_mem_file_text (.inr rfl) absolute

/-- A file that is also found through a link, with an encoded slash and marks in its name. -/
def linkedTree : FileTree Unit where
  entries := [(["d"], .directory), (["l"], .link "./d"), (["d", "é %2F?#"], .file ())]
  current := []

theorem linked_canonical : IsCanonical linkedTree "l/é %2F?#" "/d/é %2F?#" :=
  ⟨["d", "é %2F?#"], by decide +kernel, by decide +kernel⟩

/-- The file has the same URI through the link and without it. -/
theorem linked_paths_same_uri :
    ∃ uri, ofPath linkedTree "l/é %2F?#" = .ok uri ∧ ofPath linkedTree "d/é %2F?#" = .ok uri ∧
      '?' ∉ uri.text.toList ∧ '#' ∉ uri.text.toList := by
  have huri : ofPath linkedTree "l/é %2F?#" =
      .ok ⟨"file:///d/%C3%A9%20%252F%3F%23", by decide +kernel⟩ :=
    (of_path_eq_ok_iff linked_canonical).mpr (by decide +kernel)
  obtain ⟨-, hsame, hmarks⟩ := uri_names_path linked_canonical huri
  have hdirect : IsCanonical linkedTree "d/é %2F?#" "/d/é %2F?#" :=
    ⟨["d", "é %2F?#"], by decide +kernel, by decide +kernel⟩
  exact ⟨_, huri, (hsame linkedTree "d/é %2F?#" _ hdirect).mpr rfl, hmarks⟩

/-- The encoded path of a file may stand in a URI exactly if no backslash is on the path, and
exactly then the file has a URI. -/
theorem path_has_uri_iff (h : IsCanonical tree path absolute) :
    ∃ escaped, fileText absolute = "file://" ++ escaped ∧
      (IsPathText (octets escaped) ↔ '\\' ∉ absolute.toList) ∧
      ((∃ uri, ofPath tree path = .ok uri) ↔ '\\' ∉ absolute.toList) := by
  obtain ⟨escaped, htext, hescaped⟩ := file_text_eq absolute
  have hbackslash : backslash ∈ octets absolute ↔ '\\' ∈ absolute.toList :=
    mem_octets_iff (show ('\\').toNat < 0x80 by decide)
  refine ⟨escaped, htext, ?_, ?_⟩
  · rw [hescaped, path_text_escape_iff, hbackslash]
  · obtain ⟨location, _, habsolute⟩ := id h
    rw [text_eq_some_iff] at habsolute
    have hcheck := check_escaped_iff location
    rw [← habsolute, ← hescaped, ← octets_append, ← htext, hbackslash] at hcheck
    rw [← hcheck]
    constructor
    · rintro ⟨uri, huri⟩
      exact (of_path_eq_ok_iff h).mp huri ▸ uri.valid
    · intro hvalid
      exact ⟨⟨_, hvalid⟩, (of_path_eq_ok_iff h).mpr rfl⟩

theorem linked_path_has_uri :
    IsCanonical linkedTree "l/é %2F?#" "/d/é %2F?#" ∧
      ∃ uri, ofPath linkedTree "l/é %2F?#" = .ok uri := by
  obtain ⟨_, _, -, hiff⟩ := path_has_uri_iff linked_canonical
  exact ⟨linked_canonical, hiff.mpr (by decide)⟩

theorem backslash_refused :
    let tree : FileTree Unit := ⟨[(["a\\b"], .file ())], []⟩
    IsCanonical tree "a\\b" "/a\\b" ∧ ofPath tree "a\\b" =
      .error (.invalidPath "invalid URI 'file:///a\\b': unexpected character at index 9") :=
  ⟨⟨["a\\b"], by decide +kernel, by decide +kernel⟩, by decide +kernel⟩

end Uri

end CodeAtlas
