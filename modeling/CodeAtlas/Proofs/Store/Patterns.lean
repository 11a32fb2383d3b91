import CodeAtlas.Store.Like
import Mathlib

/-!
# What the pattern of a query matches

`pattern_matches_literally` says that the pattern made from a query matches the names in which the
query occurs, up to the case of Latin letters, and that characters with a meaning of their own in
patterns stand for themselves. Two things are as the database has them: a pattern ends at its first
NUL, and code points that are no characters are read as the replacement character.
-/

namespace CodeAtlas.Store

variable {query name text : List Char}

/-- Some end of a text satisfies a test: the text is split before it. -/
theorem any_suffix_iff {test : List Char → Bool} : anySuffix test text = true ↔
    ∃ before after, text = before ++ after ∧ test after = true := by
  induction text with
  | nil => simp [anySuffix]
  | cons c rest ih =>
    rw [anySuffix, Bool.or_eq_true, ih]
    constructor
    · rintro (h | ⟨before, after, rfl, h⟩)
      · exact ⟨[], _, rfl, h⟩
      · exact ⟨c :: before, after, rfl, h⟩
    · rintro ⟨before, after, hsplit, h⟩
      cases before with
      | nil =>
        rw [List.nil_append] at hsplit
        exact .inl (hsplit ▸ h)
      | cons _ before =>
        obtain ⟨rfl, rfl⟩ := List.cons_eq_cons.mp hsplit
        exact .inr ⟨before, after, rfl, h⟩

/-- Letters match the characters that are alike one by one, and what follows the rest. -/
theorem matches_letters_iff {atoms : List Atom} :
    matchesAtoms (query.map Atom.letter ++ atoms) text = true ↔ ∃ found after,
      text = found ++ after ∧ query.Forall₂ (isAlike · ·) found ∧
        matchesAtoms atoms after = true := by
  induction query generalizing text with
  | nil => simp
  | cons c query ih =>
    cases text with
    | nil =>
      simp [matchesAtoms]
    | cons d rest =>
      simp only [List.map_cons, List.cons_append, matchesAtoms, Bool.and_eq_true, ih]
      constructor
      · rintro ⟨hc, found, after, rfl, hfound, h⟩
        exact ⟨d :: found, after, rfl, .cons hc hfound, h⟩
      · rintro ⟨_, after, hsplit, hfound, h⟩
        cases hfound with
        | cons hc hfound =>
          obtain ⟨rfl, rfl⟩ := List.cons_eq_cons.mp hsplit
          exact ⟨hc, _, after, rfl, hfound, h⟩

theorem atoms_escaped (query rest : List Char) :
    atoms? (escaped query ++ rest) = (atoms? rest).map (query.map Atom.letter ++ ·) := by
  induction query with
  | nil => simp [escaped]
  | cons c query ih =>
    rw [escaped]
    split
    next =>
      simp [atoms?, ih, Function.comp_def]
    next hplain =>
      have hplain : (c ≠ '%' ∧ c ≠ '_') ∧ c ≠ escapeCharacter := by
        simpa [isSpecial] using hplain
      rw [List.cons_append, atoms?.eq_def]
      simp [ih, hplain, Function.comp_def]

/-- Escaping adds no NUL: a pattern that is cut at one is the escaped part of the query before. -/
theorem until_nul_escaped (query : List Char) : untilNul (escaped query ++ ['%']) =
    escaped (untilNul query) ++ if '\x00' ∈ query then [] else ['%'] := by
  induction query with
  | nil => decide
  | cons c query ih =>
    rw [escaped]
    by_cases hc : c = '\x00'
    · subst hc
      simp [untilNul, escaped, isSpecial, escapeCharacter]
    · simp only [untilNul] at ih ⊢
      split <;> simpa [escaped, escapeCharacter, hc, Ne.symm hc, *] using ih

/-- The pattern of a query matches a name if the part of the query before a NUL occurs in the part
of the name before a NUL; after a NUL in the query, the pattern has no final run. -/
theorem is_like_pattern_iff (name query : List Char) :
    isLike name (pattern query) = true ↔ ∃ before found after,
    untilNul name = before ++ found ++ after ∧ (untilNul query).Forall₂ (isAlike · ·) found ∧
      ('\x00' ∈ query → after = []) := by
  have hpattern : untilNul (pattern query) = '%' :: untilNul (escaped query ++ ['%']) := rfl
  have hatoms : atoms? (untilNul (pattern query)) = some (.run :: ((untilNul query).map .letter ++
      if '\x00' ∈ query then [] else [.run])) := by
    rw [hpattern, until_nul_escaped, atoms?.eq_def]
    have hrun : '%' ≠ escapeCharacter := by decide
    simp only [hrun, if_false, if_true, atoms_escaped]
    split <;> rfl
  have hlast : ∀ after, matchesAtoms (if '\x00' ∈ query then [] else [.run]) after = true ↔
      ('\x00' ∈ query → after = []) := by
    intro after
    split
    next hnul => simp [matchesAtoms, hnul]
    next hnul =>
      simp only [hnul, false_implies, iff_true, matchesAtoms, any_suffix_iff]
      exact ⟨after, [], (List.append_nil _).symm, rfl⟩
  simp only [isLike, hatoms, matchesAtoms, any_suffix_iff, matches_letters_iff, hlast]
  constructor
  · rintro ⟨before, _, hname, found, after, rfl, hfound, hafter⟩
    exact ⟨before, found, after, by rw [hname, List.append_assoc], hfound, hafter⟩
  · rintro ⟨before, found, after, hname, hfound, hafter⟩
    exact ⟨before, found ++ after, by rw [hname, List.append_assoc], found, after, rfl, hfound,
      hafter⟩

theorem is_like_pattern_self (name : List Char) : isLike name (pattern name) = true := by
  refine (is_like_pattern_iff _ _).mpr ⟨[], untilNul name, [], by simp, ?_, fun _ => rfl⟩
  exact List.forall₂_same.mpr fun c _ => beq_self_eq_true _

theorem until_nul_eq_self (h : '\x00' ∉ text) : untilNul text = text :=
  List.takeWhile_eq_self_iff.mpr fun c hc => by
    simpa using fun heq : c = '\x00' => h (heq ▸ hc)

/-- Where no character is read as another one, texts that are alike are the same up to case. -/
theorem forall_alike_iff {found : List Char} (hquery : ∀ c ∈ query, readAs c = c)
    (hfound : ∀ c ∈ found, readAs c = c) :
    query.Forall₂ (isAlike · ·) found ↔ Text.sameUpToCase query found = true := by
  rw [Text.sameUpToCase, beq_iff_eq, ← List.forall₂_eq_eq_eq, List.forall₂_map_left_iff,
    List.forall₂_map_right_iff]
  induction query generalizing found with
  | nil => cases found <;> simp
  | cons c query ih =>
    cases found with
    | nil => simp
    | cons d found =>
      rw [List.forall_mem_cons] at hquery hfound
      rw [List.forall₂_cons, List.forall₂_cons, ih hquery.2 hfound.2, isAlike, hquery.1,
        hfound.1, beq_iff_eq]

theorem special_cases {c : Char} (h : isSpecial c = true) : c = '%' ∨ c = '_' ∨ c = '\\' := by
  simpa [isSpecial, escapeCharacter, or_assoc] using h

/-- No letter folds to a special character, since those are no small letters. -/
theorem fold_case_special_iff {c d : Char} (hc : isSpecial c = true) :
    Text.foldCase d = c ↔ d = c := by
  rw [Text.foldCase]
  split
  next hcapital =>
    have hrange : 65 ≤ d.toNat ∧ d.toNat ≤ 90 := hcapital
    have hvalid : (d.toNat + 32).isValidChar := .inl (by omega)
    have hsmall : (Char.ofNat (d.toNat + 32)).toNat = d.toNat + 32 := by
      rw [Char.toNat_ofNat, if_pos hvalid]
    constructor
    · intro h
      rw [h] at hsmall
      rcases special_cases hc with rfl | rfl | rfl <;> simp at hsmall <;> omega
    · rintro rfl
      rcases special_cases hc with rfl | rfl | rfl <;> simp at hrange
  next => exact Iff.rfl

theorem alike_special_iff {c : Char} (hc : isSpecial c = true) (d : Char) :
    isAlike c d = true ↔ d = c := by
  have hself : Text.foldCase (readAs c) = c := by
    rcases special_cases hc with rfl | rfl | rfl <;> decide
  rw [isAlike, hself, beq_iff_eq, eq_comm, fold_case_special_iff hc, readAs]
  split
  next hread =>
    -- the replacement character is not special, and neither is what is read as it
    rcases special_cases hc with rfl | rfl | rfl <;> rcases hread with rfl | rfl <;> decide
  next => exact Iff.rfl

/-- The pattern of a query matches a name exactly if the query, up to a NUL in it, occurs in the
name character by character; then nothing follows it if the query has a NUL. Where no character is
read as another one this is an occurrence up to the case of Latin letters, and the special
characters of a query are found as themselves only. -/
theorem pattern_matches_literally (query name : List Char) (hname : '\x00' ∉ name) :
    (isLike name (pattern query) = true ↔ ∃ before found after, name = before ++ found ++ after ∧
      (untilNul query).Forall₂ (isAlike · ·) found ∧ ('\x00' ∈ query → after = [])) ∧
    ('\x00' ∉ query → (∀ c ∈ query ++ name, readAs c = c) →
      (isLike name (pattern query) = true ↔ ∃ before found after,
        name = before ++ found ++ after ∧ Text.sameUpToCase query found = true)) ∧
    ∀ c ∈ query, isSpecial c = true → ∀ d, isAlike c d = true ↔ d = c := by
  have hlike := is_like_pattern_iff name query
  rw [until_nul_eq_self hname] at hlike
  refine ⟨hlike, fun hnul hread => hlike.trans ?_, fun c _ hc d => alike_special_iff hc d⟩
  rw [until_nul_eq_self hnul]
  have halike {before found after : List Char} (hsplit : name = before ++ found ++ after) :
      query.Forall₂ (isAlike · ·) found ↔ Text.sameUpToCase query found = true :=
    forall_alike_iff (fun c hc => hread c (List.mem_append_left _ hc))
      fun c hc => hread c (by simp [hsplit, hc])
  constructor
  · rintro ⟨before, found, after, hsplit, hfound, _⟩
    exact ⟨before, found, after, hsplit, (halike hsplit).mp hfound⟩
  · rintro ⟨before, found, after, hsplit, hfound⟩
    exact ⟨before, found, after, hsplit, (halike hsplit).mpr hfound, fun h => absurd h hnul⟩

/-- A percent sign in a query is found at the end of a name that has one. -/
theorem percent_matches_literally : '\x00' ∉ ['5', 'A', '%'] ∧
    isLike ['5', 'A', '%'] (pattern ['a', '%']) = true :=
  ⟨by decide, ((pattern_matches_literally ['a', '%'] ['5', 'A', '%'] (by decide)).2.1 (by decide)
    (by simp [readAs])).mpr ⟨['5'], ['A', '%'], [], rfl, by decide⟩⟩

/-- A query with a NUL is found at the end of a name without one. -/
theorem pattern_matches_absent : ∃ query name : List Char, '\x00' ∉ name ∧
    isLike name (pattern query) = true ∧ ¬∃ before found after,
      name = before ++ found ++ after ∧ Text.sameUpToCase query found = true := by
  refine ⟨['b', '\x00', 'c'], ['a', 'b'], by decide, ?_, ?_⟩
  · exact (is_like_pattern_iff _ _).mpr ⟨['a'], ['b'], [], rfl, .cons (beq_self_eq_true _) .nil,
      fun _ => rfl⟩
  · rintro ⟨before, found, after, hname, hfound⟩
    have hlong : 3 = found.length := by
      simpa using congrArg List.length (beq_iff_eq.mp hfound)
    have hshort : 2 = (before ++ found ++ after).length := congrArg List.length hname
    simp only [List.length_append] at hshort
    omega

end CodeAtlas.Store
