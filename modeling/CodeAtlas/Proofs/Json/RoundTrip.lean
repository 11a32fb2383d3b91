import CodeAtlas.Proofs.Json.Scalars

/-!
# Reading back compact JSON text

`parse_bytes` says that the compact text of a value is read as this value, provided its numbers are
whole and fit a word, its objects list their names in ascending order, and it is not nested deeper
than the reader goes. The proof follows the tree: `read_value_chars`, `read_elements_chars` and
`read_members_chars` are one induction over a value, its elements and its members.
-/

namespace CodeAtlas.Json

open Utf8 (encode encodeChar encode_append encode_cons encode_char_ascii)

/-! ## Values that keep their form -/

variable {v : Value} {rest : List Char} {after : Bytes} {name : String} {depth : Nat}

namespace Members

instance decidableAscending : (members : Members) → Decidable (Ascending members)
  | [] => isTrue trivial
  | [_] => isTrue trivial
  | (m, _) :: (n, v) :: rest =>
    have := decidableAscending ((n, v) :: rest)
    inferInstanceAs (Decidable (m < n ∧ Ascending ((n, v) :: rest)))

theorem Ascending.pairwise {members : Members} (h : Ascending members) :
    members.Pairwise fun a b => a.1 < b.1 := by
  induction members with
  | nil => exact .nil
  | cons first rest ih =>
    cases rest with
    | nil => exact List.pairwise_singleton _ _
    | cons second rest =>
      have hrest := ih h.2
      refine .cons (fun member hmember => ?_) hrest
      rcases List.mem_cons.1 hmember with rfl | hmember
      · exact h.1
      · exact String.lt_trans h.1 (List.rel_of_pairwise_cons hrest hmember)

theorem insert_last {members : Members} (value : Value) (h : ∀ member ∈ members, member.1 < name) :
    insert name value members = members ++ [(name, value)] := by
  induction members with
  | nil => rfl
  | cons first rest ih =>
    have hfirst : first.1 < name := h first List.mem_cons_self
    have hne : name ≠ first.1 := by
      intro heq
      exact String.lt_irrefl name (heq ▸ hfirst)
    simp only [insert, hne, String.lt_asymm hfirst, if_false,
      ih (List.forall_mem_cons.mp h).2, List.cons_append]

end Members

mutual

def Value.isWhole : Value → Bool
  | .num (.int n) => fitsWord n
  | .num (.real _) => false
  | .arr elements => Value.allWhole elements
  | .obj members => Value.membersWhole members
  | _ => true

def Value.allWhole : List Value → Bool
  | [] => true
  | v :: vs => v.isWhole && Value.allWhole vs

def Value.membersWhole : List (String × Value) → Bool
  | [] => true
  | (_, v) :: ms => v.isWhole && Value.membersWhole ms

end

mutual

def Value.isSorted : Value → Bool
  | .arr elements => Value.allSorted elements
  | .obj members => decide (Members.Ascending members) && Value.membersSorted members
  | _ => true

def Value.allSorted : List Value → Bool
  | [] => true
  | v :: vs => v.isSorted && Value.allSorted vs

def Value.membersSorted : List (String × Value) → Bool
  | [] => true
  | (_, v) :: ms => v.isSorted && Value.membersSorted ms

end

mutual

def Value.nesting : Value → Nat
  | .arr elements => Value.elementsNesting elements + 1
  | .obj members => Value.membersNesting members + 1
  | _ => 0

def Value.elementsNesting : List Value → Nat
  | [] => 0
  | v :: vs => max v.nesting (Value.elementsNesting vs)

def Value.membersNesting : List (String × Value) → Nat
  | [] => 0
  | (_, v) :: ms => max v.nesting (Value.membersNesting ms)

end

/-! ## The text of a value -/

theorem length_le_encode (text : List Char) : text.length ≤ (encode text).length := by
  induction text with
  | nil => exact Nat.le_refl 0
  | cons c text ih =>
    have hc : 1 ≤ (encodeChar c).length := by
      simp only [encodeChar]
      split_ifs <;> simp
    rw [encode_cons, List.length_append, List.length_cons]
    omega

theorem suffix_member {tail rest : List Char} (c : Char) (name : String) (h : tail <:+ rest) :
    tail <:+ c :: (quoteChars name ++ ':' :: rest) :=
  h.trans ((List.suffix_cons _ _).trans ((List.suffix_append _ _).trans (List.suffix_cons _ _)))

mutual

theorem chars_onto_suffix (tail : List Char) : (v : Value) → tail <:+ v.charsOnto tail
  | .null | .bool true | .bool false | .num _ | .str _ => List.suffix_append _ _
  | .arr [] | .obj [] => List.suffix_append [_, _] _
  | .arr (v :: vs) =>
    ((List.suffix_cons _ _).trans (elements_onto_suffix _ vs)).trans
      ((chars_onto_suffix _ v).trans (List.suffix_cons _ _))
  | .obj ((name, v) :: ms) =>
    ((List.suffix_cons _ _).trans (members_onto_suffix _ ms)).trans
      (suffix_member _ name (chars_onto_suffix _ v))

theorem elements_onto_suffix (tail : List Char) :
    (vs : List Value) → tail <:+ Value.elementsOnto tail vs
  | [] => List.suffix_rfl
  | v :: vs =>
    (elements_onto_suffix tail vs).trans ((chars_onto_suffix _ v).trans (List.suffix_cons _ _))

theorem members_onto_suffix (tail : List Char) :
    (ms : List (String × Value)) → tail <:+ Value.membersOnto tail ms
  | [] => List.suffix_rfl
  | (name, v) :: ms =>
    (members_onto_suffix tail ms).trans (suffix_member _ name (chars_onto_suffix _ v))

end

/-- A character that a value may start with: no blank and no closing bracket. -/
def startsValue (c : Char) : Bool :=
  decide (c.toNat < 0x80) && !isBlank c.toNat.toUInt8 && c.toNat.toUInt8 != 0x5D

theorem starts_value_digit {c : Char} (h : c.isDigit = true) : startsValue c = true := by
  have hrange : 48 ≤ c.toNat ∧ c.toNat ≤ 57 := Char.isDigit_iff_toNat.1 h
  have hvalue : c.toNat.toUInt8.toNat = c.toNat := Utf8.to_nat_octet (by omega)
  have hother {octet : UInt8} (h : octet.toNat < 48 ∨ 57 < octet.toNat) :
      c.toNat.toUInt8 ≠ octet := by
    rintro rfl
    omega
  simp only [startsValue, isBlank, Bool.and_eq_true, decide_eq_true_eq, Bool.not_eq_true',
    Bool.or_eq_false_iff, beq_eq_false_iff_ne, bne_iff_ne]
  exact ⟨⟨by omega, ⟨⟨hother (by decide), hother (by decide)⟩, hother (by decide)⟩,
    hother (by decide)⟩, hother (by decide)⟩

variable (tail : List Char)

theorem chars_onto_start (h : v.isWhole = true) :
    ∃ c rest, v.charsOnto tail = c :: rest ∧ startsValue c = true := by
  cases v with
  | null => exact ⟨'n', _, rfl, by decide⟩
  | bool b => cases b <;> exact ⟨_, _, rfl, by decide⟩
  | num n =>
    cases n with
    | real x => cases h
    | int n =>
      cases n with
      | negSucc n => exact ⟨'-', _, rfl, by decide⟩
      | ofNat n =>
        cases hdigits : Nat.toDigits 10 n with
        | nil => exact absurd hdigits Nat.toDigits_ne_nil
        | cons c rest =>
          have hc : c ∈ Nat.toDigits 10 n := by simp [hdigits]
          exact ⟨c, rest ++ tail,
            by simp [Value.charsOnto, Number.chars, intChars, hdigits],
            starts_value_digit (Nat.isDigit_of_mem_toDigits (by decide) (by decide) hc)⟩
  | str s => exact ⟨'"', _, rfl, by decide⟩
  | arr vs => cases vs <;> exact ⟨'[', _, rfl, by decide⟩
  | obj ms => cases ms <;> exact ⟨'{', _, rfl, by decide⟩

/-- The reader finds a value at once, and it is not the end of an array. -/
theorem skip_blanks_chars (h : v.isWhole = true) :
    ∃ octet rest, encode (v.charsOnto tail) = octet :: rest ∧
      skipBlanks (octet :: rest) = octet :: rest ∧ octet ≠ 0x5D := by
  obtain ⟨c, rest, hchars, hstart⟩ := chars_onto_start tail h
  simp only [startsValue, Bool.and_eq_true, decide_eq_true_eq, Bool.not_eq_true', bne_iff_ne]
    at hstart
  obtain ⟨⟨hascii, hblank⟩, hbracket⟩ := hstart
  refine ⟨c.toNat.toUInt8, encode rest, ?_, ?_, hbracket⟩
  · rw [hchars, encode_cons, encode_char_ascii hascii, List.singleton_append]
  · simp [skipBlanks, hblank]

theorem ends_number_elements (vs : List Value) :
    endsNumber (encode (Value.elementsOnto (']' :: tail) vs)) := by
  cases vs with
  | nil => exact .inr (.inl rfl)
  | cons v vs => exact .inl rfl

theorem ends_number_members (ms : List (String × Value)) :
    endsNumber (encode (Value.membersOnto ('}' :: tail) ms)) := by
  cases ms with
  | nil => exact .inr (.inr rfl)
  | cons m ms => exact .inl rfl

/-! ## Values without parts -/

theorem read_value_digit {octet : UInt8} (h : (digit? octet).isSome = true) (fuel depth : Nat)
    (rest : Bytes) :
    readValue (fuel + 1) depth (octet :: rest) =
      match readNumber false (octet :: rest) with
      | .ok (n, rest) => .ok (.num n, rest)
      | .error fault => .error fault := by
  have hrange : 0x30 ≤ octet ∧ octet ≤ 0x39 := by
    by_contra hoff
    simp [digit?, hoff] at h
  have hother (other : UInt8) (hoff : ¬ (0x30 ≤ other ∧ other ≤ 0x39)) :
      (octet == other) = false := by
    rw [beq_eq_false_iff_ne]
    rintro rfl
    exact hoff hrange
  have hblank : isBlank octet = false := by
    simp only [isBlank, hother 0x20 (by decide), hother 0x0A (by decide), hother 0x0D (by decide),
      hother 0x09 (by decide), Bool.or_self]
  cases hnumber : readNumber false (octet :: rest) <;>
    simp only [readValue, skipBlanks, hblank, hother 0x6E (by decide), hother 0x74 (by decide),
      hother 0x66 (by decide), hother 0x2D (by decide), h, hnumber, if_true, if_false,
      Bool.false_eq_true]

theorem read_value_int {n : Int} (h : fitsWord n = true) (fuel depth : Nat) {rest : Bytes}
    (hrest : endsNumber rest) :
    readValue (fuel + 1) depth (encode (intChars n) ++ rest) = .ok (.num (.int n), rest) := by
  simp only [fitsWord, Bool.and_eq_true, decide_eq_true_eq] at h
  cases n with
  | negSucc n =>
    have hfits : n + 1 < 2 ^ 64 := by omega
    have hsmall : ¬ 2 ^ 63 < n + 1 := by omega
    have hwhole : wholeNumber true (n + 1) = .int (.negSucc n) := by
      simp only [wholeNumber, Nat.add_one_ne_zero, hsmall, or_self, if_true, if_false]
      rfl
    rw [intChars, encode_cons]
    simp only [show encodeChar '-' = [0x2D] from rfl, List.cons_append, List.nil_append]
    simp [readValue, skipBlanks, isBlank, read_number_digits true hfits hrest, hwhole]
  | ofNat n =>
    have hfits : n < 2 ^ 64 := by
      simp only [Int.ofNat_eq_natCast] at h
      omega
    have hread := read_number_digits false hfits hrest
    cases hdigits : Nat.toDigits 10 n with
    | nil => exact absurd hdigits Nat.toDigits_ne_nil
    | cons c text =>
      have hc : c ∈ Nat.toDigits 10 n := by simp [hdigits]
      obtain ⟨hoctet, hdigit⟩ :=
        digit_octet (Nat.isDigit_of_mem_toDigits (by decide) (by decide) hc)
      rw [hdigits, encode_cons, hoctet, List.append_assoc, List.singleton_append] at hread
      rw [intChars, hdigits, encode_cons, hoctet, List.append_assoc, List.singleton_append,
        read_value_digit (by rw [hdigit]; rfl), hread]
      rfl

theorem encode_quote_chars (text : String) (rest : List Char) :
    encode (quoteChars text ++ rest) =
      0x22 :: (encode (text.toList.flatMap escapeChar ++ ['"']) ++ encode rest) := by
  rw [encode_append]
  rfl

theorem read_value_quoted (text : String) (fuel depth : Nat) (tail : List Char) :
    readValue (fuel + 1) depth (encode (quoteChars text ++ tail)) =
      .ok (.str text, encode tail) := by
  rw [encode_quote_chars]
  simp [readValue, skipBlanks, isBlank, digit?, read_text_quoted]

/-! ## Values with parts -/

theorem read_value_bracket (h : 1 < depth) (fuel : Nat) (rest : Bytes) :
    readValue (fuel + 1) depth (0x5B :: rest) = readElements fuel (depth - 1) [] true rest := by
  simp [readValue, skipBlanks, isBlank, digit?, Nat.not_le.2 h]

theorem read_value_brace (h : 1 < depth) (fuel : Nat) (rest : Bytes) :
    readValue (fuel + 1) depth (0x7B :: rest) = readMembers fuel (depth - 1) [] true rest := by
  simp [readValue, skipBlanks, isBlank, digit?, Nat.not_le.2 h]

theorem read_elements_first {fuel : Nat} (hwhole : v.isWhole = true)
    (h : readValue fuel depth (encode (v.charsOnto rest)) = .ok (v, after)) :
    readElements (fuel + 1) depth [] true (encode (v.charsOnto rest)) =
      readElements fuel depth [v] false after := by
  obtain ⟨octet, octets, hchars, hskip, hbracket⟩ := skip_blanks_chars rest hwhole
  rw [hchars] at h ⊢
  simp only [readElements, hskip, beq_iff_eq, hbracket, if_false, if_true, h]

theorem read_elements_next {fuel : Nat} {read : List Value} (hwhole : v.isWhole = true)
    (h : readValue fuel depth (encode (v.charsOnto rest)) = .ok (v, after)) :
    readElements (fuel + 1) depth read false (encode (',' :: v.charsOnto rest)) =
      readElements fuel depth (v :: read) false after := by
  obtain ⟨octet, octets, hchars, hskip, hbracket⟩ := skip_blanks_chars rest hwhole
  have hcomma : encode (',' :: v.charsOnto rest) = 0x2C :: encode (v.charsOnto rest) := rfl
  have hstart : skipBlanks (0x2C :: octet :: octets) = 0x2C :: octet :: octets := rfl
  rw [hchars] at h
  rw [hcomma, hchars, readElements, hstart]
  simp only [hskip, show ((0x2C : UInt8) == 0x5D) = false from rfl, BEq.rfl, if_true, if_false,
    Bool.false_eq_true]
  split
  next heq => cases heq
  next heq => exact absurd (List.cons.inj heq).1 hbracket
  next => simp only [h]

/-- A member is its name, a colon, its value, and the members after it. -/
theorem read_member_chars {fuel : Nat} {read : Members}
    (h : readValue fuel depth (encode rest) = .ok (v, after)) :
    readMember (fuel + 1) depth read
        (encode (name.toList.flatMap escapeChar ++ ['"']) ++ encode (':' :: rest)) =
      readMembers fuel depth (Members.insert name v read) false after := by
  have hcolon : encode (':' :: rest) = 0x3A :: encode rest := rfl
  simp [readMember, read_text_quoted, hcolon, skipBlanks, isBlank, h]

theorem read_members_first {fuel : Nat} (h : readValue fuel depth (encode rest) = .ok (v, after)) :
    readMembers (fuel + 2) depth [] true (encode (quoteChars name ++ ':' :: rest)) =
      readMembers fuel depth [(name, v)] false after := by
  rw [encode_quote_chars]
  simp [readMembers, skipBlanks, isBlank, read_member_chars h, Members.insert]

theorem read_members_next {fuel : Nat} {read : Members}
    (h : readValue fuel depth (encode rest) = .ok (v, after)) :
    readMembers (fuel + 2) depth read false (encode (',' :: (quoteChars name ++ ':' :: rest))) =
      readMembers fuel depth (Members.insert name v read) false after := by
  have hcomma : encode (',' :: (quoteChars name ++ ':' :: rest)) =
      0x2C :: encode (quoteChars name ++ ':' :: rest) := rfl
  rw [hcomma, encode_quote_chars]
  simp [readMembers, skipBlanks, isBlank, read_member_chars h]

mutual

/-- The text of a value is read as this value, whatever ends it. -/
theorem read_value_chars (v : Value) (hwhole : v.isWhole = true) (hsorted : v.isSorted = true)
    (tail : List Char) (fuel depth : Nat) (htail : endsNumber (encode tail))
    (hdepth : v.nesting < depth) (hfuel : 2 * (v.charsOnto tail).length < fuel) :
    readValue fuel depth (encode (v.charsOnto tail)) = .ok (v, encode tail) := by
  -- A character pays for two calls: one reads the value, one the list it stands in.
  obtain ⟨fuel, rfl⟩ : ∃ left, fuel = left + 1 := ⟨fuel - 1, by omega⟩
  cases v with
  | null =>
    rw [Value.charsOnto, encode_append]
    simp [encode, encodeChar, readValue, skipBlanks, isBlank, readWord]
  | bool b =>
    cases b <;> rw [Value.charsOnto, encode_append] <;>
      simp [encode, encodeChar, readValue, skipBlanks, isBlank, readWord]
  | num n =>
    cases n with
    | real x => cases hwhole
    | int n =>
      rw [Value.charsOnto, Number.chars, encode_append]
      exact read_value_int hwhole fuel depth htail
  | str s => exact read_value_quoted s fuel depth tail
  | arr vs =>
    rw [Value.nesting] at hdepth
    cases vs with
    | nil =>
      simp only [Value.charsOnto, List.length_cons] at hfuel
      obtain ⟨fuel, rfl⟩ : ∃ left, fuel = left + 1 := ⟨fuel - 1, by omega⟩
      have hchars : encode (Value.charsOnto tail (.arr [])) = 0x5B :: 0x5D :: encode tail := rfl
      rw [hchars, read_value_bracket (by omega)]
      simp [readElements, skipBlanks, isBlank]
    | cons v vs =>
      simp only [Value.isWhole, Value.allWhole, Bool.and_eq_true] at hwhole
      simp only [Value.isSorted, Value.allSorted, Bool.and_eq_true] at hsorted
      simp only [Value.elementsNesting] at hdepth
      simp only [Value.charsOnto, List.length_cons] at hfuel
      obtain ⟨fuel, rfl⟩ : ∃ left, fuel = left + 1 := ⟨fuel - 1, by omega⟩
      have hlength := (chars_onto_suffix (Value.elementsOnto (']' :: tail) vs) v).length_le
      have hv := read_value_chars v hwhole.1 hsorted.1 (Value.elementsOnto (']' :: tail) vs)
        fuel (depth - 1) (ends_number_elements tail vs) (by omega) (by omega)
      have hvs := read_elements_chars vs hwhole.2 hsorted.2 [v] tail fuel (depth - 1) (by omega)
        (by omega)
      rw [Value.charsOnto]
      exact (read_value_bracket (by omega) _ _).trans
        ((read_elements_first hwhole.1 hv).trans hvs)
  | obj ms =>
    rw [Value.nesting] at hdepth
    cases ms with
    | nil =>
      simp only [Value.charsOnto, List.length_cons] at hfuel
      obtain ⟨fuel, rfl⟩ : ∃ left, fuel = left + 1 := ⟨fuel - 1, by omega⟩
      have hchars : encode (Value.charsOnto tail (.obj [])) = 0x7B :: 0x7D :: encode tail := rfl
      rw [hchars, read_value_brace (by omega)]
      simp [readMembers, skipBlanks, isBlank]
    | cons m ms =>
      obtain ⟨name, v⟩ := m
      simp only [Value.isWhole, Value.membersWhole, Bool.and_eq_true] at hwhole
      simp only [Value.isSorted, Value.membersSorted, Bool.and_eq_true, decide_eq_true_eq]
        at hsorted
      simp only [Value.membersNesting] at hdepth
      simp only [Value.charsOnto, List.length_cons, List.length_append] at hfuel
      obtain ⟨fuel, rfl⟩ : ∃ left, fuel = left + 2 := ⟨fuel - 2, by omega⟩
      have hlength := (chars_onto_suffix (Value.membersOnto ('}' :: tail) ms) v).length_le
      have hv := read_value_chars v hwhole.1 hsorted.2.1 (Value.membersOnto ('}' :: tail) ms)
        fuel (depth - 1) (ends_number_members tail ms) (by omega) (by omega)
      have hms := read_members_chars ms hwhole.2 hsorted.2.2 [(name, v)] tail fuel (depth - 1)
        hsorted.1.pairwise (by omega) (by omega)
      rw [Value.charsOnto]
      exact (read_value_brace (by omega) _ _).trans ((read_members_first hv).trans hms)

theorem read_elements_chars (vs : List Value) (hwhole : Value.allWhole vs = true)
    (hsorted : Value.allSorted vs = true) (read : List Value) (tail : List Char) (fuel depth : Nat)
    (hdepth : Value.elementsNesting vs < depth)
    (hfuel : 2 * (Value.elementsOnto (']' :: tail) vs).length < fuel) :
    readElements fuel depth read false (encode (Value.elementsOnto (']' :: tail) vs)) =
      .ok (.arr (read.reverse ++ vs), encode tail) := by
  obtain ⟨fuel, rfl⟩ : ∃ left, fuel = left + 1 := ⟨fuel - 1, by omega⟩
  cases vs with
  | nil =>
    have hchars : encode (Value.elementsOnto (']' :: tail) []) = 0x5D :: encode tail := rfl
    rw [hchars]
    simp [readElements, skipBlanks, isBlank]
  | cons v vs =>
    simp only [Value.allWhole, Bool.and_eq_true] at hwhole
    simp only [Value.allSorted, Bool.and_eq_true] at hsorted
    simp only [Value.elementsNesting] at hdepth
    simp only [Value.elementsOnto, List.length_cons] at hfuel
    have hlength := (chars_onto_suffix (Value.elementsOnto (']' :: tail) vs) v).length_le
    have hv := read_value_chars v hwhole.1 hsorted.1 (Value.elementsOnto (']' :: tail) vs) fuel
      depth (ends_number_elements tail vs) (by omega) (by omega)
    have hvs := read_elements_chars vs hwhole.2 hsorted.2 (v :: read) tail fuel depth (by omega)
      (by omega)
    rw [Value.elementsOnto, read_elements_next hwhole.1 hv, hvs]
    simp

theorem read_members_chars (ms : List (String × Value)) (hwhole : Value.membersWhole ms = true)
    (hsorted : Value.membersSorted ms = true) (read : Members) (tail : List Char) (fuel depth : Nat)
    (horder : (read ++ ms).Pairwise fun a b => a.1 < b.1)
    (hdepth : Value.membersNesting ms < depth)
    (hfuel : 2 * (Value.membersOnto ('}' :: tail) ms).length < fuel) :
    readMembers fuel depth read false (encode (Value.membersOnto ('}' :: tail) ms)) =
      .ok (.obj (read ++ ms), encode tail) := by
  cases ms with
  | nil =>
    obtain ⟨fuel, rfl⟩ : ∃ left, fuel = left + 1 := ⟨fuel - 1, by omega⟩
    have hchars : encode (Value.membersOnto ('}' :: tail) []) = 0x7D :: encode tail := rfl
    rw [hchars]
    simp [readMembers, skipBlanks, isBlank]
  | cons m ms =>
    obtain ⟨name, v⟩ := m
    simp only [Value.membersWhole, Bool.and_eq_true] at hwhole
    simp only [Value.membersSorted, Bool.and_eq_true] at hsorted
    simp only [Value.membersNesting] at hdepth
    simp only [Value.membersOnto, List.length_cons, List.length_append] at hfuel
    obtain ⟨fuel, rfl⟩ : ∃ left, fuel = left + 2 := ⟨fuel - 2, by omega⟩
    have hlength := (chars_onto_suffix (Value.membersOnto ('}' :: tail) ms) v).length_le
    -- Members come in the order of their names, so each is inserted behind those read before.
    have hlast : Members.insert name v read = read ++ [(name, v)] :=
      Members.insert_last v fun member hmember =>
        (List.pairwise_append.1 horder).2.2 member hmember (name, v) List.mem_cons_self
    have hv := read_value_chars v hwhole.1 hsorted.1 (Value.membersOnto ('}' :: tail) ms) fuel
      depth (ends_number_members tail ms) (by omega) (by omega)
    have hms := read_members_chars ms hwhole.2 hsorted.2 (read ++ [(name, v)]) tail fuel depth
      (by simpa using horder) (by omega) (by omega)
    rw [Value.membersOnto, read_members_next hv, hlast, hms]
    simp

end

/-- The compact text of a value is read as this value. -/
theorem parse_bytes (hwhole : v.isWhole = true) (hsorted : v.isSorted = true)
    (hnesting : v.nesting < depthLimit) : parse v.bytes = .ok v := by
  -- The fuel counts octets and what `read_value_chars` asks for counts characters.
  have hlength := length_le_encode v.chars
  have hread : readValue (3 * v.bytes.length + 3) depthLimit v.bytes = .ok (v, []) :=
    read_value_chars v hwhole hsorted [] _ _ trivial hnesting (by
      simp only [Value.bytes, Value.chars] at hlength ⊢
      omega)
  simp [parse, readDocument, hread, skipBlanks]

end CodeAtlas.Json
