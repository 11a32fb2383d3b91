import CodeAtlas.Text.Basic
import Mathlib

/-!
# Reading back what was written in UTF-8

`decode_encode` says that the octets of a text read as that text. `decode_onto_encode_char` is the
step it rests on: the octets of one code point are read as this code point, whatever follows.
Conversely, octets that are read as a text are those of the text (`encode_decode`), since each code
point is read from its own octets only. Texts are in the order of their octets (`values_lt_iff`).
-/

namespace CodeAtlas.Text

/-- A run of digits is read from left to right, onto what has been read before. -/
theorem digits_fold {text : List Char} (h : ∀ c ∈ text, c.isDigit = true) (read : Nat) :
    text.foldl (fun sum c => do
      let sum ← sum
      if c.isDigit then some (sum * 10 + (c.toNat - 48)) else none) (some read) =
    some (Nat.ofDigitChars 10 text read) := by
  induction text generalizing read with
  | nil => simp
  | cons c rest ih =>
    have hrest := ih (fun d hd => h d (List.mem_cons_of_mem c hd)) (read * 10 + (c.toNat - 48))
    rw [Nat.ofDigitChars_cons, Nat.mul_comm 10 read]
    simpa [h c List.mem_cons_self] using hrest

theorem digits_value_to_digits (n : Nat) : digitsValue? (Nat.toDigits 10 n) = some n := by
  have hdigits : ∀ c ∈ Nat.toDigits 10 n, c.isDigit = true := fun c hc =>
    Nat.isDigit_of_mem_toDigits (by decide) (by decide) hc
  have hsome : (Nat.toDigits 10 n).isEmpty = false := by simp [Nat.toDigits_ne_nil]
  simp only [digitsValue?, hsome, digits_fold hdigits, Nat.ofDigitChars_ten_toDigits]
  rfl

theorem nat_below_to_digits {bound n : Nat} (h : n < bound) :
    natBelow? bound (Nat.toDigits 10 n) = some n := by
  have hsign : ∀ rest, Nat.toDigits 10 n ≠ '+' :: rest := by
    intro rest hrest
    have hplus : '+' ∈ Nat.toDigits 10 n := by simp [hrest]
    exact absurd (Nat.isDigit_of_mem_toDigits (by decide) (by decide) hplus) (by decide)
  unfold natBelow?
  split
  next rest hrest => exact absurd hrest (hsign rest)
  next => simp [digits_value_to_digits, h]

theorem to_digits_head {n : Nat} (h : 0 < n) :
    ∃ d rest, Nat.toDigits 10 n = Nat.digitChar d :: rest ∧ 0 < d ∧ d < 10 := by
  induction n using Nat.base_induction 10 (by decide) with
  | single m hm => exact ⟨m, [], Nat.toDigits_of_lt_base hm, h, hm⟩
  | digit m k hk hm ih =>
    obtain ⟨d, rest, hrest, hd⟩ := ih hm
    refine ⟨d, rest ++ Nat.toDigits 10 k, ?_, hd⟩
    rw [← Nat.toDigits_append_toDigits (by decide) hm hk, hrest, List.cons_append]

theorem le_of_digit_chars (text : List Char) (read : Nat) :
    read ≤ Nat.ofDigitChars 10 text read := by
  rw [Nat.ofDigitChars_eq_ofDigitChars_zero]
  exact Nat.le_trans (Nat.le_mul_of_pos_left read (Nat.pow_pos (by decide))) (Nat.le_add_right _ _)

end CodeAtlas.Text

namespace CodeAtlas.Utf8

variable {n : Nat} (read : List Char)

theorem to_nat_octet (h : n < 256) : n.toUInt8.toNat = n := by
  rw [Nat.toUInt8_eq, UInt8.toNat_ofNat']
  omega

theorem to_nat_lt (c : Char) : c.toNat < 0x110000 := by
  rcases c.valid with h | h
  · exact Nat.lt_trans h (by decide)
  · exact h.2

theorem bits_of_octet (n : Nat) : (0x80 + n % 0x40).toUInt8.toNat % 0x40 = n % 0x40 := by
  rw [to_nat_octet (by omega)]
  omega

theorem guess_encode_char (c : Char) (rest : Bytes) : guess (encodeChar c ++ rest) = c := by
  have hlimit := to_nat_lt c
  simp only [encodeChar]
  split_ifs with hone htwo hthree <;>
    simp only [guess, List.cons_append, List.getD_cons_zero, List.getD_cons_succ, bits_of_octet]
  · rw [to_nat_octet (by omega), if_pos hone, Char.ofNat_toNat]
  · rw [to_nat_octet (by omega), if_neg (by omega), if_pos (by omega)]
    exact (congrArg Char.ofNat (by omega)).trans (Char.ofNat_toNat c)
  · rw [to_nat_octet (by omega), if_neg (by omega), if_neg (by omega), if_pos (by omega)]
    exact (congrArg Char.ofNat (by omega)).trans (Char.ofNat_toNat c)
  · rw [to_nat_octet (by omega), if_neg (by omega), if_neg (by omega), if_neg (by omega)]
    exact (congrArg Char.ofNat (by omega)).trans (Char.ofNat_toNat c)

/-- A code point is read exactly if its octets are at the front. -/
theorem first_eq_some_iff {octets : Bytes} {c : Char} :
    first? octets = some c ↔ encodeChar c <+: octets := by
  rw [first?]
  constructor
  · intro h
    split at h <;> cases h
    next hfront => exact List.isPrefixOf_iff_prefix.mp hfront
  · rintro ⟨rest, rfl⟩
    rw [guess_encode_char]
    exact if_pos (List.isPrefixOf_iff_prefix.mpr (List.prefix_append _ _))

theorem decode_onto_skip (front rest : Bytes) :
    decodeOnto read front.length (front ++ rest) = decodeOnto read 0 rest := by
  induction front with
  | nil => rfl
  | cons _ _ ih => exact ih

theorem encode_char_cons (c : Char) : ∃ lead tail, encodeChar c = lead :: tail := by
  fun_cases encodeChar <;> exact ⟨_, _, rfl⟩

/-- The octets of a code point are read as this code point, whatever follows them. -/
theorem decode_onto_encode_char (c : Char) (rest : Bytes) :
    decodeOnto read 0 (encodeChar c ++ rest) = decodeOnto (c :: read) 0 rest := by
  have hfirst := first_eq_some_iff.mpr (List.prefix_append (encodeChar c) rest)
  obtain ⟨lead, tail, hoctets⟩ := encode_char_cons c
  rw [hoctets] at hfirst ⊢
  rw [List.cons_append] at hfirst ⊢
  rw [decodeOnto, hfirst]
  dsimp only
  rw [hoctets]
  exact decode_onto_skip (c :: read) tail rest

theorem decode_onto_encode (read text : List Char) :
    decodeOnto read 0 (encode text) = (read.reverse ++ text, []) := by
  induction text generalizing read with
  | nil => simp [encode, decodeOnto]
  | cons c rest ih =>
    rw [encode, List.flatMap_cons, decode_onto_encode_char]
    simpa [encode] using ih (c :: read)

theorem decode_encode (text : List Char) : decode? (encode text) = some text := by
  simp [decode?, decodePrefix, decode_onto_encode]

/-! ## What is read is what was written -/

/-- The code points that were read and the octets behind them make up what was there. -/
theorem encode_decode_onto (skip : Nat) (octets : Bytes) :
    encode (decodeOnto read skip octets).1 ++ (decodeOnto read skip octets).2 =
      encode read.reverse ++ octets.drop skip := by
  fun_induction decodeOnto read skip octets with
  | case1 => rw [List.drop_nil]
  | case2 _ _ _ _ ih => exact ih
  | case3 read octet rest c hfirst ih =>
    obtain ⟨behind, hbehind⟩ := first_eq_some_iff.mp hfirst
    obtain ⟨lead, tail, hoctets⟩ := encode_char_cons c
    rw [hoctets, List.cons_append, List.cons.injEq] at hbehind
    obtain ⟨rfl, rfl⟩ := hbehind
    rw [ih, hoctets, List.length_cons, Nat.add_sub_cancel, List.drop_left]
    simp [encode, hoctets]
  | case4 => rfl

theorem encode_decode {bytes : Bytes} {text : List Char} (h : decode? bytes = some text) :
    encode text = bytes := by
  have hwhole := encode_decode_onto [] 0 bytes
  unfold decode? decodePrefix at h
  split at h
  · next heq =>
    cases h
    rw [heq] at hwhole
    simpa [encode] using hwhole
  · cases h

/-! ## Order -/

/-- The octets of a text as numbers. -/
def values (text : List Char) : List Nat := (encode text).map UInt8.toNat

/-- The octets of a lower code point come first, whatever follows them. -/
theorem encode_char_lt {c d : Char} (h : c < d) (x y : List Nat) :
    (encodeChar c).map UInt8.toNat ++ x < (encodeChar d).map UInt8.toNat ++ y := by
  have hlt : c.toNat < d.toNat := h
  have hlimit := to_nat_lt d
  simp only [encodeChar]
  split_ifs <;> simp only [List.map_cons, List.map_nil, List.cons_append, List.nil_append,
    List.cons_lt_cons_iff] <;> repeat rw [to_nat_octet (by omega)]
  all_goals omega

theorem values_cons (c : Char) (text : List Char) :
    values (c :: text) = (encodeChar c).map UInt8.toNat ++ values text := by
  simp [values, encode]

theorem values_strict_mono : StrictMono values := by
  intro a b h
  induction h with
  | @nil c text =>
    rw [values_cons]
    have hfirst : (encodeChar c).map UInt8.toNat ≠ [] := by
      rw [encodeChar]
      split_ifs <;> simp
    obtain ⟨n, rest, hvalues⟩ := List.exists_cons_of_ne_nil hfirst
    rw [hvalues]
    exact List.nil_lt_cons ..
  | cons _ ih =>
    rw [values_cons, values_cons]
    exact List.append_left_lt ih
  | rel h =>
    rw [values_cons, values_cons]
    exact encode_char_lt h _ _

theorem values_lt_iff {a b : List Char} : values a < values b ↔ a < b :=
  values_strict_mono.lt_iff_lt

/-! ## Octets of characters -/

section Octets

variable {c d : Char} {text : List Char} {front back : Bytes}

theorem encode_append (front back : List Char) :
    encode (front ++ back) = encode front ++ encode back := by
  simp [encode]

theorem encode_cons (c : Char) (rest : List Char) :
    encode (c :: rest) = encodeChar c ++ encode rest := by
  simp [encode]

theorem encode_char_ascii (h : c.toNat < 0x80) : encodeChar c = [c.toNat.toUInt8] := by
  simp [encodeChar, h]

theorem high_octet (h : 0x80 ≤ c.toNat) : ∀ octet ∈ encodeChar c, 0x80 ≤ octet.toNat := by
  have hlimit := to_nat_lt c
  have hoctet {n : Nat} (hlow : 0x80 ≤ n) (hhigh : n < 256) : 0x80 ≤ n.toUInt8.toNat := by
    rwa [to_nat_octet hhigh]
  simp only [encodeChar, if_neg (Nat.not_lt.mpr h)]
  split_ifs <;> simp only [List.forall_mem_cons, List.not_mem_nil, IsEmpty.forall_iff,
    implies_true, and_true] <;> and_intros <;> apply hoctet <;> omega

/-- An octet below 0x80 stands for a character of its own. -/
theorem eq_of_mem_encode_char (hc : c.toNat < 0x80) (h : c.toNat.toUInt8 ∈ encodeChar d) :
    d = c := by
  have hvalue : c.toNat.toUInt8.toNat = c.toNat := to_nat_octet (by omega)
  have hlow : d.toNat < 0x80 := by
    by_contra hhigh
    have hmem := high_octet (Nat.le_of_not_lt hhigh) _ h
    omega
  rw [encode_char_ascii hlow, List.mem_singleton] at h
  rw [h, to_nat_octet (by omega)] at hvalue
  exact Char.toNat_inj.mp hvalue

/-- An octet below 0x80 splits a text where its character does. -/
theorem encode_split (hc : c.toNat < 0x80) (h : encode text = front ++ c.toNat.toUInt8 :: back) :
    ∃ before after, text = before ++ c :: after ∧ front = encode before ∧ back = encode after := by
  induction text generalizing front with
  | nil => simp [encode] at h
  | cons d text ih =>
    have hrest {more : Bytes} (hmore : encode text = more ++ c.toNat.toUInt8 :: back)
        (hfront : front = encodeChar d ++ more) : ∃ before after,
        d :: text = before ++ c :: after ∧ front = encode before ∧ back = encode after := by
      obtain ⟨before, after, rfl, rfl, rfl⟩ := ih hmore
      exact ⟨d :: before, after, rfl, hfront.trans (encode_cons d before).symm, rfl⟩
    rw [encode_cons] at h
    rcases List.append_eq_append_iff.mp h with ⟨more, hfront, hmore⟩ | ⟨more, hd, hmore⟩
    · exact hrest hmore hfront
    · cases more with
      | nil =>
        have hmore : encode text = [] ++ c.toNat.toUInt8 :: back := hmore.symm
        exact hrest hmore (by rw [hd, List.append_nil, List.append_nil])
      | cons octet more =>
        obtain ⟨rfl, hback⟩ := List.cons.inj hmore
        have hmem : c.toNat.toUInt8 ∈ encodeChar d := by simp [hd]
        obtain rfl := eq_of_mem_encode_char hc hmem
        rw [encode_char_ascii hc, List.singleton_eq_append_iff] at hd
        obtain ⟨rfl, hd⟩ | ⟨-, hd⟩ := hd
        · obtain ⟨-, rfl⟩ := List.cons.inj hd
          exact ⟨[], text, rfl, rfl, hback⟩
        · cases hd

end Octets

end CodeAtlas.Utf8

namespace CodeAtlas

/-- Octets are read as a text exactly if they are those of the text. -/
theorem text_eq_some_iff {bytes : Bytes} {text : String} :
    text? bytes = some text ↔ octets text = bytes := by
  rw [text?, Option.map_eq_some_iff]
  constructor
  · rintro ⟨chars, hchars, rfl⟩
    rw [octets, String.toList_ofList]
    exact Utf8.encode_decode hchars
  · rintro rfl
    exact ⟨text.toList, Utf8.decode_encode _, String.ofList_toList⟩

theorem octets_append (front back : String) :
    octets (front ++ back) = octets front ++ octets back := by
  rw [octets, String.toList_append]
  exact Utf8.encode_append _ _

end CodeAtlas
