import CodeAtlas.Json.Reader
import CodeAtlas.Proofs.Text.Utf8

/-!
# Reading back numbers and strings

The reader takes the octets that the printer writes for whole numbers (`read_number_digits`) and for
string literals (`read_text_quoted`) as the number and the text, and stops right behind them.
-/

namespace CodeAtlas.Json

open Utf8 (encode encodeChar encode_append encode_cons encode_char_ascii)

variable {rest : Bytes} {octet : UInt8} {c : Char}

/-! ## Whole numbers -/

/-- Whether octets behind a number end it: they are those of a comma or a bracket, or none. -/
def endsNumber : Bytes → Prop
  | [] => True
  | octet :: _ => octet = 0x2C ∨ octet = 0x5D ∨ octet = 0x7D

theorem digit_octet (h : c.isDigit = true) :
    encodeChar c = [c.toNat.toUInt8] ∧ digit? c.toNat.toUInt8 = some (c.toNat - 48) := by
  have hrange : 48 ≤ c.toNat ∧ c.toNat ≤ 57 := Char.isDigit_iff_toNat.1 h
  have hvalue : c.toNat.toUInt8.toNat = c.toNat := Utf8.to_nat_octet (by omega)
  refine ⟨encode_char_ascii (by omega), ?_⟩
  rw [digit?, if_pos, hvalue]
  simp only [UInt8.le_iff_toNat_le, hvalue]
  exact hrange

theorem digit_ends (h : endsNumber (octet :: rest)) : digit? octet = none := by
  rcases h with rfl | rfl | rfl <;> decide

/-- The digits of a number that fits a word are all taken. -/
theorem take_significand_digits {text : List Char} (hdigits : ∀ c ∈ text, c.isDigit = true)
    (significand taken : Nat) (hrest : endsNumber rest)
    (hfits : Nat.ofDigitChars 10 text significand < 2 ^ 64) :
    takeSignificand significand taken (encode text ++ rest) =
      (Nat.ofDigitChars 10 text significand, taken + text.length, rest) := by
  induction text generalizing significand taken with
  | nil =>
    cases rest with
    | nil => rfl
    | cons octet after => simp [encode, takeSignificand, digit_ends hrest]
  | cons c text ih =>
    obtain ⟨hoctet, hvalue⟩ := digit_octet (hdigits c List.mem_cons_self)
    rw [Nat.ofDigitChars_cons, Nat.mul_comm] at hfits ⊢
    have hfits' : significand * 10 + (c.toNat - 48) < 2 ^ 64 :=
      Nat.lt_of_le_of_lt (Text.le_of_digit_chars text _) hfits
    have htext := ih (fun d hd => hdigits d (List.mem_cons_of_mem c hd))
      (significand * 10 + (c.toNat - 48)) (taken + 1) hfits
    rw [encode_cons, hoctet, List.singleton_append, List.cons_append, takeSignificand]
    simp only [hvalue, if_pos hfits', htext, List.length_cons]
    congr 2
    omega

theorem read_after_digits_ends (negative : Bool) (significand : Nat) (hrest : endsNumber rest) :
    readAfterDigits negative significand rest = .ok (wholeNumber negative significand, rest) := by
  cases rest with
  | nil => rfl
  | cons octet after =>
    have hskip : skipDigits 0 (octet :: after) = (0, octet :: after) := by
      simp [skipDigits, digit_ends hrest]
    rcases hrest with rfl | rfl | rfl <;> simp [readAfterDigits, hskip]

/-- A natural that fits a word is read back from its digits. -/
theorem read_number_digits (negative : Bool) {n : Nat} (hfits : n < 2 ^ 64)
    (hrest : endsNumber rest) :
    readNumber negative (encode (Nat.toDigits 10 n) ++ rest) =
      .ok (wholeNumber negative n, rest) := by
  have hdigits : ∀ c ∈ Nat.toDigits 10 n, c.isDigit = true := fun c hc =>
    Nat.isDigit_of_mem_toDigits (by decide) (by decide) hc
  rcases Nat.eq_zero_or_pos n with rfl | hpos
  · have hnext : startsWithDigit rest = false := by
      cases rest with
      | nil => rfl
      | cons octet after => simp [startsWithDigit, digit_ends hrest]
    have hzero : encode (Nat.toDigits 10 0) = [0x30] := by decide
    rw [hzero, List.singleton_append, readNumber]
    simp only [show digit? 0x30 = some 0 from rfl, hnext]
    exact read_after_digits_ends negative 0 hrest
  · obtain ⟨d, text, htext, hd, hd'⟩ := Text.to_digits_head hpos
    have hvalue : Nat.ofDigitChars 10 (Nat.toDigits 10 n) 0 = n := Nat.ofDigitChars_ten_toDigits
    -- The first digit is read apart from the others, since a leading zero would end the number.
    rw [htext, Nat.ofDigitChars_cons_digitChar_of_lt_ten hd', Nat.mul_zero, Nat.zero_add] at hvalue
    rw [htext] at hdigits ⊢
    obtain ⟨hoctet, hdigit⟩ := digit_octet (hdigits _ List.mem_cons_self)
    rw [Nat.toNat_digitChar_sub_48_of_lt_ten hd'] at hdigit
    have htake := take_significand_digits (fun c hc => hdigits c (List.mem_cons_of_mem _ hc)) d 0
      hrest (by omega)
    rw [encode_cons, hoctet, List.singleton_append, List.cons_append, readNumber, hdigit]
    obtain ⟨e, rfl⟩ : ∃ e, d = e + 1 := ⟨d - 1, by omega⟩
    simp only [htake, hvalue]
    exact read_after_digits_ends negative n hrest

/-- The numbers that a 64-bit word holds, signed or not. -/
def fitsWord (n : Int) : Bool := decide (-2 ^ 63 ≤ n) && decide (n < 2 ^ 64)

/-! ## String literals -/

/-- Octets that stand for themselves in a string literal. -/
def isPlain (octet : UInt8) : Bool := decide (0x20 ≤ octet) && octet != 0x22 && octet != 0x5C

theorem read_string_plain (h : isPlain octet = true) (read rest : Bytes) :
    readString read (octet :: rest) = readString (octet :: read) rest := by
  simp only [isPlain, Bool.and_eq_true, decide_eq_true_eq, bne_iff_ne] at h
  obtain ⟨⟨hlow, hquote⟩, hslash⟩ := h
  rw [readString, if_neg (UInt8.not_lt.2 hlow)] <;> simp [hquote, hslash]

theorem read_string_plains {octets : Bytes} (h : ∀ octet ∈ octets, isPlain octet = true)
    (read rest : Bytes) :
    readString read (octets ++ rest) = readString (octets.reverse ++ read) rest := by
  induction octets generalizing read with
  | nil => rfl
  | cons octet octets ih =>
    rw [List.cons_append, read_string_plain (h octet List.mem_cons_self),
      ih (fun other hother => h other (List.mem_cons_of_mem octet hother))]
    simp

theorem read_string_letter {plain : UInt8} (h : simpleEscape? octet = some plain)
    (read rest : Bytes) :
    readString read (0x5C :: octet :: rest) = readString (plain :: read) rest := by
  have hletter : octet ≠ 0x75 := by
    rintro rfl
    cases h
  rw [readString] <;> simp [h, hletter]

/-- An escape with four digits stands for its character if it is no surrogate. -/
theorem read_string_unit {a b c d : UInt8} {unit : Nat} (h : hexUnit? a b c d = some unit)
    (hunit : unit < 0xD800) (read rest : Bytes) :
    readString read (0x5C :: 0x75 :: a :: b :: c :: d :: rest) =
      readString (pushScalar (Char.ofNat unit) read) rest := by
  have htrailing : isTrailing unit = false := by simp [isTrailing]; omega
  have hleading : isLeading unit = false := by simp [isLeading]; omega
  rw [readString]
  simp [h, htrailing, hleading]

theorem is_plain_octet {n : Nat} (hlow : 0x20 ≤ n) (hhigh : n < 256) (hquote : n ≠ 0x22)
    (hslash : n ≠ 0x5C) : isPlain n.toUInt8 = true := by
  have hvalue := Utf8.to_nat_octet hhigh
  simp only [isPlain, Bool.and_eq_true, decide_eq_true_eq, bne_iff_ne, UInt8.le_iff_toNat_le,
    ne_eq, ← UInt8.toNat_inj, hvalue]
  exact ⟨⟨hlow, hquote⟩, hslash⟩

theorem encode_char_plain (hlow : 32 ≤ c.toNat) (hquote : c.toNat ≠ 0x22)
    (hslash : c.toNat ≠ 0x5C) : ∀ octet ∈ encodeChar c, isPlain octet = true := by
  have hlimit := Utf8.to_nat_lt c
  simp only [encodeChar]
  split_ifs <;> simp only [List.forall_mem_cons, List.not_mem_nil, IsEmpty.forall_iff,
    implies_true, and_true] <;> and_intros <;> apply is_plain_octet <;> omega

/-- A control character is read back from the two digits that differ. -/
theorem hex_unit_control : ∀ n < 32,
    encode ['\\', 'u', '0', '0', hexDigit (n / 16), hexDigit n] =
        [0x5C, 0x75, 0x30, 0x30, (hexDigit (n / 16)).toNat.toUInt8, (hexDigit n).toNat.toUInt8] ∧
      hexUnit? 0x30 0x30 (hexDigit (n / 16)).toNat.toUInt8 (hexDigit n).toNat.toUInt8 = some n := by
  decide

theorem read_string_escape_char (c : Char) (read rest : Bytes) :
    readString read (encode (escapeChar c) ++ rest) =
      readString ((encodeChar c).reverse ++ read) rest := by
  have hnumber {n : Nat} (h : c.toNat = n) : c = Char.ofNat n := by rw [← h, Char.ofNat_toNat]
  fun_cases escapeChar c with
  | case6 _ _ _ _ _ _ hback =>
    obtain rfl := hnumber hback
    exact read_string_letter rfl _ _
  | case7 _ _ _ _ _ _ _ hfeed =>
    obtain rfl := hnumber hfeed
    exact read_string_letter rfl _ _
  | case8 _ _ _ _ _ _ _ _ hcontrol =>
    obtain ⟨hoctets, hunit⟩ := hex_unit_control c.toNat hcontrol
    rw [hoctets]
    refine (read_string_unit hunit (by omega) read rest).trans ?_
    rw [Char.ofNat_toNat, pushScalar]
  | case9 _ hquote hslash _ _ _ _ _ hcontrol =>
    rw [encode_cons, show encode [] = [] from rfl, List.append_nil]
    exact read_string_plains (encode_char_plain (by omega) (fun h => hquote (hnumber h))
      (fun h => hslash (hnumber h))) read rest
  | _ => exact read_string_letter rfl _ _

theorem read_string_escapes (text : List Char) (read rest : Bytes) :
    readString read (encode (text.flatMap escapeChar) ++ rest) =
      readString ((encode text).reverse ++ read) rest := by
  induction text generalizing read with
  | nil => rfl
  | cons c text ih =>
    rw [List.flatMap_cons, encode_append, List.append_assoc, read_string_escape_char, ih,
      encode_cons, List.reverse_append, List.append_assoc]

theorem read_text_quoted (text : String) (rest : Bytes) :
    readText (encode (text.toList.flatMap escapeChar ++ ['"']) ++ rest) = .ok (text, rest) := by
  have hread : readString [] (encode (text.toList.flatMap escapeChar ++ ['"']) ++ rest) =
      .ok (encode text.toList, rest) := by
    rw [encode_append, List.append_assoc, read_string_escapes, List.append_nil]
    simp [encode, encodeChar, readString]
  simp only [readText, hread, Utf8.decode_encode, String.ofList_toList]

end CodeAtlas.Json
