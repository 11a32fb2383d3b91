import CodeAtlas.Json.Reader
import Mathlib.Data.List.Basic

/-!
# Letters in JSON texts

Outside of string literals a JSON text has few letters, and a c is not among them. `Uses` lists what
the readers of the parts of a text go past; the readers of values share their fuel, and by induction
on it they use no more (`readers_use`). A c in a text therefore has a quote before it, and no
control character in between (`parse_opens`).
-/

namespace CodeAtlas.Json

/-- Whether an octet is that of a small or a capital c. -/
def isC (octet : UInt8) : Bool := octet == 0x63 || octet == 0x43

/-- What stands in `input` before `rest` is a string literal without its opening quote. -/
def Closes (input rest : Bytes) : Prop :=
  ∃ content, input = content ++ 0x22 :: rest ∧ ∀ octet ∈ content, 0x20 ≤ octet

/-- What stands in `input` before `rest` are string literals and octets that are no c. -/
inductive Uses : Bytes → Bytes → Prop where
  | done (rest : Bytes) : Uses rest rest
  | octet {octet : UInt8} {input rest : Bytes} (hoctet : isC octet = false) (h : Uses input rest) :
    Uses (octet :: input) rest
  | literal {input middle rest : Bytes} (hliteral : Closes input middle) (h : Uses middle rest) :
    Uses (0x22 :: input) rest

def Reads {α : Type} (input : Bytes) (reading : Reading α) : Prop :=
  ∀ a rest, reading = .ok (a, rest) → Uses input rest

section Used

variable {input middle rest : Bytes} {octet : UInt8} (negative : Bool) (significand : Nat)

theorem Uses.trans (h : Uses input middle) (hrest : Uses middle rest) : Uses input rest := by
  induction h with
  | done => exact hrest
  | octet hoctet _ ih => exact .octet hoctet (ih hrest)
  | literal hliteral _ ih => exact .literal hliteral (ih hrest)

theorem Uses.step (h : Uses input (octet :: rest)) (hoctet : isC octet = false) : Uses input rest :=
  h.trans (.octet hoctet (.done rest))

/-- A c that is used is in a string literal. -/
theorem Uses.opens {front back : Bytes} (h : Uses (front ++ octet :: back) [])
    (hoctet : isC octet = true) :
    ∃ before content, front = before ++ 0x22 :: content ∧ ∀ other ∈ content, 0x20 ≤ other := by
  generalize hinput : front ++ octet :: back = input at h
  generalize hrest : ([] : Bytes) = rest at h
  have hquote : octet ≠ 0x22 := by
    rintro rfl
    cases hoctet
  induction h generalizing front with
  | done => simp [← hrest] at hinput
  | octet hother _ ih =>
    cases front with
    | nil =>
      cases hinput
      rw [hoctet] at hother
      cases hother
    | cons _ front =>
      obtain ⟨before, content, rfl, hcontent⟩ := ih (List.cons.inj hinput).2 hrest
      exact ⟨_ :: before, content, rfl, hcontent⟩
  | literal hliteral _ ih =>
    obtain ⟨content, rfl, hcontent⟩ := hliteral
    cases front with
    | nil => exact absurd (List.cons.inj hinput).1 hquote
    | cons _ front =>
      obtain ⟨rfl, htail⟩ := List.cons.inj hinput
      -- the c is in this literal, or behind it
      rcases List.append_eq_append_iff.mp htail with ⟨more, rfl, hback⟩ | ⟨more, rfl, hback⟩
      · exact ⟨[], front, rfl,
          fun other hother => hcontent other (List.mem_append_left _ hother)⟩
      · cases more with
        | nil => exact absurd (List.cons.inj hback).1.symm hquote
        | cons _ more =>
          obtain ⟨rfl, hmiddle⟩ := List.cons.inj hback
          obtain ⟨before, last, rfl, hlast⟩ := ih hmiddle.symm hrest
          exact ⟨0x22 :: content ++ 0x22 :: before, last, by simp, hlast⟩

/-! ## Numbers and words -/

attribute [local grind →] Uses.trans Uses.step
attribute [local grind .] Uses.done Uses.octet

theorem skip_blanks_uses (input : Bytes) : Uses input (skipBlanks input) := by
  fun_induction skipBlanks input <;> grind [isBlank, isC]

theorem take_significand_uses (significand taken : Nat) (input : Bytes) :
    Uses input (takeSignificand significand taken input).2.2 := by
  fun_induction takeSignificand significand taken input <;> grind [digit?, isC]

theorem skip_digits_uses (skipped : Nat) (input : Bytes) :
    Uses input (skipDigits skipped input).2 := by
  fun_induction skipDigits skipped input <;> grind [digit?, isC]

theorem take_exponent_uses {start exponent : Nat}
    (h : takeExponent start input = .ok (exponent, rest)) : Uses input rest := by
  fun_induction takeExponent start input <;> grind [digit?, isC]

theorem take_exponent_error_uses {start : Nat} (h : takeExponent start input = .error rest) :
    Uses input rest := by
  fun_induction takeExponent start input <;> grind [digit?, isC]

theorem finish_real_reads (exponent : Int) (rest : Bytes) :
    Reads rest (finishReal negative significand exponent rest) := by
  fun_cases finishReal <;> grind [Reads, failAt]

theorem read_exponent_reads (start : Int) (input : Bytes) :
    Reads input (readExponent negative significand start input) := by
  fun_cases readExponent <;> grind [Reads, failAt, digit?, isC, finish_real_reads, skip_digits_uses,
    → take_exponent_uses, → take_exponent_error_uses]

theorem read_scale_reads (exponent : Int) (input : Bytes) :
    Reads input (readScale negative significand exponent input) := by
  fun_cases readScale <;> grind [Reads, isC, read_exponent_reads, finish_real_reads]

theorem read_fraction_reads (exponent : Int)
    (input : Bytes) : Reads input (readFraction negative significand exponent input) := by
  fun_cases readFraction <;>
    grind [Reads, failPeek, read_scale_reads, take_significand_uses, skip_digits_uses]

theorem read_after_digits_reads (input : Bytes) :
    Reads input (readAfterDigits negative significand input) := by
  fun_cases readAfterDigits <;>
    grind [Reads, isC, read_fraction_reads, read_exponent_reads, finish_real_reads,
      skip_digits_uses]

theorem read_number_reads (input : Bytes) : Reads input (readNumber negative input) := by
  fun_cases readNumber <;>
    grind [Reads, failAt, failPeek, digit?, isC, read_after_digits_reads, take_significand_uses]

theorem read_word_reads (value : Value) {expected : Bytes}
    (h : ∀ octet ∈ expected, isC octet = false) (input : Bytes) :
    Reads input (readWord value expected input) := by
  fun_induction readWord value expected input <;> grind [Reads, failAt]

/-! ## Strings -/

theorem Closes.append {front : Bytes} (hfront : ∀ octet ∈ front, 0x20 ≤ octet)
    (h : Closes input rest) : Closes (front ++ input) rest := by
  obtain ⟨content, rfl, hcontent⟩ := h
  exact ⟨front ++ content, by simp, List.forall_mem_append.mpr ⟨hfront, hcontent⟩⟩

theorem printable_of_escape {plain : UInt8} (h : simpleEscape? octet = some plain) :
    0x20 ≤ octet := by
  grind [simpleEscape?]

theorem printable_of_unit {a b c d : UInt8} {unit : Nat} (h : hexUnit? a b c d = some unit) :
    ∀ octet ∈ [0x5C, 0x75, a, b, c, d], 0x20 ≤ octet := by
  have hdigit {octet : UInt8} {n : Nat} (h : hexDigit? octet = some n) : 0x20 ≤ octet := by
    grind [hexDigit?]
  simp only [hexUnit?, bind, Option.bind_eq_some_iff] at h
  obtain ⟨_, ha, _, hb, _, hc, _, hd, _⟩ := h
  simp [hdigit ha, hdigit hb, hdigit hc, hdigit hd]

/-- A string literal has no control characters. -/
theorem read_string_closes {read out : Bytes} (h : readString read input = .ok (out, rest)) :
    Closes input rest := by
  fun_induction readString read input with
  | case2 =>
    cases h
    exact ⟨[], rfl, List.forall_mem_nil _⟩
  | case6 read a b c d _ hunit _ _ e f g k rest _ hsecond _ ih =>
    exact ((ih h).append (printable_of_unit hsecond)).append (printable_of_unit hunit)
  | case13 read a b c d rest _ hunit _ _ ih => exact (ih h).append (printable_of_unit hunit)
  | case16 read octet _ _ _ _ hescape ih =>
    have hletter : ∀ other ∈ [0x5C, octet], 0x20 ≤ other := by
      simpa using printable_of_escape hescape
    exact (ih h).append hletter
  | case19 read octet _ _ _ _ _ _ hplain ih =>
    have hoctet : ∀ other ∈ [octet], 0x20 ≤ other := by simpa using hplain
    exact (ih h).append hoctet
  | _ => cases h

theorem read_text_reads (input : Bytes) : Reads (0x22 :: input) (readText input) := by
  intro text rest h
  rw [readText] at h
  split at h
  · cases h
  next hread =>
    split at h <;> cases h
    exact .literal (read_string_closes hread) (.done _)

/-! ## Values -/

section Values

variable {fuel : Nat} (hvalue : ∀ depth input, Reads input (readValue fuel depth input))
  (helements : ∀ depth read first input, Reads input (readElements fuel depth read first input))
  (hmembers : ∀ depth read first input, Reads input (readMembers fuel depth read first input))
  (hmember : ∀ depth read input, Reads (0x22 :: input) (readMember fuel depth read input))

include helements hmembers in
theorem read_value_reads (depth : Nat) (input : Bytes) :
    Reads input (readValue (fuel + 1) depth input) := by
  have hblanks := skip_blanks_uses input
  rw [readValue]
  split
  · grind [Reads, failPeek]
  next octet rest heq =>
    rw [heq] at hblanks
    grind [Reads, failAt, isC, read_word_reads, read_number_reads, read_text_reads]

include hvalue helements in
theorem read_elements_reads (depth : Nat) (read : List Value) (first : Bool) (input : Bytes) :
    Reads input (readElements (fuel + 1) depth read first input) := by
  have hblanks := skip_blanks_uses input
  rw [readElements]
  split
  · grind [Reads, failPeek]
  next octet rest heq =>
    rw [heq] at hblanks
    grind [Reads, failAt, failPeek, isC, skip_blanks_uses]

include hmember in
theorem read_members_reads (depth : Nat) (read : Members) (first : Bool) (input : Bytes) :
    Reads input (readMembers (fuel + 1) depth read first input) := by
  have hblanks := skip_blanks_uses input
  rw [readMembers]
  split
  · grind [Reads, failPeek]
  next octet rest heq =>
    rw [heq] at hblanks
    grind [Reads, failAt, failPeek, isC, skip_blanks_uses]

include hvalue hmembers in
theorem read_member_reads (depth : Nat) (read : Members) (input : Bytes) :
    Reads (0x22 :: input) (readMember (fuel + 1) depth read input) := by
  rw [readMember]
  grind [Reads, failAt, failPeek, isC, read_text_reads, skip_blanks_uses]

end Values

theorem readers_use (fuel : Nat) : (∀ depth input, Reads input (readValue fuel depth input)) ∧
    (∀ depth read first input, Reads input (readElements fuel depth read first input)) ∧
    (∀ depth read first input, Reads input (readMembers fuel depth read first input)) ∧
    ∀ depth read input, Reads (0x22 :: input) (readMember fuel depth read input) := by
  induction fuel with
  | zero => simp [readValue, readElements, readMembers, readMember, failPeek, Reads]
  | succ fuel ih =>
    obtain ⟨hvalue, helements, hmembers, hmember⟩ := ih
    exact ⟨read_value_reads helements hmembers, read_elements_reads hvalue helements,
      read_members_reads hmember, read_member_reads hvalue hmembers⟩

/-- A c in a JSON text is in a string literal: there is a quote before it, and no control character
in between. -/
theorem parse_opens {value : Value} {front back : Bytes}
    (h : parse (front ++ octet :: back) = .ok value) (hoctet : isC octet = true) :
    ∃ before content, front = before ++ 0x22 :: content ∧ ∀ other ∈ content, 0x20 ≤ other := by
  suffices huses : Uses (front ++ octet :: back) [] from huses.opens hoctet
  generalize front ++ octet :: back = input at h ⊢
  have hvalue := (readers_use (3 * input.length + 3)).1 depthLimit input
  rw [parse, readDocument] at h
  cases hread : readValue (3 * input.length + 3) depthLimit input with
  | error => simp [hread] at h
  | ok result =>
    have hblanks := skip_blanks_uses result.2
    cases hskip : skipBlanks result.2 with
    | nil => exact (hvalue _ _ hread).trans (hskip ▸ hblanks)
    | cons => simp [hread, hskip, failAt] at h

end Used

end CodeAtlas.Json
