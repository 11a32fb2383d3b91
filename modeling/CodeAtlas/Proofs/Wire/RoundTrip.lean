import CodeAtlas.Proofs.Json.RoundTrip
import CodeAtlas.Proofs.Wire.Chunks

/-!
# Frames that are sent are received

`next_encode` says that a buffer gives the value whose frame it starts with, whatever follows.
`take_encoded` carries this over to a buffer that holds the frames of several values and more octets
behind them: each value comes out in its turn, and the rest stays.
-/

namespace CodeAtlas.Wire

open Json (Value)

/-! ## The header of a frame -/

variable (length : Nat)

/-- The header line for a body of `length` octets. -/
def lengthHeader : List Char := "Content-Length: ".toList ++ Nat.toDigits 10 length

theorem encode_eq (value : Value) :
    encode value =
      Utf8.encode (lengthHeader value.bytes.length) ++ terminator ++ value.bytes := by
  have hdigits : (toString value.bytes.length).toList = Nat.toDigits 10 value.bytes.length :=
    Nat.toList_repr
  have htext : s!"Content-Length: {value.bytes.length}\r\n\r\n".toList =
      lengthHeader value.bytes.length ++ "\r\n\r\n".toList := by
    rw [String.toList_append, String.toList_append, hdigits]
    rfl
  have hend : Utf8.encode "\r\n\r\n".toList = terminator := by decide
  rw [encode, octets, htext, Utf8.encode_append, hend]

/-- A terminator behind octets without carriage returns is found where it is. -/
theorem split_header_onto_terminator {front : Bytes} (h : 0x0D ∉ front) (seen after : Bytes) :
    splitHeaderOnto seen (front ++ terminator ++ after) = some (seen.reverse ++ front, after) := by
  -- Only a carriage return can start a terminator, so none is found before the end of `front`.
  induction front generalizing seen with
  | nil => simp [terminator, splitHeaderOnto]
  | cons octet front ih =>
    have hoctet : octet ≠ 0x0D := fun heq => h (heq ▸ List.mem_cons_self)
    have hfront := ih (fun hmem => h (List.mem_cons_of_mem octet hmem)) (octet :: seen)
    rw [List.cons_append, List.cons_append, splitHeaderOnto.eq_2]
    · simpa using hfront
    · intro rest heq
      exact absurd heq hoctet

theorem lines_eq_singleton {text : List Char} (h : ¬ ['\r', '\n'] <:+: text)
    (current : List Char) : lines current text = [current.reverse ++ text] := by
  induction text generalizing current with
  | nil => simp [lines]
  | cons c text ih =>
    have htext := ih (fun hbreak => h (hbreak.trans (List.suffix_cons c text).isInfix))
      (c :: current)
    rw [lines.eq_2]
    · simpa using htext
    · rintro rest rfl rfl
      exact h (List.prefix_append ['\r', '\n'] rest).isInfix

theorem unbroken_of_no_return {text : List Char} (h : '\r' ∉ text) : ¬ ['\r', '\n'] <:+: text :=
  fun hbreak => h (hbreak.subset List.mem_cons_self)

theorem split_once_append {mark : Char} {before : List Char} (h : mark ∉ before)
    (after : List Char) :
    Text.splitOnce? mark (before ++ mark :: after) = some (before, after) := by
  induction before with
  | nil => simp [Text.splitOnce?]
  | cons c before ih =>
    have hc : c ≠ mark := fun heq => h (heq ▸ List.mem_cons_self)
    simp [Text.splitOnce?, hc, ih fun hmem => h (List.mem_cons_of_mem c hmem)]

theorem not_blank_of_digit {c : Char} (h : c.isDigit = true) : Text.isBlank c = false := by
  have hrange : 48 ≤ c.toNat ∧ c.toNat ≤ 57 := Char.isDigit_iff_toNat.1 h
  simp only [Text.isBlank, Bool.or_eq_false_iff, Bool.and_eq_false_iff, decide_eq_false_iff_not,
    beq_eq_false_iff_ne]
  omega

theorem drop_while_digits {text : List Char} (h : ∀ c ∈ text, c.isDigit = true) :
    text.dropWhile Text.isBlank = text := by
  cases text with
  | nil => rfl
  | cons c text => simp [List.dropWhile, not_blank_of_digit (h c List.mem_cons_self)]

theorem trim_blank_digits {text : List Char} (h : ∀ c ∈ text, c.isDigit = true) :
    Text.trim (' ' :: text) = text := by
  have hstart : Text.trimStart (' ' :: text) = text := drop_while_digits h
  have hreverse : ∀ c ∈ text.reverse, c.isDigit = true := fun c hc => h c (List.mem_reverse.1 hc)
  rw [Text.trim, hstart, Text.trimEnd, drop_while_digits hreverse, List.reverse_reverse]

theorem length_digits : ∀ c ∈ Nat.toDigits 10 length, c.isDigit = true := fun _ hc =>
  Nat.isDigit_of_mem_toDigits (by decide) (by decide) hc

theorem return_not_mem_header : '\r' ∉ lengthHeader length := by
  intro hmem
  rcases List.mem_append.1 hmem with hmem | hmem
  · exact absurd hmem (by decide)
  · exact absurd (length_digits length _ hmem) (by decide)

theorem return_not_mem_encoded : 0x0D ∉ Utf8.encode (lengthHeader length) := by
  have hparts : Utf8.encode (lengthHeader length) =
      Utf8.encode "Content-Length: ".toList ++ Utf8.encode (Nat.toDigits 10 length) :=
    Utf8.encode_append _ _
  intro hmem
  rw [hparts, List.mem_append] at hmem
  rcases hmem with hmem | hmem
  · revert hmem
    decide
  · obtain ⟨c, hc, hoctet⟩ := List.mem_flatMap.1 hmem
    obtain ⟨hencoded, hdigit⟩ := Json.digit_octet (length_digits length c hc)
    rw [hencoded, List.mem_singleton] at hoctet
    have hreturn : Json.digit? 0x0D = some (c.toNat - 48) := hoctet ▸ hdigit
    cases hreturn

/-- A header line gives the length that was written into it, also with blanks before its name. -/
theorem length_line_header {blanks : List Char} (h : ∀ c ∈ blanks, Text.isBlank c = true)
    (length : Nat) :
    lengthLine? (blanks ++ lengthHeader length) = some (Nat.toDigits 10 length) := by
  have hmark : ':' ∉ blanks ++ "Content-Length".toList := by
    intro hmem
    rcases List.mem_append.1 hmem with hmem | hmem
    · exact absurd (h ':' hmem) (by decide)
    · exact absurd hmem (by decide)
  have hsplit : Text.splitOnce? ':' (blanks ++ lengthHeader length) =
      some (blanks ++ "Content-Length".toList, ' ' :: Nat.toDigits 10 length) := by
    have hsplit := split_once_append hmark (' ' :: Nat.toDigits 10 length)
    rwa [List.append_assoc] at hsplit
  have hname : Text.sameUpToCase (Text.trim (blanks ++ "Content-Length".toList))
      "content-length".toList = true := by
    rw [Text.trim, Text.trimStart, List.dropWhile_append_of_pos h]
    decide
  simp only [lengthLine?, hsplit, hname, if_true, trim_blank_digits (length_digits length)]

theorem content_length_header {length : Nat} (h : length < addressLimit) :
    contentLength (Utf8.encode (lengthHeader length)) = .ok length := by
  have hline := length_line_header (List.forall_mem_nil _) length
  rw [List.nil_append] at hline
  simp only [contentLength, Utf8.decode_encode,
    lines_eq_singleton (unbroken_of_no_return (return_not_mem_header length)), List.reverse_nil,
    List.nil_append, List.findSome?_singleton, hline, Text.nat_below_to_digits h]

/-! ## Frames -/

/-- What a value needs to be sent in a frame of at most `limit` octets and read back as it is: whole
numbers of 64 bits, objects with their names in order, and no more levels than the reader goes. -/
structure Transmissible (limit : Nat) (value : Value) : Prop where
  whole : value.isWhole = true
  sorted : value.isSorted = true
  nesting : value.nesting ≤ 127
  short : value.bytes.length ≤ limit

theorem Transmissible.body_result {limit : Nat} {value : Value} (h : Transmissible limit value) :
    bodyResult value.bytes = .ok value := by
  rw [bodyResult, Json.parse_bytes h.whole h.sorted (Nat.lt_succ_of_le h.nesting)]
  rfl

namespace Buffer

/-- A buffer gives the value whose frame it starts with, and keeps what follows. -/
theorem next_encode {limit : Nat} {value : Value} (h : Transmissible limit value)
    (hinside : (encode value).length < addressLimit) (rest : Bytes) :
    next { limit, held := encode value ++ rest } = (some (.ok value), { limit, held := rest }) := by
  rw [encode_eq, List.length_append, List.length_append] at hinside
  have hsplit : splitHeader? (encode value ++ rest) =
      some (Utf8.encode (lengthHeader value.bytes.length), value.bytes ++ rest) := by
    rw [encode_eq, List.append_assoc]
    exact split_header_onto_terminator (return_not_mem_encoded _) [] _
  rw [next_body hsplit (content_length_header (by omega)) h.short hinside, h.body_result]

/-- A buffer that holds the frames of values gives these values one after the other, and is then a
buffer that holds what followed the frames. -/
theorem take_encoded (limit : Nat) (values : List Value) (rest : Bytes)
    (h : ∀ value ∈ values, Transmissible limit value)
    (hinside : (values.flatMap encode ++ rest).length < addressLimit) :
    take { limit, held := values.flatMap encode ++ rest } values.length =
      (values.map .ok, { limit, held := rest }) := by
  induction values with
  | nil => rfl
  | cons value values ih =>
    simp only [List.flatMap_cons, List.append_assoc, List.length_append] at hinside ⊢
    have hnext := next_encode (h value List.mem_cons_self) (by omega)
      (values.flatMap encode ++ rest)
    have hrest := ih (fun other hother => h other (List.mem_cons_of_mem value hother))
      (by simp only [List.length_append]; omega)
    simp only [List.length_cons, take, hnext, hrest, List.map_cons]

/-- Values with nested members, the least and the greatest number, escapes and a wide character. -/
def sampleValues : List Value :=
  [.obj [("a", .arr [.int (-2 ^ 63), .int (2 ^ 64 - 1), .obj []]), ("é", .str "\"\\\n\x01€")],
    .arr [.null, .bool true, .str "\r\n\r\n"]]

/-- The frames of these values, with the start of another behind them, come out as they went in. -/
theorem take_sample_values :
    (∀ value ∈ sampleValues, Transmissible 80 value) ∧
      (sampleValues.flatMap encode ++ octets "Content-").length < addressLimit ∧
      take { limit := 80, held := sampleValues.flatMap encode ++ octets "Content-" } 2 =
        (sampleValues.map .ok, { limit := 80, held := octets "Content-" }) := by
  have hvalues : ∀ value ∈ sampleValues, Transmissible 80 value := by
    intro value hvalue
    simp only [sampleValues, List.mem_cons, List.not_mem_nil, or_false] at hvalue
    rcases hvalue with rfl | rfl <;> exact ⟨by decide, by decide, by decide, by decide +kernel⟩
  have hinside : (sampleValues.flatMap encode ++ octets "Content-").length < addressLimit := by
    decide +kernel
  exact ⟨hvalues, hinside, take_encoded 80 sampleValues (octets "Content-") hvalues hinside⟩

end Buffer

end CodeAtlas.Wire
