import CodeAtlas.Proofs.Wire.Frames
import CodeAtlas.Proofs.Wire.Oversized

/-!
# Which header lines matter

A header block is a list of lines. Its lines are found again when it is split at the line breaks
(`lines_text`), and as none of them is empty, its first terminator is the one at its end
(`split_block`). Of the lines only the first that gives a length is used, and of that only the
trimmed value: `first_length_line_decides` says what is read behind a block from this value and the
octets that follow, with the size of the block added to what is consumed. The one other way in which
the block matters is that its size and the length together may exceed all addresses.
-/

namespace CodeAtlas.Wire

/-! ## Lines of a header block -/

theorem intercalate_lines (current text : List Char) :
    ['\r', '\n'].intercalate (lines current text) = current.reverse ++ text := by
  fun_induction lines current text with
  | case1 current rest ih =>
    have hlines : lines [] rest ≠ [] := by
      obtain ⟨_, _, hlast, _⟩ := lines_eq_last rest
      simp [hlast]
    simp [List.intercalate_cons_of_ne_nil hlines, ih]
  | case2 current c rest _ ih => simpa using ih
  | case3 current => simp

theorem lines_intercalate {all : List (List Char)} (hne : all ≠ [])
    (h : ∀ line ∈ all, ¬ ['\r', '\n'] <:+: line) : lines [] (['\r', '\n'].intercalate all) = all := by
  induction all with
  | nil => exact absurd rfl hne
  | cons line rest ih =>
    have hline := lines_eq_singleton (h line List.mem_cons_self) []
    by_cases hrest : rest = []
    · simpa [hrest] using hline
    · have hlines := ih hrest fun other hother => h other (List.mem_cons_of_mem line hother)
      have hbreak := lines_append_break [] line (['\r', '\n'].intercalate rest)
      rw [hline, hlines] at hbreak
      simpa [List.intercalate_cons_of_ne_nil hrest] using hbreak

theorem eq_of_first_empty {all before rest : List (List Char)}
    (h : all ++ [[], []] = before ++ [] :: rest) (hfilled : [] ∉ all) (hrest : rest ≠ []) :
    before = all ∧ rest = [[]] := by
  rcases List.append_eq_append_iff.mp h with ⟨more, rfl, hmore⟩ | ⟨more, rfl, hmore⟩
  · rcases more with _ | ⟨_, _ | ⟨_, more⟩⟩ <;> simp_all
  · rcases more with _ | ⟨_, more⟩ <;> simp_all

/-- The lines of a header block: there are some, none is empty and no line break is inside of one. -/
structure HeaderBlock where
  lines : List (List Char)
  ne_nil : lines ≠ []
  filled : [] ∉ lines
  unbroken : ∀ line ∈ lines, ¬ ['\r', '\n'] <:+: line

namespace HeaderBlock

variable (block : HeaderBlock)

def text : List Char := ['\r', '\n'].intercalate block.lines

def bytes : Bytes := Utf8.encode block.text ++ terminator

theorem lines_text : Wire.lines [] block.text = block.lines :=
  lines_intercalate block.ne_nil block.unbroken

/-- The first terminator behind a header block is the one at its end: an earlier one would be an
empty line of the block. -/
theorem split_block (after : Bytes) :
    splitHeader? (block.bytes ++ after) = some (Utf8.encode block.text, after) := by
  have hwhole : Utf8.encode (block.text ++ ['\r', '\n', '\r', '\n']) = block.bytes :=
    Utf8.encode_append _ _
  obtain ⟨header, rest, hsplit, _⟩ := split_header_onto_first [] (Utf8.encode block.text) []
  rw [List.append_nil, ← bytes, ← hwhole] at hsplit
  obtain ⟨before, rest, htext, rfl, rfl⟩ := split_header_encode hsplit
  have hlines := congrArg (Wire.lines []) htext
  rw [lines_append_empty, lines_append_empty, block.lines_text] at hlines
  have hlast : Wire.lines [] rest ≠ [] := by
    obtain ⟨_, _, hlast, _⟩ := lines_eq_last rest
    simp [hlast]
  obtain ⟨hbefore, hrest⟩ := eq_of_first_empty hlines block.filled hlast
  have hrest : rest = [] := by simpa [hrest] using (intercalate_lines [] rest).symm
  subst hrest
  have hsplit := split_header_onto_append after hsplit
  rwa [hwhole, ← List.append_cancel_right htext] at hsplit

end HeaderBlock

/-- A line gives a length: before its first colon it has, trimmed and up to case, the name. -/
def GivesLength (line value : List Char) : Prop :=
  ∃ name rest, line = name ++ ':' :: rest ∧ ':' ∉ name ∧
    Text.sameUpToCase (Text.trim name) "content-length".toList = true ∧ value = Text.trim rest

theorem length_line_iff {line value : List Char} :
    lengthLine? line = some value ↔ GivesLength line value := by
  unfold lengthLine?
  constructor
  · intro h
    split at h
    · cases h
    next name rest hsplit =>
      obtain ⟨hline, hname⟩ := split_once_eq hsplit
      split at h
      next hsame =>
        cases h
        exact ⟨name, rest, hline, hname, hsame, rfl⟩
      next => cases h
  · rintro ⟨name, rest, rfl, hname, hsame, rfl⟩
    simp only [split_once_append hname, hsame, if_true]

/-- The first length that lines give, if there is one. -/
def FirstLength (all : List (List Char)) : Option (List Char) → Prop
  | none => ∀ line ∈ all, ∀ value, ¬ GivesLength line value
  | some value => ∃ before line behind, all = before ++ line :: behind ∧ GivesLength line value ∧
      ∀ earlier ∈ before, ∀ other, ¬ GivesLength earlier other

theorem first_length_iff {all : List (List Char)} {value? : Option (List Char)} :
    FirstLength all value? ↔ all.findSome? lengthLine? = value? := by
  have hnone {line : List Char} :
      (∀ value, ¬ GivesLength line value) ↔ lengthLine? line = none := by
    simp only [← length_line_iff, Option.eq_none_iff_forall_ne_some, ne_eq]
  cases value? with
  | none => simp only [FirstLength, List.findSome?_eq_none_iff, hnone]
  | some value => simp only [FirstLength, List.findSome?_eq_some_iff, length_line_iff, hnone]

/-- What the octets behind a header block are read as, from the length that the block gives, if it
gives one; octets are counted from the end of the block. -/
def readBehind (limit : Nat) (value? : Option (List Char)) (after : Bytes) : Decoded :=
  match value? with
  | none => .skipped 0 .missingLength
  | some value =>
    match Text.natBelow? addressLimit value with
    | none => .skipped 0 (.invalidLength (String.ofList value))
    | some length =>
      if limit < length then .skipped 0 (.bodyTooLarge length limit)
      else if after.length < length then .incomplete
      else .ofBody (after.take length) length

/-- An outcome behind as many more octets. -/
def Decoded.behind (size : Nat) : Decoded → Decoded
  | .message value consumed => .message value (size + consumed)
  | .skipped consumed error => .skipped (size + consumed) error
  | .incomplete => .incomplete
  | .overflow => .overflow

/-- A body is read or waited for, whatever is before it. -/
theorem behind_body (size length : Nat) (after : Bytes) :
    (if after.length < length then Decoded.incomplete
      else .ofBody (after.take length) length).behind size =
    if (after.take length).length < length then .incomplete
    else .ofBody (after.take length) (size + length) := by
  have htake : (after.take length).length < length ↔ after.length < length := by
    rw [List.length_take]
    omega
  simp only [htake, Decoded.ofBody]
  split
  · rfl
  · cases Json.parse (after.take length) <;> rfl

/-- What is read behind a header block depends on the first line of the block that gives a length, on
the trimmed value of that line alone, and on the octets that follow; without such a line the block is
skipped. The size of the block is added to what is consumed. This is so exactly as long as a body
within the limit does not end beyond all addresses. -/
theorem first_length_line_decides {block : HeaderBlock} {value? : Option (List Char)}
    (h : FirstLength block.lines value?) (limit : Nat) (after : Bytes) :
    decode limit (block.bytes ++ after) =
        (readBehind limit value? after).behind block.bytes.length ↔
      ∀ length, value?.bind (Text.natBelow? addressLimit) = some length → length ≤ limit →
        block.bytes.length + length < addressLimit := by
  have hsize : (Utf8.encode block.text).length + terminator.length = block.bytes.length :=
    List.length_append.symm
  simp only [decode, block.split_block, hsize, contentLength, Utf8.decode_encode,
    block.lines_text, first_length_iff.mp h, readBehind]
  cases value? with
  | none => simp [Decoded.behind]
  | some value =>
    simp only [Option.bind_some]
    cases Text.natBelow? addressLimit value with
    | none => simp [Decoded.behind]
    | some length =>
      simp only [Option.some.injEq, forall_eq']
      by_cases hlimit : limit < length
      · simp [hlimit, Decoded.behind]
      · simp only [if_neg hlimit, behind_body]
        by_cases hend : addressLimit ≤ block.bytes.length + length
        · -- No body is read as the end of all addresses.
          rw [if_pos hend]
          refine iff_of_false (fun heq => ?_) (by omega)
          unfold Decoded.ofBody at heq
          split at heq
          · cases heq
          · split at heq <;> cases heq
        · rw [if_neg hend]
          exact iff_of_true rfl (by omega)

/-- A block with a stray carriage return and line feed, whose second line gives the length. -/
def strayBlock : HeaderBlock where
  lines := ["X\r: 1".toList, "\nCONTENT-length\t:  +2 ".toList, "Content-Length: 7".toList]
  ne_nil := by decide
  filled := by decide
  unbroken := by decide

theorem stray_block_decides :
    FirstLength strayBlock.lines (some "+2".toList) ∧
      decode 2 (strayBlock.bytes ++ octets "[]C") = .message (.arr []) 54 := by
  have hfirst : FirstLength strayBlock.lines (some "+2".toList) :=
    first_length_iff.mpr (by decide +kernel)
  have hsize : strayBlock.bytes.length = 52 := by decide +kernel
  have hdecode := (first_length_line_decides hfirst 2 (octets "[]C")).mpr (by
    intro length _ hlength
    rw [addressLimit, hsize]
    omega)
  exact ⟨hfirst, hdecode.trans (by decide +kernel)⟩

/-- One more header line, and the end of the body lies beyond all addresses. -/
theorem extra_line_overflows :
    decode (addressLimit - 1) (octets "content-length:18446744073709551576\r\n\r\n") = .incomplete ∧
      decode (addressLimit - 1) (octets "content-length:18446744073709551576\r\nx\r\n\r\n") =
        .overflow := by
  decide +kernel

end CodeAtlas.Wire
