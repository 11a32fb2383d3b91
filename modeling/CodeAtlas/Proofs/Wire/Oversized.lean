import CodeAtlas.Proofs.Json.Letters
import CodeAtlas.Proofs.Wire.RoundTrip

/-!
# What a frame that is too long costs

Of a frame that is too long only the header is dropped, so its body stands before the header of the
next frame, as more header lines. No line of a JSON text starts as a length line does
(`lines_start_other`), so the body gives no length of its own: the next header is read with the last
line of the body before its own line. If that line is blank the following messages are received, and
otherwise none of them is (`oversized_frame_cost`).
-/

namespace CodeAtlas.Wire

open Json (Value)

/-! ## Header lines -/

section Lines

variable {text line : List Char}

/-- A terminator in the octets of a text is two line breaks of the text. -/
theorem split_header_encode {header after : Bytes}
    (h : splitHeader? (Utf8.encode text) = some (header, after)) :
    ∃ before rest, text = before ++ '\r' :: '\n' :: '\r' :: '\n' :: rest ∧
      header = Utf8.encode before ∧ after = Utf8.encode rest := by
  have hnext {c : Char} {text : List Char} {back : Bytes} (hc : c.toNat < 0x80)
      (h : Utf8.encode text = c.toNat.toUInt8 :: back) :
      ∃ rest, text = c :: rest ∧ back = Utf8.encode rest := by
    obtain ⟨before, rest, rfl, hnil, rfl⟩ := Utf8.encode_split hc (h.trans (List.nil_append _).symm)
    have hlength := Json.length_le_encode before
    rw [← hnil] at hlength
    cases List.length_eq_zero_iff.mp (Nat.le_zero.mp hlength)
    exact ⟨rest, rfl, rfl⟩
  have htext : Utf8.encode text =
      header ++ ('\r').toNat.toUInt8 :: 0x0A :: 0x0D :: 0x0A :: after := by
    rw [split_header_eq h, List.append_assoc]
    rfl
  obtain ⟨before, _, rfl, rfl, hfeed⟩ := Utf8.encode_split (by decide) htext
  obtain ⟨_, rfl, hreturn⟩ := hnext (show ('\n').toNat < 0x80 by decide) hfeed.symm
  obtain ⟨_, rfl, hlast⟩ := hnext (show ('\r').toNat < 0x80 by decide) hreturn.symm
  obtain ⟨rest, rfl, hafter⟩ := hnext (show ('\n').toNat < 0x80 by decide) hlast.symm
  exact ⟨before, rest, rfl, rfl, hafter⟩

theorem lines_append_break (current front back : List Char) :
    lines current (front ++ '\r' :: '\n' :: back) = lines current front ++ lines [] back := by
  fun_induction lines current front with
  | case1 current rest ih => simpa [lines] using ih
  | case2 current c rest hbreak ih =>
    rw [List.cons_append, lines.eq_2, ih]
    intro tail hc htail
    cases rest with
    | nil => simp at htail
    | cons d rest =>
      cases htail
      exact hbreak rest hc rfl
  | case3 => simp [lines]

/-- What follows the last line and breaks none belongs to it. -/
theorem lines_append_last (current front : List Char) {more : List Char} (hmore : '\r' ∉ more)
    (hfeed : more.head? ≠ some '\n') :
    ∃ before last, lines current front = before ++ [last] ∧
      lines current (front ++ more) = before ++ [last ++ more] := by
  fun_induction lines current front with
  | case1 current rest ih =>
    obtain ⟨before, last, hfront, hall⟩ := ih
    exact ⟨current.reverse :: before, last, by simp [hfront], by simp [lines, hall]⟩
  | case2 current c rest hbreak ih =>
    obtain ⟨before, last, hfront, hall⟩ := ih
    refine ⟨before, last, hfront, ?_⟩
    rw [List.cons_append, lines.eq_2, hall]
    intro tail hc htail
    cases rest with
    | nil =>
      rw [List.nil_append] at htail
      exact hfeed (by rw [htail]; rfl)
    | cons d rest =>
      cases htail
      exact hbreak rest hc rfl
  | case3 current =>
    exact ⟨[], current.reverse, rfl, lines_eq_singleton (unbroken_of_no_return hmore) current⟩

/-- A line stands at the front of a text or behind a line break. -/
theorem mem_lines {current : List Char} (h : line ∈ lines current text) :
    ∃ front back, current.reverse ++ text = front ++ line ++ back ∧
      ∀ last ∈ front.getLast?, last = '\n' := by
  fun_induction lines current text with
  | case1 current rest ih =>
    rcases List.mem_cons.mp h with rfl | h
    · exact ⟨[], '\r' :: '\n' :: rest, rfl, by simp⟩
    · obtain ⟨front, back, hrest, hfront⟩ := ih h
      refine ⟨current.reverse ++ '\r' :: '\n' :: front, back, ?_, ?_⟩
      · simp only [List.reverse_nil, List.nil_append] at hrest
        simp [hrest]
      · cases front with
        | nil => simp
        | cons c front => simpa using hfront
  | case2 current c rest _ ih =>
    obtain ⟨front, back, hrest, hfront⟩ := ih h
    exact ⟨front, back, by simpa using hrest, hfront⟩
  | case3 current =>
    rw [List.mem_singleton.mp h]
    exact ⟨[], [], by simp, by simp⟩

/-- A line that may be a length line: its first character other than a blank is a c. -/
def OpensLength (line : List Char) : Prop :=
  ∃ blanks c rest, line = blanks ++ c :: rest ∧ (∀ d ∈ blanks, Text.isBlank d = true) ∧
    (c = 'c' ∨ c = 'C')

theorem split_once_eq {mark : Char} {before after : List Char}
    (h : Text.splitOnce? mark line = some (before, after)) :
    line = before ++ mark :: after ∧ mark ∉ before := by
  fun_induction Text.splitOnce? generalizing before with
  | case1 => cases h
  | case2 line =>
    cases h
    exact ⟨rfl, List.not_mem_nil⟩
  | case3 c line hc ih =>
    obtain ⟨parts, hparts, heq⟩ := Option.map_eq_some_iff.mp h
    cases heq
    obtain ⟨rfl, hmark⟩ := ih hparts
    exact ⟨rfl, by simp [hmark, Ne.symm hc]⟩

theorem fold_case_eq {c : Char} (h : Text.foldCase c = 'c') : c = 'c' ∨ c = 'C' := by
  revert h
  fun_cases Text.foldCase with
  | case1 hcapital =>
    intro h
    have hrange : c.toNat ≤ 90 := hcapital.2
    have hvalue : (Char.ofNat (c.toNat + 32)).toNat = c.toNat + 32 := by
      rw [Char.ofNat, dif_pos (by simp [Nat.isValidChar]; omega)]
      rfl
    rw [h] at hvalue
    have hcode : ('c').toNat = 99 := rfl
    exact .inr (Char.toNat_inj.mp (show c.toNat = 67 by omega))
  | case2 => exact .inl

theorem length_line_opens {value : List Char} (h : lengthLine? line = some value) :
    OpensLength line := by
  rw [lengthLine?] at h
  split at h
  · cases h
  next name rest hsplit =>
  split at h
  next hname =>
    rw [Text.sameUpToCase, beq_iff_eq] at hname
    cases htext : Text.trim name with
    | nil => simp [htext] at hname
    | cons c trimmed =>
      have hc : Text.foldCase c = 'c' := by
        rw [htext] at hname
        exact (List.cons.inj hname).1
      -- Trimming at the end leaves the first character where it is.
      obtain ⟨last, hlast⟩ : Text.trim name <+: Text.trimStart name := by
        rw [Text.trim, Text.trimEnd, ← List.reverse_suffix, List.reverse_reverse]
        exact List.dropWhile_suffix _
      rw [htext] at hlast
      obtain ⟨blanks, hblanks, hparts⟩ : ∃ blanks : List Char,
          (∀ d ∈ blanks, Text.isBlank d = true) ∧ blanks ++ Text.trimStart name = name :=
        ⟨name.takeWhile Text.isBlank, fun _ hd => List.mem_takeWhile_imp hd,
          List.takeWhile_append_dropWhile⟩
      refine ⟨blanks, c, trimmed ++ last ++ ':' :: rest, ?_, hblanks, fold_case_eq hc⟩
      rw [(split_once_eq hsplit).1, ← hparts, ← hlast]
      simp
  · cases h

/-- A line that may be a length line and starts with another line, one that is not blank. -/
theorem OpensLength.of_append {more : List Char} (h : OpensLength (line ++ more))
    (hblank : line.all Text.isBlank = false) : OpensLength line := by
  obtain ⟨blanks, c, rest, hline, hblanks, hc⟩ := h
  rcases List.append_eq_append_iff.mp hline with ⟨_, rfl, _⟩ | ⟨tail, rfl, htail⟩
  · have hall : line.all Text.isBlank = true :=
      List.all_eq_true.mpr fun d hd => hblanks d (List.mem_append_left _ hd)
    rw [hall] at hblank
    cases hblank
  · cases tail with
    | nil =>
      have hall : (blanks ++ []).all Text.isBlank = true := by simpa using hblanks
      rw [hall] at hblank
      cases hblank
    | cons d tail =>
      cases htail
      exact ⟨blanks, c, tail, rfl, hblanks, hc⟩

/-- No line of a JSON text may be a length line: its c would have to be in a string literal, and
then the quote before it in the same line. -/
theorem lines_start_other {value : Value} (h : Json.parse (Utf8.encode text) = .ok value) :
    ∀ line ∈ lines [] text, ¬ OpensLength line := by
  rintro line hline ⟨blanks, c, rest, rfl, hblanks, hc⟩
  obtain ⟨front, back, htext, hfront⟩ := mem_lines hline
  have hsplit : Utf8.encode text = Utf8.encode (front ++ blanks) ++
      c.toNat.toUInt8 :: Utf8.encode (rest ++ back) := by
    have hone : Utf8.encodeChar c = [c.toNat.toUInt8] := by rcases hc with rfl | rfl <;> rfl
    have htext : text = (front ++ blanks) ++ c :: (rest ++ back) := by simpa using htext
    rw [htext, Utf8.encode_append, Utf8.encode_cons, hone, List.singleton_append]
  rw [hsplit] at h
  have hoctet : Json.isC c.toNat.toUInt8 = true := by rcases hc with rfl | rfl <;> decide
  obtain ⟨before, content, hopens, hcontent⟩ := Json.parse_opens h hoctet
  obtain ⟨before, inside, hinside, _, rfl⟩ := Utf8.encode_split (c := '"') (by decide) hopens
  have hquote : '"' ∉ blanks := fun hmem => absurd (hblanks '"' hmem) (by decide)
  rcases List.append_eq_append_iff.mp hinside with ⟨more, _, hmore⟩ | ⟨more, rfl, hmore⟩
  · exact hquote (by simp [hmore])
  · cases more with
    | nil => exact hquote (hmore ▸ List.mem_cons_self : '"' ∈ [] ++ blanks)
    | cons d more =>
      cases hmore
      -- The quote is in an earlier line, so a line feed lies between it and the c.
      have hfeed : '\n' ∈ more := by
        cases more with
        | nil => simp at hfront
        | cons d more =>
          rw [List.getLast?_append, List.getLast?_cons_cons] at hfront
          have hlast := hfront _ (by rw [List.getLast?_eq_some_getLast (by simp)]; rfl)
          exact hlast ▸ List.getLast_mem (by simp)
      have hoctet := hcontent 0x0A
        (List.mem_flatMap.mpr ⟨'\n', List.mem_append_left _ hfeed, by decide⟩)
      exact absurd hoctet (by decide)

end Lines

/-! ## Frames behind a body -/

/-- Whether the last line of a text is blank. -/
def endsBlank (text : List Char) : Bool := ((lines [] text).getLastD []).all Text.isBlank

/-- No line of the text may be a length line. -/
def LacksLength (text : List Char) : Prop := ∀ line ∈ lines [] text, ¬ OpensLength line

variable {limit : Nat} {text : List Char} {held header after : Bytes} {error : FrameError}

theorem LacksLength.content_length (h : LacksLength text) :
    contentLength (Utf8.encode text) = .error .missingLength := by
  have hnone : (lines [] text).findSome? lengthLine? = none :=
    List.findSome?_eq_none_iff.mpr fun line hline =>
      Option.eq_none_iff_forall_ne_some.mpr fun _ hvalue => h line hline (length_line_opens hvalue)
  simp only [contentLength, Utf8.decode_encode, hnone]

theorem lines_eq_last (text : List Char) :
    ∃ before last, lines [] text = before ++ [last] ∧ endsBlank text = last.all Text.isBlank ∧
      ∀ {more : List Char}, '\r' ∉ more → more.head? ≠ some '\n' →
        lines [] (text ++ more) = before ++ [last ++ more] := by
  obtain ⟨before, last, hlines, _⟩ := lines_append_last [] text List.not_mem_nil (by simp)
  refine ⟨before, last, hlines, by rw [endsBlank, hlines, List.getLastD_concat], ?_⟩
  intro more hmore hfeed
  obtain ⟨before', last', hlines', hall⟩ := lines_append_last [] text hmore hfeed
  rw [hlines] at hlines'
  obtain ⟨rfl, hlast⟩ := List.append_inj' hlines' rfl
  cases hlast
  exact hall

theorem header_head (length : Nat) : (lengthHeader length).head? ≠ some '\n' := by
  have hhead : (lengthHeader length).head? = some 'C' := rfl
  rw [hhead]
  decide

/-- A header line that follows blanks gives the length of the block. -/
theorem LacksLength.content_length_behind (h : LacksLength text) (hblank : endsBlank text = true)
    {length : Nat} (hlength : length < addressLimit) :
    contentLength (Utf8.encode (text ++ lengthHeader length)) = .ok length := by
  obtain ⟨before, last, hlines, hlast, hall⟩ := lines_eq_last text
  have hline := length_line_header (List.all_eq_true.mp (hlast ▸ hblank)) length
  have hnone : before.findSome? lengthLine? = none :=
    List.findSome?_eq_none_iff.mpr fun line hline =>
      Option.eq_none_iff_forall_ne_some.mpr fun _ hvalue =>
        h line (by simp [hlines, hline]) (length_line_opens hvalue)
  simp only [contentLength, Utf8.decode_encode, List.findSome?_append, List.findSome?_singleton,
    hall (return_not_mem_header length) (header_head length), hnone, hline, Option.none_or,
    Text.nat_below_to_digits hlength]

/-- A header line that continues another line gives no length. -/
theorem LacksLength.append_header (h : LacksLength text) (hblank : endsBlank text = false)
    (length : Nat) : LacksLength (text ++ lengthHeader length) := by
  obtain ⟨before, last, hlines, hlast, hall⟩ := lines_eq_last text
  intro line hline hopens
  rw [hall (return_not_mem_header length) (header_head length), List.mem_append,
    List.mem_singleton] at hline
  rcases hline with hline | rfl
  · exact h line (by simp [hlines, hline]) hopens
  · exact h last (by simp [hlines]) (hopens.of_append (hlast ▸ hblank))

theorem lines_append_empty (before rest : List Char) :
    lines [] (before ++ '\r' :: '\n' :: '\r' :: '\n' :: rest) =
      lines [] before ++ [] :: lines [] rest := by
  rw [lines_append_break, lines.eq_1, List.reverse_nil]

theorem ends_blank_append_empty (before rest : List Char) :
    endsBlank (before ++ '\r' :: '\n' :: '\r' :: '\n' :: rest) = endsBlank rest := by
  obtain ⟨front, last, hlines, hlast, _⟩ := lines_eq_last rest
  rw [hlast, endsBlank, lines_append_empty, hlines, ← List.cons_append, ← List.append_assoc,
    List.getLastD_concat]

theorem chars_last {value : Value} (h : value.isWhole = true) :
    ∃ c, [c] <:+ value.chars ∧ Text.isBlank c = false := by
  cases value with
  | null => exact ⟨'l', by decide, by decide⟩
  | bool b => cases b <;> exact ⟨'e', by decide, by decide⟩
  | num n =>
    cases n with
    | real x => cases h
    | int n =>
      obtain ⟨m, hdigits⟩ : ∃ m, Nat.toDigits 10 m <:+ Json.intChars n := by
        cases n with
        | ofNat n => exact ⟨n, List.suffix_rfl⟩
        | negSucc n => exact ⟨n + 1, List.suffix_cons _ _⟩
      have hne : Nat.toDigits 10 m ≠ [] := Nat.toDigits_ne_nil
      have hlast : [(Nat.toDigits 10 m).getLast hne] <:+ Nat.toDigits 10 m :=
        ⟨_, List.dropLast_append_getLast hne⟩
      refine ⟨_, (hlast.trans hdigits).trans ?_,
        not_blank_of_digit (length_digits m _ (List.getLast_mem hne))⟩
      rw [Value.chars, Value.charsOnto, List.append_nil]
      exact List.suffix_rfl
  | str s =>
    refine ⟨'"', ?_, by decide⟩
    rw [Value.chars, Value.charsOnto, List.append_nil]
    exact List.suffix_append (_ :: _) _
  | arr vs =>
    refine ⟨']', ?_, by decide⟩
    cases vs with
    | nil => decide
    | cons v vs =>
      exact (Json.elements_onto_suffix _ vs).trans
        ((Json.chars_onto_suffix _ v).trans (List.suffix_cons _ _))
  | obj ms =>
    refine ⟨'}', ?_, by decide⟩
    cases ms with
    | nil => decide
    | cons m ms =>
      exact (Json.members_onto_suffix _ ms).trans
        (Json.suffix_member _ _ (Json.chars_onto_suffix _ m.2))

theorem ends_blank_chars {value : Value} (h : value.isWhole = true) :
    endsBlank value.chars = false := by
  obtain ⟨c, ⟨front, hchars⟩, hc⟩ := chars_last h
  obtain ⟨_, last, _, _, hall⟩ := lines_eq_last front
  have hlines := @hall [c] (by rintro (_ | ⟨_, ⟨⟩⟩); cases hc) (by rintro ⟨⟩; cases hc)
  rw [endsBlank, ← hchars, hlines, List.getLastD_concat]
  simp [hc]

/-- A header line behind octets without a terminator ends the header block that they begin. -/
theorem split_header_onto_behind {seen : Bytes} (h : splitHeaderOnto seen held = none)
    (length : Nat) (after : Bytes) :
    splitHeaderOnto seen (held ++ Utf8.encode (lengthHeader length) ++ terminator ++ after) =
      some (seen.reverse ++ held ++ Utf8.encode (lengthHeader length), after) := by
  fun_induction splitHeaderOnto seen held with
  | case1 => cases h
  | case2 seen octet rest hother ih =>
    have hrest := ih h
    simp only [List.reverse_cons, List.append_assoc, List.singleton_append] at hrest ⊢
    rw [List.cons_append, splitHeaderOnto.eq_2]
    · exact hrest
    · -- a terminator cannot straddle the end of `held`, for the line behind it starts with a C
      intro tail hoctet htail
      obtain ⟨more, hmore⟩ : ∃ more, Utf8.encode (lengthHeader length) = 0x43 :: more := ⟨_, rfl⟩
      rw [hmore] at htail
      rcases rest with _ | ⟨a, _ | ⟨b, _ | ⟨c, rest⟩⟩⟩
      case cons.cons.cons =>
        simp only [List.cons_append, List.cons.injEq] at htail
        obtain ⟨rfl, rfl, rfl, _⟩ := htail
        exact hother rest hoctet rfl
      all_goals simp at htail
  | case3 seen =>
    have hend := split_header_onto_terminator (return_not_mem_encoded length) seen after
    simpa using hend

namespace Buffer

/-- A buffer whose front is skipped keeps what follows the header block. -/
theorem next_skipped (hsplit : splitHeader? held = some (header, after))
    (h : Front limit held (.skipped (header.length + terminator.length) error)) :
    next { limit, held } = (some (.error error), { limit, held := after }) := by
  have hdrop : held.drop (header.length + terminator.length) = after := by
    rw [split_header_eq hsplit, ← List.length_append, List.drop_left]
  simp only [next, h.decode_eq, hdrop]

theorem drains_encoded (messages : List Value)
    (h : ∀ message ∈ messages, Transmissible limit message)
    (hinside : (messages.flatMap encode).length < addressLimit) :
    Drains { limit, held := messages.flatMap encode } (messages.map .ok) { limit, held := [] } := by
  induction messages with
  | nil => exact .done rfl
  | cons message messages ih =>
    rw [List.flatMap_cons, List.length_append] at hinside
    obtain ⟨hmessage, hmessages⟩ := List.forall_mem_cons.mp h
    exact .cons (next_encode hmessage (by omega) _) (ih hmessages (by omega))

/-- What comes out of a buffer with messages behind a text that gives no length. The induction is on
the octets held: each frame error drops some of them. -/
theorem drains_behind (messages : List Value)
    (h : ∀ message ∈ messages, Transmissible limit message) (htext : LacksLength text)
    (hinside : (Utf8.encode text ++ messages.flatMap encode).length < addressLimit) :
    ∃ (errors : List FrameError) (final : Buffer),
      Drains { limit, held := Utf8.encode text ++ messages.flatMap encode }
        (errors.map .error ++ if endsBlank text then messages.map .ok else []) final := by
  induction hlength : (Utf8.encode text ++ messages.flatMap encode).length
    using Nat.strong_induction_on generalizing text messages with
  | _ n ih =>
  have hterminator : terminator.length = 4 := rfl
  cases hsplit : splitHeader? (Utf8.encode text) with
  | some parts =>
    obtain ⟨before, rest, rfl, hbefore, hrest⟩ := split_header_encode hsplit
    have hlines := lines_append_empty before rest
    obtain ⟨hmissing, -, hfollow⟩ : LacksLength before ∧ _ ∧ LacksLength rest := by
      simpa [LacksLength, hlines, or_imp, forall_and] using htext
    have hsplit := split_header_onto_append (messages.flatMap encode) hsplit
    have hshort := congrArg List.length (split_header_eq hsplit)
    rw [hbefore, hrest] at hsplit
    rw [hlength, hrest, List.length_append, List.length_append] at hshort
    obtain ⟨errors, final, hdrains⟩ := ih _ (by omega) messages h hfollow (by omega) rfl
    rw [ends_blank_append_empty]
    exact ⟨.missingLength :: errors, final,
      .cons (next_skipped hsplit (.badHeader _ _ _ hsplit hmissing.content_length)) hdrains⟩
  | none =>
    cases messages with
    | nil =>
      have hdone : next { limit, held := Utf8.encode text } =
          (none, { limit, held := Utf8.encode text }) := by
        simp only [next, (Front.noHeader hsplit).decode_eq]
      exact ⟨[], { limit, held := Utf8.encode text }, by simpa using Drains.done hdone⟩
    | cons message messages =>
      obtain ⟨hmessage, hmessages⟩ := List.forall_mem_cons.mp h
      have hsplit : splitHeader? (Utf8.encode text ++ (message :: messages).flatMap encode) =
          some (Utf8.encode (text ++ lengthHeader message.bytes.length),
            message.bytes ++ messages.flatMap encode) := by
        have hbehind := split_header_onto_behind hsplit message.bytes.length
          (message.bytes ++ messages.flatMap encode)
        simpa [encode_eq, Utf8.encode_append, splitHeader?] using hbehind
      have hshort := congrArg List.length (split_header_eq hsplit)
      simp only [hlength, List.length_append] at hshort
      cases hblank : endsBlank text with
      | true =>
        have hnext := next_body hsplit (htext.content_length_behind hblank (by omega))
          hmessage.short (by omega)
        rw [hmessage.body_result] at hnext
        exact ⟨[], _, .cons hnext (drains_encoded messages hmessages (by omega))⟩
      | false =>
        -- The header ends an unfinished line, and the body is the next text without a length.
        have hlacks := htext.append_header hblank message.bytes.length
        have hparse := Json.parse_bytes hmessage.whole hmessage.sorted
          (Nat.lt_succ_of_le hmessage.nesting)
        have hlength : (Utf8.encode message.chars ++ messages.flatMap encode).length =
          message.bytes.length + (messages.flatMap encode).length := List.length_append
        obtain ⟨errors, final, hdrains⟩ := ih _ (by omega) messages hmessages
          (lines_start_other hparse) (by omega) rfl
        rw [ends_blank_chars hmessage.whole] at hdrains
        exact ⟨.missingLength :: errors, final,
          .cons (next_skipped hsplit (.badHeader _ _ _ hsplit hlacks.content_length)) hdrains⟩

/-- A frame that is too long gives one error for itself, and its body, a JSON text, at most further
errors. The messages behind it are received if the last line of the body is blank, and otherwise
none of them is: the body is not dropped, and the next header stands behind that line. -/
theorem oversized_frame_cost {value : Value} {messages : List Value}
    (hsplit : splitHeader? (header ++ terminator) = some (header, []))
    (hlength : contentLength header = .ok (Utf8.encode text).length)
    (hlimit : limit < (Utf8.encode text).length)
    (hbody : Json.parse (Utf8.encode text) = .ok value)
    (hmessages : ∀ message ∈ messages, Transmissible limit message)
    (hinside : (header ++ terminator ++ Utf8.encode text ++ messages.flatMap encode).length <
      addressLimit) :
    ∃ errors : List FrameError,
      (drain { limit, held := header ++ terminator ++ Utf8.encode text ++
          messages.flatMap encode }).1 =
        .error (.bodyTooLarge (Utf8.encode text).length limit) :: (errors.map .error ++
          if endsBlank text then messages.map .ok else []) := by
  rw [List.append_assoc (header ++ terminator)] at hinside ⊢
  rw [List.length_append] at hinside
  have hsplit := split_header_onto_append (Utf8.encode text ++ messages.flatMap encode) hsplit
  obtain ⟨errors, final, hdrains⟩ := drains_behind messages hmessages (lines_start_other hbody)
    (by omega)
  have hnext := next_skipped hsplit (.tooLarge _ _ _ hsplit hlength hlimit)
  exact ⟨errors, ((drain_drains _).unique (.cons hnext hdrains)).1⟩

/-- A body of four lines, the second and the last of them empty. -/
def brokenBody : List Char := "[1,\r\n\r\n\"content-length: 1\"]\r\n".toList

/-- Behind this body messages are received, after an error for each of its two parts. -/
theorem drain_broken_body :
    let header := octets "content-length :29"
    let messages : List Value := [.num (.int 1), .arr [.null]]
    (splitHeader? (header ++ terminator) = some (header, []) ∧
      contentLength header = .ok (Utf8.encode brokenBody).length ∧
      6 < (Utf8.encode brokenBody).length ∧
      Json.parse (Utf8.encode brokenBody) =
        .ok (.arr [.num (.int 1), .str "content-length: 1"]) ∧
      (∀ message ∈ messages, Transmissible 6 message) ∧
      (header ++ terminator ++ Utf8.encode brokenBody ++ messages.flatMap encode).length <
        addressLimit) ∧
    ∃ errors : List FrameError,
      (drain { limit := 6, held := header ++ terminator ++ Utf8.encode brokenBody ++
          messages.flatMap encode }).1 =
        .error (.bodyTooLarge 29 6) :: (errors.map .error ++ messages.map .ok) := by
  intro header messages
  have hmessages : ∀ message ∈ messages, Transmissible 6 message := by
    intro message hmessage
    simp only [messages, List.mem_cons, List.not_mem_nil, or_false] at hmessage
    rcases hmessage with rfl | rfl <;> exact ⟨by decide, by decide, by decide, by decide +kernel⟩
  have hsplit : splitHeader? (header ++ terminator) = some (header, []) := by decide +kernel
  have hlength : contentLength header = .ok (Utf8.encode brokenBody).length := by decide +kernel
  have hlimit : 6 < (Utf8.encode brokenBody).length := by decide +kernel
  have hbody : Json.parse (Utf8.encode brokenBody) =
      .ok (.arr [.num (.int 1), .str "content-length: 1"]) := by decide +kernel
  have hinside : (header ++ terminator ++ Utf8.encode brokenBody ++
      messages.flatMap encode).length < addressLimit := by decide +kernel
  exact ⟨⟨hsplit, hlength, hlimit, hbody, hmessages, hinside⟩,
    oversized_frame_cost hsplit hlength hlimit hbody hmessages hinside⟩

/-- The body `12345` takes the message behind it with it. -/
theorem drain_oversized_number :
    drain { limit := 4, held := octets "Content-Length: 5\r\n\r\n12345" ++
        encode (.num (.int 1)) } = ([.error (.bodyTooLarge 5 4), .error .missingLength],
      { limit := 4, held := octets "1" }) := by
  decide +kernel

end Buffer

end CodeAtlas.Wire
