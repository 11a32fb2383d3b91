import CodeAtlas.Wire.Frame

/-!
# Frames do not depend on how a stream is cut

A stream may reach a buffer in any number of pieces, and frames may be taken out of it at any time
in between. `decode_append` says that the front of a buffer, once it holds a frame or a reason to
skip one, is decoded the same when more octets follow. From it, `Drains.of_run` shows by induction
on what is done with a buffer that neither the pieces nor the moments matter, and
`run_drain_eq_extend_drain` compares any such history with one piece that is drained once.
-/

namespace CodeAtlas.Wire

open Json (Value)

/-! ## The header block -/

variable {buffer : Bytes} {result : Except FrameError Value} {decoded : Decoded} {limit : Nat}

/-- What was split is the header block, less what was seen before, its terminator and the rest. -/
theorem split_header_onto_eq {seen header after : Bytes}
    (h : splitHeaderOnto seen buffer = some (header, after)) :
    ∃ front, header = seen.reverse ++ front ∧ buffer = front ++ terminator ++ after := by
  fun_induction splitHeaderOnto seen buffer with
  | case1 seen rest =>
    cases h
    exact ⟨[], by simp, rfl⟩
  | case2 seen octet rest _ ih =>
    obtain ⟨front, hheader, hrest⟩ := ih h
    exact ⟨octet :: front, by simp [hheader], by simp [hrest]⟩
  | case3 => cases h

/-- The first terminator of a buffer stays the first when octets are appended. -/
theorem split_header_onto_append {seen header after : Bytes} (more : Bytes)
    (h : splitHeaderOnto seen buffer = some (header, after)) :
    splitHeaderOnto seen (buffer ++ more) = some (header, after ++ more) := by
  fun_induction splitHeaderOnto seen buffer with
  | case1 seen rest =>
    cases h
    simp [splitHeaderOnto]
  | case2 seen octet rest hother ih =>
    obtain ⟨front, _, hrest⟩ := split_header_onto_eq h
    have hlength : terminator.length ≤ rest.length := by
      rw [hrest, List.length_append, List.length_append]
      omega
    simp only [terminator, List.length_cons, List.length_nil] at hlength
    rw [List.cons_append, splitHeaderOnto.eq_2]
    · exact ih h
    · -- a terminator cannot straddle the end of `rest`, which still holds a whole one
      intro tail hoctet htail
      subst hoctet
      match rest, htail with
      | a :: b :: c :: tail', htail =>
        simp only [List.cons_append, List.cons.injEq] at htail
        obtain ⟨rfl, rfl, rfl, _⟩ := htail
        exact hother tail' rfl rfl
      | [a, b], _ | [a], _ | [], _ =>
        simp only [List.length_cons, List.length_nil] at hlength
        omega
  | case3 => cases h

theorem split_header_eq {header after : Bytes} (h : splitHeader? buffer = some (header, after)) :
    buffer = header ++ terminator ++ after := by
  obtain ⟨front, rfl, hbuffer⟩ := split_header_onto_eq h
  simpa using hbuffer

/-! ## One frame -/

/-- What a complete body stands for, with the octets of its frame. -/
def Decoded.ofBody (body : Bytes) (consumed : Nat) : Decoded :=
  match Json.parse body with
  | .ok value => .message value consumed
  | .error cause => .skipped consumed (.malformedBody cause)

/-- `Front limit buffer decoded` says that the front of `buffer` reads as `decoded`: the header
block decides first, then the limit, then whether the body is there. -/
inductive Front (limit : Nat) (buffer : Bytes) : Decoded → Prop where
  | noHeader : splitHeader? buffer = none → Front limit buffer .incomplete
  | badHeader (header after error) :
      splitHeader? buffer = some (header, after) → contentLength header = .error error →
      Front limit buffer (.skipped (header.length + terminator.length) error)
  | tooLarge (header after length) :
      splitHeader? buffer = some (header, after) → contentLength header = .ok length →
      limit < length →
      Front limit buffer
        (.skipped (header.length + terminator.length) (.bodyTooLarge length limit))
  | beyond (header after length) :
      splitHeader? buffer = some (header, after) → contentLength header = .ok length →
      length ≤ limit → addressLimit ≤ header.length + terminator.length + length →
      Front limit buffer .overflow
  | noBody (header after length) :
      splitHeader? buffer = some (header, after) → contentLength header = .ok length →
      length ≤ limit → header.length + terminator.length + length < addressLimit →
      after.length < length → Front limit buffer .incomplete
  | body (header body after) :
      splitHeader? buffer = some (header, body ++ after) →
      contentLength header = .ok body.length → body.length ≤ limit →
      header.length + terminator.length + body.length < addressLimit →
      Front limit buffer (.ofBody body (header.length + terminator.length + body.length))

theorem decode_front (limit : Nat) (buffer : Bytes) : Front limit buffer (decode limit buffer) := by
  rcases hsplit : splitHeader? buffer with _ | ⟨header, after⟩
  · simpa [decode, hsplit] using Front.noHeader hsplit
  · cases hlength : contentLength header with
    | error error => simpa [decode, hsplit, hlength] using Front.badHeader _ _ _ hsplit hlength
    | ok length =>
      simp only [decode, hsplit, hlength]
      split
      next hlimit => exact .tooLarge _ _ _ hsplit hlength hlimit
      next hlimit =>
      have hlimit := Nat.le_of_not_lt hlimit
      split
      next hend => exact .beyond _ _ _ hsplit hlength hlimit hend
      next hend =>
      have hend := Nat.lt_of_not_le hend
      split
      next hshort =>
        rw [List.length_take] at hshort
        exact .noBody _ _ _ hsplit hlength hlimit hend (by omega)
      next hlong =>
        have hbody : (after.take length).length = length := by
          rw [List.length_take] at hlong ⊢
          omega
        have hfront : Front limit buffer _ :=
          .body header (after.take length) (after.drop length)
            (by rw [List.take_append_drop]; exact hsplit) (by rw [hbody]; exact hlength)
            (by omega) (by omega)
        rw [hbody] at hfront
        exact hfront

theorem Front.decode_eq (h : Front limit buffer decoded) : decode limit buffer = decoded := by
  cases h with
  | noHeader hsplit => simp [decode, hsplit]
  | badHeader header after error hsplit hlength => simp [decode, hsplit, hlength]
  | tooLarge header after length hsplit hlength hlimit => simp [decode, hsplit, hlength, hlimit]
  | beyond header after length hsplit hlength hlimit hend =>
    simp [decode, hsplit, hlength, Nat.not_lt.2 hlimit, hend]
  | noBody header after length hsplit hlength hlimit hend hshort =>
    have htake : (after.take length).length < length := by
      rw [List.length_take]
      omega
    simp only [decode, hsplit, hlength, Nat.not_lt.2 hlimit, Nat.not_le.2 hend, if_false,
      if_pos htake]
  | body header body after hsplit hlength hlimit hend =>
    simp only [decode, hsplit, hlength, Nat.not_lt.2 hlimit, Nat.not_le.2 hend, if_false,
      List.take_left, Nat.lt_irrefl]
    rfl

/-- A buffer that does not need more octets is read the same when more octets follow. -/
theorem Front.append (more : Bytes) (h : Front limit buffer decoded)
    (hcomplete : decoded ≠ .incomplete) : Front limit (buffer ++ more) decoded := by
  cases h with
  | noHeader | noBody => exact absurd rfl hcomplete
  | badHeader header after error hsplit hlength =>
    exact .badHeader _ _ _ (split_header_onto_append more hsplit) hlength
  | tooLarge header after length hsplit hlength hlimit =>
    exact .tooLarge _ _ _ (split_header_onto_append more hsplit) hlength hlimit
  | beyond header after length hsplit hlength hlimit hend =>
    exact .beyond _ _ _ (split_header_onto_append more hsplit) hlength hlimit hend
  | body header body after hsplit hlength hlimit hend =>
    have hmore := split_header_onto_append more hsplit
    rw [List.append_assoc] at hmore
    exact .body _ _ _ hmore hlength hlimit hend

theorem decode_append (more : Bytes) (h : decode limit buffer ≠ .incomplete) :
    decode limit (buffer ++ more) = decode limit buffer :=
  ((decode_front limit buffer).append more h).decode_eq

/-- What a buffer gives away for its front, and how many octets that takes. -/
def Decoded.taken? : Decoded → Option (Except FrameError Value × Nat)
  | .message value consumed => some (.ok value, consumed)
  | .skipped consumed error => some (.error error, consumed)
  | .incomplete => none
  | .overflow => none

/-- What a complete body gives: its value, or that it is no JSON. -/
def bodyResult (body : Bytes) : Except FrameError Value :=
  (Json.parse body).mapError .malformedBody

theorem Decoded.taken_of_body (body : Bytes) (consumed : Nat) :
    (Decoded.ofBody body consumed).taken? = some (bodyResult body, consumed) := by
  unfold Decoded.ofBody bodyResult
  cases Json.parse body <;> rfl

/-- What is taken from the front of a buffer has a terminator and is part of the buffer. -/
theorem Front.taken_bounds {consumed : Nat} (h : Front limit buffer decoded)
    (htaken : decoded.taken? = some (result, consumed)) :
    terminator.length ≤ consumed ∧ consumed ≤ buffer.length := by
  cases h with
  | noHeader | beyond | noBody => cases htaken
  | badHeader _ _ _ hsplit | tooLarge _ _ _ hsplit =>
    cases htaken
    simp only [split_header_eq hsplit, List.length_append]
    omega
  | body header body after hsplit =>
    rw [Decoded.taken_of_body] at htaken
    cases htaken
    simp only [split_header_eq hsplit, List.length_append]
    omega

/-- No body ends beyond the last address when the buffer and the limit together do not. -/
theorem Front.ne_overflow (h : Front limit buffer decoded)
    (hinside : limit + buffer.length < addressLimit) : decoded ≠ .overflow := by
  intro hoverflow
  cases h with
  | noHeader | badHeader | tooLarge | noBody => cases hoverflow
  | beyond header after length hsplit hlength hlimit hend =>
    simp only [split_header_eq hsplit, List.length_append] at hinside
    omega
  | body header body after =>
    have hbody := Decoded.taken_of_body body (header.length + terminator.length + body.length)
    rw [hoverflow] at hbody
    cases hbody

/-! ## Frames out of a buffer -/

namespace Buffer

/-- Taking a frame out of a buffer is decoding its front and dropping what that takes. -/
theorem next_eq (buffer : Buffer) :
    buffer.next =
      match (decode buffer.limit buffer.held).taken? with
      | some (result, consumed) =>
        (some result, { buffer with held := buffer.held.drop consumed })
      | none => (none, buffer) := by
  unfold next
  cases decode buffer.limit buffer.held <;> rfl

/-- A buffer gives what the body behind its header block stands for, and keeps what follows. -/
theorem next_body {limit : Nat} {held header body after : Bytes}
    (hsplit : splitHeader? held = some (header, body ++ after))
    (hlength : contentLength header = .ok body.length) (hlimit : body.length ≤ limit)
    (hinside : header.length + terminator.length + body.length < addressLimit) :
    next { limit, held } = (some (bodyResult body), { limit, held := after }) := by
  have hdrop : held.drop (header.length + terminator.length + body.length) = after := by
    rw [split_header_eq hsplit, ← List.append_assoc, ← List.length_append, ← List.length_append,
      List.drop_left]
  rw [next_eq]
  simp only [(Front.body _ _ _ hsplit hlength hlimit hinside).decode_eq, Decoded.taken_of_body,
    hdrop]

theorem next_eq_none {buffer rest : Buffer} (h : buffer.next = (none, rest)) :
    rest = buffer ∧ (decode buffer.limit buffer.held).taken? = none := by
  rw [next_eq] at h
  split at h
  · cases h
  next hnone =>
    cases h
    exact ⟨rfl, hnone⟩

/-- A buffer that gives a frame gives up at least four of its octets for it. -/
theorem next_shorter {buffer rest : Buffer} (h : buffer.next = (some result, rest)) :
    rest.held.length < buffer.held.length := by
  rw [next_eq] at h
  split at h
  next consumed htaken =>
    cases h
    have hbounds := (decode_front _ _).taken_bounds htaken
    simp only [terminator, List.length_cons, List.length_nil, List.length_drop] at hbounds ⊢
    omega
  · cases h

/-- The next frame does not depend on the octets that arrive before it is taken. -/
theorem next_extend {buffer rest : Buffer} (bytes : Bytes) (h : buffer.next = (some result, rest)) :
    (buffer.extend bytes).next = (some result, rest.extend bytes) := by
  rw [next_eq] at h
  split at h
  next consumed htaken =>
    cases h
    have hcomplete : decode buffer.limit buffer.held ≠ .incomplete := by
      intro hincomplete
      rw [hincomplete] at htaken
      cases htaken
    have hbounds := (decode_front _ _).taken_bounds htaken
    rw [next_eq]
    simp only [extend, decode_append bytes hcomplete, htaken,
      List.drop_append_of_le_length hbounds.2]
  · cases h

/-- `Drains buffer results final` says that taking frames out of `buffer` until there are no more
gives `results` in order and leaves `final`. -/
inductive Drains : Buffer → List (Except FrameError Value) → Buffer → Prop where
  | done {buffer : Buffer} : buffer.next = (none, buffer) → Drains buffer [] buffer
  | cons {buffer rest final : Buffer} {result : Except FrameError Value}
      {results : List (Except FrameError Value)} :
      buffer.next = (some result, rest) → Drains rest results final →
      Drains buffer (result :: results) final

variable {results : List (Except FrameError Value)}

theorem Drains.unique {buffer final other : Buffer} {others : List (Except FrameError Value)}
    (h : Drains buffer results final) (hother : Drains buffer others other) :
    results = others ∧ final = other := by
  induction h generalizing others with
  | done hnext =>
    cases hother with
    | done => exact ⟨rfl, rfl⟩
    | cons hnext' => cases hnext.symm.trans hnext'
  | cons hnext _ ih =>
    cases hother with
    | done hnext' => cases hnext.symm.trans hnext'
    | cons hnext' hrest =>
      cases hnext.symm.trans hnext'
      obtain ⟨rfl, rfl⟩ := ih hrest
      exact ⟨rfl, rfl⟩

/-- Taking as many frames as there are octets takes all of them, since each is shorter. -/
theorem take_drains (count : Nat) (buffer : Buffer) (h : buffer.held.length ≤ count) :
    Drains buffer (buffer.take count).1 (buffer.take count).2 := by
  induction count generalizing buffer with
  | zero =>
    rcases hnext : buffer.next with ⟨_ | result, rest⟩
    · obtain ⟨rfl, _⟩ := next_eq_none hnext
      exact .done hnext
    · have hshorter := next_shorter hnext
      omega
  | succ count ih =>
    rcases hnext : buffer.next with ⟨_ | result, rest⟩
    · obtain ⟨rfl, _⟩ := next_eq_none hnext
      simpa only [take, hnext] using Drains.done hnext
    · have hshorter := next_shorter hnext
      simpa only [take, hnext] using Drains.cons hnext (ih rest (by omega))

theorem drain_drains (buffer : Buffer) : Drains buffer buffer.drain.1 buffer.drain.2 :=
  take_drains _ _ (Nat.le_refl _)

theorem Drains.next_final {buffer final : Buffer} (h : Drains buffer results final) :
    final.next = (none, final) := by
  induction h with
  | done hnext => exact hnext
  | cons _ _ ih => exact ih

theorem Drains.final_bounds {buffer final : Buffer} (h : Drains buffer results final) :
    final.limit = buffer.limit ∧ final.held.length ≤ buffer.held.length := by
  induction h with
  | done => exact ⟨rfl, Nat.le_refl _⟩
  | @cons buffer rest final result results hnext _ ih =>
    have hshorter := next_shorter hnext
    have hlimit : rest.limit = buffer.limit := by
      rw [next_eq] at hnext
      split at hnext <;> cases hnext
      rfl
    exact ⟨ih.1.trans hlimit, by omega⟩

/-! ## Histories of a buffer -/

/-- What the owner of a buffer does with it. -/
inductive Operation where
  | extend (bytes : Bytes)
  | next
deriving DecidableEq

/-- The octets that operations append, in order. -/
def received : List Operation → Bytes
  | [] => []
  | .extend bytes :: rest => bytes ++ received rest
  | .next :: rest => received rest

/-- What operations take out of a buffer, first to last, and the buffer after them. -/
def run (buffer : Buffer) : List Operation → List (Except FrameError Value) × Buffer
  | [] => ([], buffer)
  | .extend bytes :: rest => (buffer.extend bytes).run rest
  | .next :: rest =>
    match buffer.next with
    | (none, buffer) => buffer.run rest
    | (some result, buffer) =>
      let (results, buffer) := buffer.run rest
      (result :: results, buffer)

/-- What operations and then draining take out is what draining takes out when all octets were there
from the beginning. The induction is on the operations, for every buffer they may start with. -/
theorem Drains.of_run {buffer final : Buffer} (operations : List Operation)
    (h : Drains (buffer.run operations).2 results final) :
    Drains (buffer.extend (received operations)) ((buffer.run operations).1 ++ results) final := by
  fun_induction run buffer operations with
  | case1 => simpa [received, extend] using h
  | case2 buffer bytes rest ih => simpa [received, extend, List.append_assoc] using ih h
  | case3 buffer rest after hnext ih =>
    obtain ⟨rfl, _⟩ := next_eq_none hnext
    exact ih h
  | case4 buffer rest result after hnext results _ hrun ih =>
    -- A frame that is there already is the same with all later octets behind it.
    rw [hrun] at ih
    exact .cons (next_extend _ hnext) (ih h)

/-- However a stream is cut into pieces, and whenever frames are asked for in between, the frames
and frame errors that have come out once the buffer is drained, and the octets left in it, are those
of the stream in one piece; what is left then waits for more octets. -/
theorem run_drain_eq_extend_drain (limit : Nat) (operations : List Operation)
    (h : limit + (received operations).length < addressLimit) :
    let start : Buffer := { limit }
    let history := start.run operations
    (history.1 ++ history.2.drain.1, history.2.drain.2) =
        (start.extend (received operations)).drain ∧
      decode limit history.2.drain.2.held = .incomplete := by
  intro start history
  have hpieces : Drains (start.extend (received operations)) (history.1 ++ history.2.drain.1)
      history.2.drain.2 := Drains.of_run operations (drain_drains _)
  obtain ⟨hresults, hfinal⟩ := hpieces.unique (drain_drains _)
  refine ⟨Prod.ext hresults hfinal, ?_⟩
  obtain ⟨hlimit, hlength⟩ := hpieces.final_bounds
  have hlimit : history.2.drain.2.limit = limit := hlimit
  have hlength : history.2.drain.2.held.length ≤ (received operations).length := by
    simpa [start, extend] using hlength
  obtain ⟨_, hnone⟩ := next_eq_none hpieces.next_final
  rw [hlimit] at hnone
  -- A drained buffer could also have stopped at a body beyond all addresses; the bound excludes it.
  have hinside := (decode_front limit history.2.drain.2.held).ne_overflow (by omega)
  cases hdecoded : decode limit history.2.drain.2.held with
  | incomplete => rfl
  | overflow => exact absurd hdecoded hinside
  | message | skipped => simp [hdecoded, Decoded.taken?] at hnone

/-- A block without a length, cut inside its terminator, and a frame cut inside its body. -/
def brokenStream : List Operation :=
  [.extend [0x58, 0x0D, 0x0A, 0x0D], .next, .extend [0x0A], .next,
    .extend (octets "Content-Length: 4\r\n\r\nnu"), .next, .extend (octets "llCont"), .next]

/-- The stream that is cut in these places gives what it gives in one piece. -/
theorem run_drain_broken_stream :
    4 + (received brokenStream).length < addressLimit ∧
      let start : Buffer := { limit := 4 }
      let history := start.run brokenStream
      (history.1 ++ history.2.drain.1, history.2.drain.2) =
          (start.extend (received brokenStream)).drain ∧
        decode 4 history.2.drain.2.held = .incomplete :=
  have hinside : 4 + (received brokenStream).length < addressLimit := by decide
  ⟨hinside, run_drain_eq_extend_drain 4 brokenStream hinside⟩

end Buffer

end CodeAtlas.Wire
