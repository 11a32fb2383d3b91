import CodeAtlas.Proofs.Wire.Frames
import Mathlib.Data.List.Forall2

/-!
# How far a frame reaches

What is taken from the front of a buffer is the shortest front that decides it: every shorter one
needs more octets (`decode_shorter`), and whatever follows it changes nothing (`Front.alone`). So
draining cuts a stream into such fronts and a rest (`Drains.slices`).

`decodeAt` reads a frame as it is done in memory, by offsets into the buffer, where a sum may exceed
all addresses and a slice may lie outside of the buffer. `Front.decode_at` compares it with `decode`:
no slice is ever outside, and the one sum that may be too large is the end of a body.
-/

namespace CodeAtlas.Wire

open Json (Value)

variable {buffer header after : Bytes} {result : Except FrameError Value} {decoded : Decoded}
  {limit consumed : Nat}

/-! ## The octets that decide -/

/-- A header block is found without the octets behind its terminator. -/
theorem split_header_alone (h : splitHeader? buffer = some (header, after)) :
    splitHeader? (header ++ terminator) = some (header, []) := by
  obtain ⟨found, rest, hsplit, _⟩ := split_header_onto_first [] header []
  rw [List.append_nil] at hsplit
  have hwhole : splitHeader? buffer = some (found, rest ++ after) :=
    split_header_eq h ▸ split_header_onto_append after hsplit
  obtain ⟨rfl, hrest⟩ := Prod.mk.inj (Option.some.inj (h.symm.trans hwhole))
  rwa [List.self_eq_append_left.mp hrest] at hsplit

theorem take_header (header after : Bytes) :
    (header ++ terminator ++ after).take (header.length + terminator.length) =
      header ++ terminator :=
  List.take_left' (List.length_append ..)

/-- What is taken from the front of a buffer is read the same without what follows it. -/
theorem Front.alone (h : Front limit buffer decoded)
    (htaken : decoded.taken? = some (result, consumed)) :
    Front limit (buffer.take consumed) decoded := by
  cases h with
  | noHeader | beyond | noBody => cases htaken
  | badHeader header after error hsplit hlength =>
    cases htaken
    rw [split_header_eq hsplit, take_header]
    exact .badHeader _ _ _ (split_header_alone hsplit) hlength
  | tooLarge header after length hsplit hlength hlimit =>
    cases htaken
    rw [split_header_eq hsplit, take_header]
    exact .tooLarge _ _ _ (split_header_alone hsplit) hlength hlimit
  | body header body after hsplit hlength hlimit hend =>
    rw [Decoded.taken_of_body] at htaken
    cases htaken
    have hbody : splitHeader? (header ++ terminator ++ body) = some (header, body ++ []) := by
      rw [List.append_nil]
      exact split_header_onto_append body (split_header_alone hsplit)
    have hfront := Front.body _ _ _ hbody hlength hlimit hend
    rwa [split_header_eq hsplit, ← List.append_assoc,
      List.take_left' (by simp only [List.length_append])]

/-- The octets that are taken from a buffer decide what is read, whatever follows them. -/
theorem decode_alone (h : (decode limit buffer).taken? = some (result, consumed)) (more : Bytes) :
    decode limit (buffer.take consumed ++ more) = decode limit buffer := by
  refine (((decode_front limit buffer).alone h).append more ?_).decode_eq
  intro hincomplete
  rw [hincomplete] at h
  cases h

/-- Fewer octets than are taken from a buffer decide nothing. -/
theorem decode_shorter (h : (decode limit buffer).taken? = some (result, consumed)) {count : Nat}
    (hcount : count < consumed) : decode limit (buffer.take count) = .incomplete := by
  by_contra hcomplete
  -- Else the shorter front would be read like the buffer, and take more octets than it has.
  have hsame := decode_append (buffer.drop count) hcomplete
  rw [List.take_append_drop] at hsame
  have hbounds := (decode_front limit (buffer.take count)).taken_bounds (hsame ▸ h)
  rw [List.length_take] at hbounds
  omega

/-- Octets that are a frame of their own, or a block to be skipped, and what they give. -/
def Gives (limit : Nat) (slice : Bytes) (result : Except FrameError Value) : Prop :=
  (decode limit slice).taken? = some (result, slice.length)

namespace Buffer

/-- Draining cuts what a buffer holds into octets that give the results, and what is left. -/
theorem Drains.slices {buffer final : Buffer} {results : List (Except FrameError Value)}
    (h : Drains buffer results final) :
    ∃ slices : List Bytes, List.Forall₂ (Gives buffer.limit) slices results ∧
      slices.flatten ++ final.held = buffer.held := by
  induction h with
  | done => exact ⟨[], .nil, rfl⟩
  | @cons buffer rest final result results hnext _ ih =>
    obtain ⟨slices, hslices, hheld⟩ := ih
    rw [next_eq] at hnext
    split at hnext
    next consumed htaken =>
      cases hnext
      have hbounds := (decode_front _ _).taken_bounds htaken
      have hfirst : Gives buffer.limit (buffer.held.take consumed) result := by
        have halone := decode_alone htaken []
        rw [List.append_nil] at halone
        rw [Gives, halone, List.length_take, Nat.min_eq_left hbounds.2]
        exact htaken
      refine ⟨buffer.held.take consumed :: slices, .cons hfirst hslices, ?_⟩
      rw [List.flatten_cons, List.append_assoc, hheld, List.take_append_drop]
    next => cases hnext

/-- Each result takes a terminator at least. -/
theorem slices_length {slices : List Bytes} {results : List (Except FrameError Value)}
    (h : List.Forall₂ (Gives limit) slices results) :
    terminator.length * results.length ≤ slices.flatten.length := by
  induction h with
  | nil => simp
  | cons hfirst _ ih =>
    have hbounds := (decode_front _ _).taken_bounds hfirst
    rw [List.length_cons, Nat.mul_succ, List.flatten_cons, List.length_append]
    omega

/-- What is left in a drained buffer needs more octets. -/
theorem Drains.final_incomplete {buffer final : Buffer} {results : List (Except FrameError Value)}
    (h : Drains buffer results final) (hinside : buffer.limit + buffer.held.length < addressLimit) :
    decode buffer.limit final.held = .incomplete := by
  obtain ⟨hlimit, hlength⟩ := h.final_bounds
  obtain ⟨_, hnone⟩ := next_eq_none h.next_final
  rw [hlimit] at hnone
  have hinside := (decode_front buffer.limit final.held).ne_overflow (by omega)
  cases hdecoded : decode buffer.limit final.held with
  | incomplete => rfl
  | overflow => exact absurd hdecoded hinside
  | message | skipped => simp [hdecoded, Decoded.taken?] at hnone

/-- What is taken from the front of a buffer has at least the octets of a terminator; fewer octets
decide nothing, and further ones change nothing. So whatever is done with a buffer, there is at most
one result for every four octets that it was fed, the octets that were taken for the results, in
order, and those that are left are all that it was fed, and the latter need more. -/
theorem consumed_least (buffer : Bytes) (h : limit + buffer.length < addressLimit) :
    (∀ result consumed, (decode limit buffer).taken? = some (result, consumed) →
      4 ≤ consumed ∧ consumed ≤ buffer.length ∧
        (∀ count < consumed, decode limit (buffer.take count) = .incomplete) ∧
        ∀ more, decode limit (buffer.take consumed ++ more) = decode limit buffer) ∧
    ∀ operations, received operations = buffer →
      let history := run { limit } operations
      let results := history.1 ++ history.2.drain.1
      4 * results.length ≤ buffer.length ∧ decode limit history.2.drain.2.held = .incomplete ∧
        ∃ slices : List Bytes, List.Forall₂ (Gives limit) slices results ∧
          slices.flatten ++ history.2.drain.2.held = buffer := by
  constructor
  · intro result consumed htaken
    obtain ⟨hleast, hmost⟩ := (decode_front limit buffer).taken_bounds htaken
    exact ⟨hleast, hmost, fun count => decode_shorter htaken, decode_alone htaken⟩
  · rintro operations rfl history results
    have hdrains : Drains (extend { limit } (received operations)) results history.2.drain.2 :=
      Drains.of_run operations (drain_drains _)
    obtain ⟨slices, hslices, hheld⟩ := hdrains.slices
    have hlength := congrArg List.length hheld
    have hcount := slices_length hslices
    rw [List.length_append] at hlength
    simp only [extend, List.nil_append, terminator, List.length_cons, List.length_nil]
      at hlength hcount hheld
    exact ⟨by omega, hdrains.final_incomplete (by simpa [extend] using h), slices, hslices, hheld⟩

/-- The first five octets of a stream, which name no length, are skipped. -/
theorem broken_stream_consumed :
    4 + (received brokenStream).length < addressLimit ∧
      (∀ count < 5, decode 4 ((received brokenStream).take count) = .incomplete) ∧
      let history := run { limit := 4 } brokenStream
      4 * (history.1 ++ history.2.drain.1).length ≤ (received brokenStream).length := by
  have hinside : 4 + (received brokenStream).length < addressLimit := by decide +kernel
  have htaken : (decode 4 (received brokenStream)).taken? = some (.error .missingLength, 5) := by
    decide +kernel
  obtain ⟨htake, hdrain⟩ := consumed_least (received brokenStream) hinside
  exact ⟨hinside, (htake _ _ htaken).2.2.1, (hdrain brokenStream rfl).1⟩

end Buffer

/-! ## Reading by offsets -/

/-- What stops a computation with offsets: a sum beyond all addresses, or a slice that is not part
of the buffer. -/
inductive OffsetFault where
  | sum
  | slice
deriving DecidableEq

def addOffsets (a b : Nat) : Except OffsetFault Nat :=
  if a + b < addressLimit then .ok (a + b) else .error .sum

/-- The octets of a buffer from an offset up to another. -/
def slice (buffer : Bytes) (start stop : Nat) : Except OffsetFault Bytes :=
  if start ≤ stop ∧ stop ≤ buffer.length then .ok ((buffer.take stop).drop start)
  else .error .slice

/-- The offset of the first terminator. -/
def headerEnd? (buffer : Bytes) : Option Nat := buffer.tails.findIdx? terminator.isPrefixOf

/-- Reads the body of a frame, which starts at an offset. -/
def bodyAt (limit : Nat) (buffer : Bytes) (start length : Nat) : Except OffsetFault Decoded :=
  if limit < length then .ok (.skipped start (.bodyTooLarge length limit))
  else do
    let stop ← addOffsets start length
    if buffer.length < stop then return .incomplete
    else return .ofBody (← slice buffer start stop) stop

/-- Reads one frame from the front of a buffer by the offsets of its parts. -/
def decodeAt (limit : Nat) (buffer : Bytes) : Except OffsetFault Decoded :=
  match headerEnd? buffer with
  | none => .ok .incomplete
  | some stop => do
    let start ← addOffsets stop terminator.length
    match contentLength (← slice buffer 0 stop) with
    | .error error => return .skipped start error
    | .ok length => bodyAt limit buffer start length

theorem header_end_onto (seen buffer : Bytes) :
    (splitHeaderOnto seen buffer).map (·.1.length) = (headerEnd? buffer).map (· + seen.length) := by
  fun_induction splitHeaderOnto seen buffer with
  | case1 seen rest => simp [headerEnd?, terminator, List.findIdx?_cons]
  | case2 seen octet rest hother ih =>
    have hnone : terminator.isPrefixOf (octet :: rest) = false := by
      rw [Bool.eq_false_iff, ne_eq, List.isPrefixOf_iff_prefix]
      rintro ⟨tail, htail⟩
      cases htail
      exact hother tail rfl rfl
    rw [ih]
    simp [headerEnd?, List.findIdx?_cons, hnone, Function.comp_def, Nat.add_assoc, Nat.add_comm 1]
  | case3 seen => rfl

/-- The first terminator ends the header block. -/
theorem header_end_eq (buffer : Bytes) :
    headerEnd? buffer = (splitHeader? buffer).map (·.1.length) := by
  have hend := header_end_onto [] buffer
  simpa [splitHeader?] using hend.symm

theorem add_offsets_eq {a b : Nat} (h : a + b < addressLimit) : addOffsets a b = .ok (a + b) :=
  if_pos h

theorem slice_eq (front middle back : Bytes) :
    slice (front ++ middle ++ back) front.length (front.length + middle.length) = .ok middle := by
  rw [slice, if_pos (by simp), List.take_left' List.length_append, List.drop_left]

/-- The header block is inside of the buffer, and so is the offset behind it. -/
theorem decode_at_header (hsplit : splitHeader? buffer = some (header, after))
    (hbuffer : buffer.length < addressLimit) :
    decodeAt limit buffer =
      match contentLength header with
      | .error error => .ok (.skipped (header.length + terminator.length) error)
      | .ok length => bodyAt limit buffer (header.length + terminator.length) length := by
  have hparts := split_header_eq hsplit
  have hslice : slice buffer 0 header.length = .ok header := by
    simpa [hparts] using slice_eq [] header (terminator ++ after)
  have hstart : header.length + terminator.length < addressLimit := by
    rw [hparts, List.length_append, List.length_append] at hbuffer
    omega
  simp only [decodeAt, header_end_eq, hsplit, Option.map_some, add_offsets_eq hstart, hslice]
  rfl

theorem body_at_eq {start length : Nat} (hlimit : length ≤ limit)
    (hinside : start + length < addressLimit) :
    bodyAt limit buffer start length =
      if buffer.length < start + length then .ok .incomplete
      else (slice buffer start (start + length)).map (.ofBody · (start + length)) := by
  simp only [bodyAt, if_neg (Nat.not_lt.mpr hlimit), add_offsets_eq hinside]
  rfl

theorem Decoded.of_body_ne_overflow (body : Bytes) (consumed : Nat) :
    Decoded.ofBody body consumed ≠ .overflow := by
  unfold Decoded.ofBody
  cases Json.parse body <;> nofun

/-- In a buffer that fits into memory, reading by offsets gives what `decode` gives, except that it
stops where a body would end beyond all addresses. -/
theorem Front.decode_at (h : Front limit buffer decoded) (hbuffer : buffer.length < addressLimit) :
    decodeAt limit buffer = if decoded = .overflow then .error .sum else .ok decoded := by
  cases h with
  | noHeader hsplit => simp [decodeAt, header_end_eq, hsplit]
  | badHeader header after error hsplit hlength =>
    simp [decode_at_header hsplit hbuffer, hlength]
  | tooLarge header after length hsplit hlength hlimit =>
    simp [decode_at_header hsplit hbuffer, hlength, bodyAt, hlimit]
  | beyond header after length hsplit hlength hlimit hover =>
    simp only [decode_at_header hsplit hbuffer, hlength, bodyAt, addOffsets,
      if_neg (Nat.not_lt.mpr hlimit), if_neg (Nat.not_lt.mpr hover), if_true]
    rfl
  | noBody header after length hsplit hlength hlimit hinside hshort =>
    have hend : buffer.length < header.length + terminator.length + length := by
      rw [split_header_eq hsplit, List.length_append, List.length_append]
      omega
    simp [decode_at_header hsplit hbuffer, hlength, body_at_eq hlimit hinside, hend]
  | body header body after hsplit hlength hlimit hinside =>
    have hparts : buffer = header ++ terminator ++ body ++ after := by
      rw [split_header_eq hsplit, ← List.append_assoc]
    have hslice := slice_eq (header ++ terminator) body after
    rw [← hparts, List.length_append] at hslice
    have hend : header.length + terminator.length + body.length ≤ buffer.length := by
      simp only [hparts, List.length_append]
      omega
    simp only [decode_at_header hsplit hbuffer, hlength, body_at_eq hlimit hinside,
      if_neg (Nat.not_lt.mpr hend), if_neg (Decoded.of_body_ne_overflow _ _), hslice]
    rfl

/-- The length that the header block of a buffer gives is within the limit, and a body of that
length ends beyond all addresses. -/
def EndsBeyond (limit : Nat) (buffer : Bytes) : Prop :=
  ∃ header after length, splitHeader? buffer = some (header, after) ∧
    contentLength header = .ok length ∧ length ≤ limit ∧
    addressLimit ≤ header.length + terminator.length + length

theorem decode_eq_overflow_iff : decode limit buffer = .overflow ↔ EndsBeyond limit buffer := by
  constructor
  · intro h
    have hfront := decode_front limit buffer
    rw [h] at hfront
    generalize hover : Decoded.overflow = decoded at hfront
    cases hfront with
    | beyond header after length hsplit hlength hlimit hend =>
      exact ⟨header, after, length, hsplit, hlength, hlimit, hend⟩
    | body => exact absurd hover.symm (Decoded.of_body_ne_overflow _ _)
    | _ => cases hover
  · rintro ⟨header, after, length, hsplit, hlength, hlimit, hend⟩
    exact (Front.beyond _ _ _ hsplit hlength hlimit hend).decode_eq

/-- For every limit and every buffer in memory, every slice that is read lies in the buffer; and
reading comes to its end, with what `decode` gives, exactly if no body that is within the limit ends
beyond all addresses. None does as long as the limit and the buffer together fit into memory. -/
theorem decode_at_safe_iff (limit : Nat) (buffer : Bytes) (hbuffer : buffer.length < addressLimit) :
    decodeAt limit buffer ≠ .error .slice ∧
      (decodeAt limit buffer = .ok (decode limit buffer) ↔ ¬ EndsBeyond limit buffer) ∧
      (decode limit buffer = .overflow ↔ EndsBeyond limit buffer) ∧
      (limit + buffer.length < addressLimit → ¬ EndsBeyond limit buffer) := by
  have hfront := decode_front limit buffer
  rw [hfront.decode_at hbuffer, ← decode_eq_overflow_iff]
  split
  next hover => exact ⟨nofun, iff_of_false nofun (not_not_intro hover), .rfl, hfront.ne_overflow⟩
  next hover => exact ⟨nofun, iff_of_true rfl hover, .rfl, hfront.ne_overflow⟩

/-- A body may end at the last address. -/
theorem decode_at_last_address :
    let buffer := octets "content-length:18446744073709551576\r\n\r\n"
    buffer.length < addressLimit ∧ decodeAt (addressLimit - 1) buffer = .ok .incomplete := by
  intro buffer
  have hbuffer : buffer.length < addressLimit := by decide +kernel
  have hread : decode (addressLimit - 1) buffer = .incomplete := by decide +kernel
  have hsafe : ¬ EndsBeyond (addressLimit - 1) buffer := by
    rw [← decode_eq_overflow_iff, hread]
    nofun
  exact ⟨hbuffer, hread ▸ (decode_at_safe_iff (addressLimit - 1) buffer hbuffer).2.1.mpr hsafe⟩

/-- The longest length that can be declared is too long behind any header block. -/
theorem decode_at_beyond :
    decodeAt (addressLimit - 1) (octets "Content-Length: 18446744073709551615\r\n\r\n") =
      .error .sum := by
  decide +kernel

end CodeAtlas.Wire
