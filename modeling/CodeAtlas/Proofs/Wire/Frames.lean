import CodeAtlas.Proofs.Wire.Chunks

/-!
# A frame does not damage its neighbours

The body of a frame may be any octets: a terminator or the text of a header in it is not looked at,
since the header block, which ends at the first terminator (`ends_once_iff`), says where the body
ends. So `drain_frames` takes each frame out of a stream in its turn, be its body JSON or not.
-/

namespace CodeAtlas.Wire

open Json (Value)

/-- A header block is found no later than at any terminator of the buffer. -/
theorem split_header_onto_first (seen front back : Bytes) :
    ∃ header after, splitHeaderOnto seen (front ++ terminator ++ back) = some (header, after) ∧
      header.length ≤ seen.length + front.length := by
  induction front generalizing seen with
  | nil => exact ⟨seen.reverse, back, by simp [terminator, splitHeaderOnto], by simp⟩
  | cons octet front ih =>
    rw [List.cons_append, List.cons_append, splitHeaderOnto.eq_def]
    split
    next rest _ => exact ⟨seen.reverse, rest, rfl, by simp⟩
    next heq =>
      cases heq
      obtain ⟨header, after, hsplit, hle⟩ := ih (octet :: seen)
      exact ⟨header, after, hsplit, by simp only [List.length_cons] at hle ⊢; omega⟩
    next heq => cases heq

/-- The first terminator of a header block is the one at its end. -/
def EndsOnce (header : Bytes) : Prop :=
  ∀ front back, header ++ terminator = front ++ terminator ++ back → back = []

theorem ends_once_iff {header : Bytes} :
    EndsOnce header ↔ splitHeader? (header ++ terminator) = some (header, []) := by
  constructor
  · intro h
    obtain ⟨found, after, hsplit, _⟩ := split_header_onto_first [] header []
    rw [List.append_nil] at hsplit
    have heq := split_header_eq hsplit
    obtain rfl := h _ _ heq
    rw [List.append_nil] at heq
    rw [List.append_cancel_right heq]
    rwa [List.append_cancel_right heq] at hsplit
  · intro h front back heq
    obtain ⟨found, after, hsplit, hle⟩ := split_header_onto_first [] front back
    rw [← heq] at hsplit
    cases h.symm.trans hsplit
    have hlength := congrArg List.length heq
    simp only [List.length_append, List.length_nil] at hlength hle
    exact List.length_eq_zero_iff.mp (by omega)

/-- A frame as it stands in a stream: a header block that ends at its first terminator, and a body
of as many octets as the block says. -/
structure RawFrame where
  header : Bytes
  body : Bytes
  endsOnce : EndsOnce header
  length : contentLength header = .ok body.length

def RawFrame.bytes (frame : RawFrame) : Bytes := frame.header ++ terminator ++ frame.body

namespace Buffer

/-- A buffer gives what the frame at its front stands for, and keeps what follows. -/
theorem next_frame {limit : Nat} {frame : RawFrame} (hlimit : frame.body.length ≤ limit)
    (hinside : frame.bytes.length < addressLimit) (rest : Bytes) :
    next { limit, held := frame.bytes ++ rest } =
      (some (bodyResult frame.body), { limit, held := rest }) := by
  have hsplit := split_header_onto_append (frame.body ++ rest) (ends_once_iff.mp frame.endsOnce)
  rw [List.nil_append, ← List.append_assoc] at hsplit
  rw [RawFrame.bytes, List.length_append, List.length_append] at hinside
  exact next_body hsplit frame.length hlimit hinside

theorem drains_frames {limit : Nat} {frames : List RawFrame}
    (hlimit : ∀ frame ∈ frames, frame.body.length ≤ limit)
    (hinside : (frames.flatMap RawFrame.bytes).length < addressLimit) :
    Drains { limit, held := frames.flatMap RawFrame.bytes }
      (frames.map fun frame => bodyResult frame.body) { limit } := by
  induction frames with
  | nil => exact .done rfl
  | cons frame frames ih =>
    rw [List.flatMap_cons, List.length_append] at hinside
    exact .cons (next_frame (hlimit frame List.mem_cons_self) (by omega) _)
      (ih (fun other hother => hlimit other (List.mem_cons_of_mem frame hother)) (by omega))

/-- A buffer that is fed frames gives one result for each, in order: the value of the body, or that
it is no JSON. Nothing is left in it. -/
theorem drain_frames {limit : Nat} {frames : List RawFrame}
    (hlimit : ∀ frame ∈ frames, frame.body.length ≤ limit)
    (hinside : (frames.flatMap RawFrame.bytes).length < addressLimit) :
    (extend { limit } (frames.flatMap RawFrame.bytes)).drain =
      (frames.map fun frame => bodyResult frame.body, { limit }) := by
  obtain ⟨hresults, hfinal⟩ := (drain_drains _).unique (drains_frames hlimit hinside)
  exact Prod.ext hresults hfinal

/-- Bodies that are a frame of their own, empty, no text, and JSON. -/
def mixedFrames : List RawFrame :=
  [⟨octets "Content-Length: 23", octets "Content-Length: 2\r\n\r\n[]",
      ends_once_iff.mpr (by decide), rfl⟩,
    ⟨octets "content-length:0\r\nX: y", [], ends_once_iff.mpr (by decide), rfl⟩,
    ⟨octets "Content-Length: 3", [0x22, 0xFF, 0x22], ends_once_iff.mpr (by decide), rfl⟩,
    ⟨octets "Content-Length: 2", octets "[]", ends_once_iff.mpr (by decide), rfl⟩]

theorem drain_mixed_frames :
    (∀ frame ∈ mixedFrames, frame.body.length ≤ 23) ∧
      (mixedFrames.flatMap RawFrame.bytes).length < addressLimit ∧
      (extend { limit := 23 } (mixedFrames.flatMap RawFrame.bytes)).drain =
        (mixedFrames.map fun frame => bodyResult frame.body, { limit := 23 }) := by
  have hlimit : ∀ frame ∈ mixedFrames, frame.body.length ≤ 23 := by decide +kernel
  have hinside : (mixedFrames.flatMap RawFrame.bytes).length < addressLimit := by decide +kernel
  exact ⟨hlimit, hinside, drain_frames hlimit hinside⟩

end Buffer

end CodeAtlas.Wire
