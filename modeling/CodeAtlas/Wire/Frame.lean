import CodeAtlas.Json.Reader

/-!
# Framed messages on a byte stream

A frame is a block of header lines, an empty line and a body of JSON; the header line
`Content-Length` gives the length of the body in octets. `Wire.encode` writes a frame and
`Wire.decode` reads one from the front of a buffer: it says how many octets the frame took, or
why it has to be skipped and how many octets to drop for that, or that more octets are needed.
`Buffer.drain` takes frames out of the octets that were received until more are needed.
-/

namespace CodeAtlas.Wire

open Json (Value)

inductive FrameError where
  | missingLength
  | invalidLength (value : String)
  | invalidEncoding
  | bodyTooLarge (length limit : Nat)
  | malformedBody (cause : Json.SyntaxError)
deriving DecidableEq

def FrameError.message : FrameError → String
  | .missingLength => "missing Content-Length header"
  | .invalidLength value => "invalid Content-Length header: " ++ value
  | .invalidEncoding => "frame header is not valid UTF-8"
  | .bodyTooLarge length limit =>
    s!"frame body of {length} bytes exceeds the {limit} byte limit"
  | .malformedBody cause => "frame body is not valid JSON: " ++ cause.message

/-- The wording of the errors behind a frame error. -/
def FrameError.sources : FrameError → List String
  | .malformedBody cause => [cause.message]
  | _ => []

/-- The number of addresses: lengths and offsets are below it. -/
def addressLimit : Nat := 2 ^ 64

inductive Decoded where
  | incomplete
  /-- A frame of `consumed` octets. -/
  | message (value : Value) (consumed : Nat)
  /-- A frame to be skipped by dropping `consumed` octets. -/
  | skipped (consumed : Nat) (error : FrameError)
  /-- A body that would end beyond the last address. -/
  | overflow
deriving DecidableEq

/-- The longest body that is accepted unless another limit is set: 64 MiB. -/
def defaultLimit : Nat := 64 * 1024 * 1024

/-- The octets between header block and body: two line ends. -/
def terminator : Bytes := [0x0D, 0x0A, 0x0D, 0x0A]

/-- The octets before the first terminator, last to first onto `seen`, and those after it. -/
def splitHeaderOnto (seen : Bytes) : Bytes → Option (Bytes × Bytes)
  | 0x0D :: 0x0A :: 0x0D :: 0x0A :: rest => some (seen.reverse, rest)
  | octet :: rest => splitHeaderOnto (octet :: seen) rest
  | [] => none

/-- The header block and the octets after its terminator. -/
def splitHeader? (buffer : Bytes) : Option (Bytes × Bytes) := splitHeaderOnto [] buffer

/-- The lines of a header block, separated by carriage return and line feed. -/
def lines (current : List Char) : List Char → List (List Char)
  | '\r' :: '\n' :: rest => current.reverse :: lines [] rest
  | c :: rest => lines (c :: current) rest
  | [] => [current.reverse]

/-- The trimmed value of a header line that gives the length of the body. -/
def lengthLine? (line : List Char) : Option (List Char) :=
  match Text.splitOnce? ':' line with
  | none => none
  | some (name, value) =>
    if Text.sameUpToCase (Text.trim name) "content-length".toList then some (Text.trim value)
    else none

/-- The length that a header block declares: its first length line decides. -/
def contentLength (header : Bytes) : Except FrameError Nat :=
  match Utf8.decode? header with
  | none => .error .invalidEncoding
  | some text =>
    match (lines [] text).findSome? lengthLine? with
    | none => .error .missingLength
    | some value =>
      match Text.natBelow? addressLimit value with
      | some length => .ok length
      | none => .error (.invalidLength (String.ofList value))

def encode (value : Value) : Bytes :=
  let body := value.bytes
  octets s!"Content-Length: {body.length}\r\n\r\n" ++ body

/-- Reads one frame from the front of a buffer; bodies longer than `limit` are refused. -/
def decode (limit : Nat) (buffer : Bytes) : Decoded :=
  match splitHeader? buffer with
  | none => .incomplete
  | some (header, after) =>
    let start := header.length + terminator.length
    match contentLength header with
    | .error error => .skipped start error
    | .ok length =>
      if limit < length then .skipped start (.bodyTooLarge length limit)
      else if addressLimit ≤ start + length then .overflow
      else
        let body := after.take length
        if body.length < length then .incomplete
        else
          match Json.parse body with
          | .ok value => .message value (start + length)
          | .error cause => .skipped (start + length) (.malformedBody cause)

/-- Octets received and not yet consumed, with the limit on the length of a body. -/
structure Buffer where
  limit : Nat := defaultLimit
  held : Bytes := []
deriving DecidableEq

namespace Buffer

variable (buffer : Buffer)

def extend (bytes : Bytes) : Buffer :=
  { buffer with held := buffer.held ++ bytes }

/-- Takes the next frame, or the reason it was skipped; `none` when more octets are needed. -/
def next : Option (Except FrameError Value) × Buffer :=
  match decode buffer.limit buffer.held with
  | .incomplete => (none, buffer)
  | .overflow => (none, buffer)
  | .message value consumed => (some (.ok value), { buffer with held := buffer.held.drop consumed })
  | .skipped consumed error =>
    (some (.error error), { buffer with held := buffer.held.drop consumed })

/-- Takes at most `count` frames, first to last. -/
def take (buffer : Buffer) : (count : Nat) → List (Except FrameError Value) × Buffer
  | 0 => ([], buffer)
  | count + 1 =>
    match buffer.next with
    | (none, buffer) => ([], buffer)
    | (some result, buffer) =>
      let (results, buffer) := buffer.take count
      (result :: results, buffer)

/-- Takes every frame that is complete. Each takes at least the four octets of a terminator, so the
number of octets bounds the number of frames. -/
def drain : List (Except FrameError Value) × Buffer :=
  buffer.take buffer.held.length

def size : Nat := buffer.held.length

def isEmpty : Bool := buffer.held.isEmpty

end Buffer

end CodeAtlas.Wire
