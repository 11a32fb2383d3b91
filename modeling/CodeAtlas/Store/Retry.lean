import CodeAtlas.Logging.Filter
import CodeAtlas.Store.Error
import CodeAtlas.Time.Basic

/-!
# Retries

A `Session` keeps a connection to a world. Writes are tried again after failures that may pass, up
to a limit and on a new connection each time. A damaged world is replaced once per operation,
without counting as a try. Everything else that fails is reported at once. Reads are tried once.
-/

namespace CodeAtlas.Store

open Json (Decoder Fields Value)
open Time (Duration)

structure Options where
  batchSize : Nat := 1000
  maxRetries : Nat := 3
  retryBackoff : Duration := .ofMillis 100
  busyTimeout : Duration := .ofSeconds 5
deriving DecidableEq

namespace Options

/-- Checks that batches have rows and that a write is tried at all. -/
def validate (options : Options) : Except Error Unit :=
  if options.batchSize = 0 then .error (.config "batch_size must be at least 1")
  else if options.maxRetries = 0 then .error (.config "max_retries must be at least 1")
  else .ok ()

def decode : Decoder Options :=
  (Options.mk <$> Fields.required "batch_size" .size <*> Fields.required "max_retries" .nat32
    <*> Fields.required "retry_backoff" Duration.decode
    <*> Fields.required "busy_timeout" Duration.decode).record "StoreOptions"

def toValue (options : Options) : Value :=
  .object [("batch_size", .nat options.batchSize), ("max_retries", .nat options.maxRetries),
    ("retry_backoff", options.retryBackoff.toValue), ("busy_timeout", options.busyTimeout.toValue)]

end Options

open Logging (Event)

inductive FailureClass where
  | corruption
  /-- The same operation may succeed on a new connection. -/
  | transient
  /-- The same operation would fail again. -/
  | permanent
deriving DecidableEq

/-- The class of a failure, by its result code: damage and foreign files are corruption; locks, lack
of memory or space and faults of the system may pass. -/
def DatabaseError.classify : DatabaseError → FailureClass
  | .failure 11 _ => .corruption
  | .failure 26 _ => .corruption
  | .failure 5 _ => .transient
  | .failure 6 _ => .transient
  | .failure 7 _ => .transient
  | .failure 10 _ => .transient
  | .failure 13 _ => .transient
  | .failure 14 _ => .transient
  | _ => .permanent

/-- Something that is done with a connection to a world. -/
abbrev Body (κ ω α : Type) := κ → ω → Result α × κ × ω

/-- A connection kept for later, the world that it connects to, and what has been reported. -/
structure Session (κ ω : Type) where
  connection : Option κ
  world : ω
  log : List Event := []

/-- How to connect to a world and to close a connection, and how to replace a world that is damaged.
-/
structure Access (κ ω : Type) where
  connect : ω → Result κ × ω
  disconnect : κ → ω → ω
  replace : ω → Except Error κ × ω × List Event

namespace Session

variable {κ ω α : Type}

def forget (access : Access κ ω) (s : Session κ ω) : Session κ ω :=
  match s.connection with
  | some connection => { s with connection := none, world := access.disconnect connection s.world }
  | none => s

def note (s : Session κ ω) (event : Event) : Session κ ω := { s with log := s.log ++ [event] }

/-- Runs a body on the connection, after connecting if there is none. -/
def attempt (access : Access κ ω) (body : Body κ ω α) (s : Session κ ω) : Result α × Session κ ω :=
  match s.connection with
  | some connection =>
    let (result, connection, world) := body connection s.world
    (result, { s with connection := some connection, world })
  | none =>
    match access.connect s.world with
    | (.ok connection, world) =>
      let (result, connection, world) := body connection world
      (result, { s with connection := some connection, world })
    | (.error e, world) => (.error e, { s with world })

/-- Reads once. A failure that is not permanent closes the connection. -/
def read (access : Access κ ω) (body : Body κ ω α)
    (s : Session κ ω) : Except Error α × Session κ ω :=
  match s.attempt access body with
  | (.ok a, s) => (.ok a, s)
  | (.error e, s) => (.error (.database e), if e.classify = .permanent then s else s.forget access)

end Session

/-- An operation that is tried up to a number of times. -/
structure Operation where
  name : String
  path : String
  limit : Nat

namespace Operation

variable {κ ω α : Type} (op : Operation) (access : Access κ ω)

def retrying (attempt : Nat) (e : DatabaseError) : Event :=
  { level := .warn
    text := "Transient database failure; retrying"
    fields := [("operation", op.name), ("attempt", toString attempt),
      ("max_attempts", toString op.limit), ("error", e.message)] }

def damaged (e : DatabaseError) : Event :=
  { level := .warn
    text := "Database corruption detected; recreating"
    fields := [("path", op.path), ("operation", op.name), ("error", e.message)] }

/-- Tries a body, and `left` more times after failures that may pass. `corrupted` takes over when
the world is damaged. -/
def tries (op : Operation) (access : Access κ ω) (body : Body κ ω α)
    (corrupted : Nat → DatabaseError → Session κ ω → Except Error α × Session κ ω) :
    (left : Nat) → Session κ ω → Except Error α × Session κ ω
  | left, s =>
    match s.attempt access body with
    | (.ok a, s) => (.ok a, s)
    | (.error e, s) =>
      match e.classify with
      | .permanent => (.error (.database e), s)
      | .corruption => corrupted left e s
      | .transient =>
        match left with
        | 0 => (.error (.retriesExhausted op.name op.limit e), s.forget access)
        | left + 1 =>
          tries op access body corrupted left
            ((s.forget access).note (op.retrying (op.limit - left - 1) e))

/-- Replaces a damaged world and keeps the new connection. -/
def recover (s : Session κ ω) : Except Error Unit × Session κ ω :=
  match access.replace (s.forget access).world with
  | (.ok connection, world, events) =>
    (.ok (), { connection := some connection, world, log := s.log ++ events })
  | (.error e, world, events) => (.error e, { connection := none, world, log := s.log ++ events })

/-- Gives up on a world that is damaged for the second time. -/
def giveUp (_ : Nat) (e : DatabaseError) (s : Session κ ω) : Except Error α × Session κ ω :=
  (.error (.corrupted op.path e.message), s.forget access)

/-- Replaces a world that is damaged for the first time and goes on. -/
def restart (body : Body κ ω α) (left : Nat) (e : DatabaseError) (s : Session κ ω) :
    Except Error α × Session κ ω :=
  match recover access (s.note (op.damaged e)) with
  | (.ok (), s) => op.tries access body (op.giveUp access) left s
  | (.error e, s) => (.error e, s)

def run (body : Body κ ω α) (s : Session κ ω) : Except Error α × Session κ ω :=
  op.tries access body (op.restart access body) (op.limit - 1) s

end Operation

end CodeAtlas.Store
