import CodeAtlas.Files.FileTree
import CodeAtlas.Rpc.Message
import CodeAtlas.Time.Basic
import CodeAtlas.Wire.Frame

/-!
# States, errors and limits of a client

The states of a client and the changes between them that are legal; the causes of failed calls,
their wording, and which of them mean that the connection is lost; how long a client waits for its
server, and how large a message may be.
-/

namespace CodeAtlas.Client

/-- How far a client is with its session. -/
inductive State where
  | disconnected
  | connecting
  | connected
  | initializing
  | initialized
  | shuttingDown
  | error
deriving DecidableEq, Inhabited

namespace State

/-- Every state. -/
def all : List State :=
  [.disconnected, .connecting, .connected, .initializing, .initialized, .shuttingDown, .error]

/-- The name of a state in texts. -/
def name : State → String
  | .disconnected => "Disconnected"
  | .connecting => "Connecting"
  | .connected => "Connected"
  | .initializing => "Initializing"
  | .initialized => "Initialized"
  | .shuttingDown => "ShuttingDown"
  | .error => "Error"

/-- The state of a name. -/
def ofName? (name : String) : Option State := all.find? fun state => state.name == name

/-- Whether a change of the state is legal. -/
def canBecome : State → State → Bool
  | .disconnected, .connecting => true
  | .connecting, .connected => true
  | .connected, .initializing => true
  | .initializing, .initialized => true
  | .connected, .shuttingDown => true
  | .initialized, .shuttingDown => true
  | .error, .shuttingDown => true
  | .shuttingDown, .disconnected => true
  | .error, .disconnected => true
  | .connecting, .error => true
  | .connected, .error => true
  | .initializing, .error => true
  | .initialized, .error => true
  | .shuttingDown, .error => true
  | _, _ => false

/-- The state after a session has failed: a session that is ending anyway stays as it is. -/
def failed (state : State) : State :=
  if state ≠ .shuttingDown ∧ state.canBecome .error then .error else state

/-- The change from one state to another; none if they are the same. -/
def changeTo (source target : State) : List (State × State) :=
  if source = target then [] else [(source, target)]

end State

open Files (Fault)
open Rpc (RequestId)

/-- Why a call failed. -/
inductive Error where
  | spawnFailed (command : String) (cause : Fault)
  | notFound (command hint : String)
  | io (cause : Fault)
  | connect (address : String) (cause : Fault)
  | serverExited
  | frame (cause : Wire.FrameError)
  | message (cause : Rpc.MessageError)
  | serialize (cause : Json.Problem)
  | deserialize (cause : Json.Problem)
  | timeout (id : RequestId) (method : String) (after : Time.Duration)
  | serverError (code : Int) (text : String)
  | cancelled (id : RequestId)
  | duplicateId (id : RequestId)
  | notInitialized (state : State)
  | invalidTransition (source target : State)
  | initializeFailed (text : String)
  | missingCapability (server capability : String)
  | unsupportedTransport (text : String)
  | invalidPath (text : String)
deriving DecidableEq

namespace Error

/-- What is reported of an error. -/
def text : Error → String
  | .spawnFailed command cause =>
    s!"failed to spawn language server '{command}': {cause.message}"
  | .notFound command hint => s!"{command} not found\n\n{hint}"
  | .io cause => s!"LSP communication error: {cause.message}"
  | .connect address cause =>
    s!"failed to connect to language server at {address}: {cause.message}"
  | .serverExited => "language server exited unexpectedly"
  | .frame cause => cause.message
  | .message cause => s!"malformed JSON-RPC message: {cause.message}"
  | .serialize cause => s!"failed to serialize LSP request: {cause.message}"
  | .deserialize cause => s!"failed to deserialize LSP response: {cause.message}"
  | .timeout id method after =>
    s!"request {id.display} ({method}) timed out after {after.text}"
  | .serverError code text => s!"LSP error {code}: {text}"
  | .cancelled id => s!"request {id.display} was cancelled"
  | .duplicateId id => s!"request id {id.display} is already pending"
  | .notInitialized state => s!"language server is not initialized (state: {state.name})"
  | .invalidTransition source target =>
    s!"invalid client state transition: {source.name} -> {target.name}"
  | .initializeFailed text => s!"LSP initialize handshake failed: {text}"
  | .missingCapability server capability =>
    s!"{server} did not advertise required capability '{capability}'"
  | .unsupportedTransport text => s!"unsupported transport: {text}"
  | .invalidPath text => s!"invalid path: {text}"

/-- The wording of the errors behind an error, nearest first. -/
def sources : Error → List String
  | .spawnFailed _ cause => [cause.message]
  | .io cause => [cause.message]
  | .connect _ cause => [cause.message]
  | .frame cause => cause.sources
  | .message cause => cause.message :: cause.sources
  | .serialize cause => [cause.message]
  | .deserialize cause => [cause.message]
  | _ => []

/-- Whether an error means that the connection is lost. -/
def isTransport : Error → Bool
  | .spawnFailed _ _ => true
  | .notFound _ _ => true
  | .io _ => true
  | .connect _ _ => true
  | .serverExited => true
  | _ => false

end Error

open Json (Value)
open Time (Duration)

/-- How long a client waits for what, and how large a message may be. -/
structure Options where
  requestTimeout : Duration := .ofSeconds 30
  initializeTimeout : Duration := .ofSeconds 120
  shutdownTimeout : Duration := .ofSeconds 5
  connectTimeout : Duration := .ofSeconds 10
  /-- How long a process may take to exit by itself. -/
  graceful : Duration := .ofSeconds 2
  /-- How long a process may take to exit when it is asked to. -/
  terminate : Duration := .ofSeconds 1
  maxBody : Nat := Wire.defaultLimit
deriving DecidableEq

namespace Options

/-- Reads limits from an object of milliseconds; what it does not have stays as it is. -/
def update (options : Options) (value : Value) : Options :=
  let nat (name : String) (default : Nat) : Nat :=
    match value.member? name with
    | some (.num (.int n)) => n.toNat
    | _ => default
  let time (name : String) (default : Duration) : Duration :=
    if (value.member? name).isSome then .ofMillis (nat name 0) else default
  { requestTimeout := time "request_timeout_ms" options.requestTimeout
    initializeTimeout := time "initialize_timeout_ms" options.initializeTimeout
    shutdownTimeout := time "shutdown_timeout_ms" options.shutdownTimeout
    connectTimeout := time "connect_timeout_ms" options.connectTimeout
    graceful := time "graceful_ms" options.graceful
    terminate := time "terminate_ms" options.terminate
    maxBody := nat "max_body_len" options.maxBody }

/-- The limits as an object of milliseconds. -/
def toValue (options : Options) : Value :=
  .object [("request_timeout", .nat options.requestTimeout.millis),
    ("initialize_timeout", .nat options.initializeTimeout.millis),
    ("shutdown_timeout", .nat options.shutdownTimeout.millis),
    ("connect_timeout", .nat options.connectTimeout.millis),
    ("graceful", .nat options.graceful.millis),
    ("terminate", .nat options.terminate.millis),
    ("max_body_len", .nat options.maxBody)]

end Options

end CodeAtlas.Client
