import CodeAtlas.Server.Provider
import CodeAtlas.Store.Retry

/-!
# Settings

What a user can set: the language server, the index and the logging. A part that is not set has
its default. `Settings.validate` reports the first setting that cannot work.
-/

namespace CodeAtlas

open Json (Decoder Fields Value)
open Store (Error)
open Time (Duration)

namespace Settings

/-- Settings of the language server; times are in milliseconds. -/
structure Language where
  server : Server.Kind := .pylsp
  port : Option Nat := none
  requestTimeout : Nat := 30000
  initializeTimeout : Nat := 120000
  shutdownTimeout : Nat := 5000
  grace : Nat := 2000
  terminate : Nat := 1000
deriving DecidableEq

structure Index where
  path : String := ".lodestar/index.db"
  batchSize : Nat := 1000
  maxRetries : Nat := 3
  retryBackoff : Nat := 100
deriving DecidableEq

end Settings

structure Settings where
  language : Settings.Language := {}
  index : Settings.Index := {}
  level : String := Logging.defaultLevel
deriving DecidableEq

namespace Settings

def decodePath : Decoder String
  | .str path => .ok path
  | value => Decoder.mismatch value "path string"

def Language.decode : Decoder Language :=
  let d : Language := {}
  (Language.mk <$> Fields.defaulted "server" Server.Kind.decode d.server
    <*> Fields.defaulted "tcp_port" (.option .nat16) d.port
    <*> Fields.defaulted "request_timeout_ms" .nat64 d.requestTimeout
    <*> Fields.defaulted "initialize_timeout_ms" .nat64 d.initializeTimeout
    <*> Fields.defaulted "shutdown_timeout_ms" .nat64 d.shutdownTimeout
    <*> Fields.defaulted "process_grace_ms" .nat64 d.grace
    <*> Fields.defaulted "process_terminate_ms" .nat64 d.terminate).record "LspConfig"

def Index.decode : Decoder Index :=
  let d : Index := {}
  (Index.mk <$> Fields.defaulted "path" decodePath d.path
    <*> Fields.defaulted "batch_size" .size d.batchSize
    <*> Fields.defaulted "max_retries" .nat32 d.maxRetries
    <*> Fields.defaulted "retry_backoff_ms" .nat64 d.retryBackoff).record "StoreConfig"

def decodeLevel : Decoder String :=
  (Fields.defaulted "level" .text Logging.defaultLevel).record "LoggingConfig"

def decode : Decoder Settings :=
  let d : Settings := {}
  (Settings.mk <$> Fields.defaulted "lsp" Language.decode d.language
    <*> Fields.defaulted "store" Index.decode d.index
    <*> Fields.defaulted "logging" decodeLevel d.level).record "LodestarConfig"

variable (s : Settings)

/-- Settings as a JSON value; a port that is not set is left out. -/
def toValue : Value :=
  .object [
    ("lsp", .object ([("server", .str s.language.server.name),
      ("request_timeout_ms", .nat s.language.requestTimeout),
      ("initialize_timeout_ms", .nat s.language.initializeTimeout),
      ("shutdown_timeout_ms", .nat s.language.shutdownTimeout),
      ("process_grace_ms", .nat s.language.grace),
      ("process_terminate_ms", .nat s.language.terminate)] ++
      (s.language.port.map fun port => ("tcp_port", Value.nat port)).toList)),
    ("store", .object [("path", .str s.index.path), ("batch_size", .nat s.index.batchSize),
      ("max_retries", .nat s.index.maxRetries),
      ("retry_backoff_ms", .nat s.index.retryBackoff)]),
    ("logging", .object [("level", .str s.level)])]

def clientOptions : Client.Options :=
  { requestTimeout := .ofMillis s.language.requestTimeout
    initializeTimeout := .ofMillis s.language.initializeTimeout
    shutdownTimeout := .ofMillis s.language.shutdownTimeout
    graceful := .ofMillis s.language.grace
    terminate := .ofMillis s.language.terminate }

def storeOptions : Store.Options :=
  { batchSize := s.index.batchSize
    maxRetries := s.index.maxRetries
    retryBackoff := .ofMillis s.index.retryBackoff }

def provider : Except Error Server.Provider :=
  match Server.Provider.ofKind s.language.server s.language.port with
  | .ok provider => .ok provider
  | .error e => .error (.config ("lsp: " ++ e.text))

def timeouts : List (String × Nat) :=
  [("lsp.request_timeout_ms", s.language.requestTimeout),
    ("lsp.initialize_timeout_ms", s.language.initializeTimeout),
    ("lsp.shutdown_timeout_ms", s.language.shutdownTimeout),
    ("lsp.process_grace_ms", s.language.grace),
    ("lsp.process_terminate_ms", s.language.terminate)]

def validate : Except Error Unit := do
  if let some (name, _) := s.timeouts.find? fun (_, value) => value == 0 then
    throw (.config (name ++ " must be greater than zero"))
  if s.language.port = some 0 then
    throw (.config "lsp.tcp_port must not be 0")
  let _ ← s.provider
  if s.index.path.isEmpty then
    throw (.config "store.path must not be empty")
  s.storeOptions.validate
  match Logging.Filter.parse s.level with
  | .ok _ => return
  | .error e => throw (.config s!"logging.level '{s.level}' is invalid: {e.message}")

end Settings

end CodeAtlas
