import CodeAtlas.Settings.Basic
import CodeAtlas.Yaml.Decode
import CodeAtlas.Yaml.Printer

/-!
# Settings in a file

Settings are kept as a YAML document. `toYaml` writes every setting, and `ofYaml` takes what is not
written from the defaults. `load` also checks what it read, and `save` makes the directory it needs.
-/

namespace CodeAtlas.Settings

open Files (FileTree)
open Store (Error)
open Yaml (Decoder Document)

def setting {α β : Type} (name : String) (decode : Decoder β) (set : β → α → α) :
    String × Decoder (α → α) :=
  (name, fun document path node => set <$> decode document path node)

def millisOfNode : Decoder Nat := .nat 64 "u64"

def kindOfNode : Decoder Server.Kind := fun document path node =>
  Server.Kind.ofName <$> Yaml.Decoder.variant Server.Kind.names document path node

def languageOfNode : Decoder Language :=
  .record "LspConfig" {} [
    setting "server" kindOfNode fun v s => { s with server := v },
    setting "tcp_port" (.option (.nat 16 "u16")) fun v s => { s with port := v },
    setting "request_timeout_ms" millisOfNode fun v s => { s with requestTimeout := v },
    setting "initialize_timeout_ms" millisOfNode fun v s => { s with initializeTimeout := v },
    setting "shutdown_timeout_ms" millisOfNode fun v s => { s with shutdownTimeout := v },
    setting "process_grace_ms" millisOfNode fun v s => { s with grace := v },
    setting "process_terminate_ms" millisOfNode fun v s => { s with terminate := v }]

def indexOfNode : Decoder Index :=
  .record "StoreConfig" {} [
    setting "path" (.text "path string") fun v s => { s with path := v },
    setting "batch_size" (.nat 64 "usize") fun v s => { s with batchSize := v },
    setting "max_retries" (.nat 32 "u32") fun v s => { s with maxRetries := v },
    setting "retry_backoff_ms" millisOfNode fun v s => { s with retryBackoff := v }]

def levelOfNode : Decoder String :=
  .record "LoggingConfig" Logging.defaultLevel [
    setting "level" (.text "a string") fun v _ => v]

def ofNode : Decoder Settings :=
  .record "LodestarConfig" {} [
    setting "lsp" languageOfNode fun v s => { s with language := v },
    setting "store" indexOfNode fun v s => { s with index := v },
    setting "logging" levelOfNode fun v s => { s with level := v }]

/-- What is said of a text that is no document, or none that means anything. -/
def malformed : Error := .config "<yaml syntax>"

/-- The settings that a text writes, checked. Of two faults of a text the one that makes it no
meaningful document is told. -/
def ofYaml (text : String) : Except Error Settings :=
  match Document.parse? text with
  | none => .error malformed
  | some document =>
    let checked : Except Error Settings :=
      match ofNode document [] document.root with
      | .error fault => .error (.config fault.message)
      | .ok settings => settings.validate.map fun _ => settings
    match checked with
    | .ok settings => .ok settings
    | .error e => .error (if document.isMeaningful then e else malformed)

/-- A name and its value on a line of a document; a value that ends its last line itself is not
followed by another line end. -/
def line (name value : String) : String :=
  let finish := if value.toList.getLast?.any Yaml.isBreak then "" else "\n"
  s!"  {name}: {value}{finish}"

/-- A part of a document: a name and the names and values below it. -/
def section_ (name : String) (members : List (String × String)) : String :=
  name ++ ":\n" ++ String.join (members.map fun (key, value) => line key value)

def toYaml (s : Settings) : String :=
  let l := s.language
  section_ "lsp" ([("server", l.server.name)] ++
      (l.port.map fun port => ("tcp_port", toString port)).toList ++
      [("request_timeout_ms", toString l.requestTimeout),
        ("initialize_timeout_ms", toString l.initializeTimeout),
        ("shutdown_timeout_ms", toString l.shutdownTimeout),
        ("process_grace_ms", toString l.grace),
        ("process_terminate_ms", toString l.terminate)]) ++
    section_ "store" [("path", Yaml.Printer.scalarText 4 s.index.path),
      ("batch_size", toString s.index.batchSize),
      ("max_retries", toString s.index.maxRetries),
      ("retry_backoff_ms", toString s.index.retryBackoff)] ++
    section_ "logging" [("level", Yaml.Printer.scalarText 4 s.level)]

def load (tree : FileTree Bytes) (path : String) : Except Error Settings :=
  match tree.read path with
  | .error fault => .error (.io fault)
  | .ok content =>
    match text? content with
    | none => .error (.io .notText)
    | some text => ofYaml text

def save (s : Settings) (tree : FileTree Bytes) (path : String) : Except Error (FileTree Bytes) :=
  let written := do
    let tree ← match Files.parent? path with
      | some parent => tree.makeDirectories parent
      | none => pure tree
    tree.write path (octets s.toYaml)
  written.mapError .io

end CodeAtlas.Settings
