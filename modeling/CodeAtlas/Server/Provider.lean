import CodeAtlas.Client.Basic

/-!
# Language servers

A `Provider` says how to launch a language server, how to reach it, what to send it in the handshake
and which capabilities it has to advertise.
-/

namespace CodeAtlas.Server

open Client (Error)
open Json (Decoder Value)

inductive Transport where
  | stdio
  | tcp (host : String) (port : Nat)
deriving DecidableEq

def localhost : String := "127.0.0.1"

structure Provider where
  name : String
  command : String
  arguments : List String := []
  transport : Transport := .stdio
  options : Option Value := none
  required : List String := ["textDocumentSync"]
  hint : String := "Please install the language server and ensure it's in your PATH."
deriving DecidableEq

def Provider.toValue (p : Provider) : Value :=
  .object [("name", .str p.name), ("command", .str p.command),
    ("args", .arr (p.arguments.map .str)),
    ("transport", match p.transport with
      | .stdio => .str "Stdio"
      | .tcp host port => .object [("host", .str host), ("port", .nat port)]),
    ("initialize_options", p.options.getD .null),
    ("required_capabilities", .arr (p.required.map .str)),
    ("install_hint", .str p.hint)]

inductive Kind where
  | pylsp
  | pyright
deriving DecidableEq, Inhabited

namespace Kind

def name : Kind → String
  | .pylsp => "pylsp"
  | .pyright => "pyright"

def names : List String := [name .pylsp, name .pyright]

def ofName (text : String) : Kind := if text = name .pyright then .pyright else .pylsp

def decode : Decoder Kind := fun value => ofName <$> Decoder.variant names value

end Kind

def plugin (enabled : Bool) (more : List String) : Value :=
  .object (("enabled", .bool enabled) :: more.map fun name => (name, .bool true))

namespace Provider

/-- The server of python-lsp-server, on standard streams or on a local port. Navigation is on and
linting is off. -/
def pylsp (port : Option Nat) : Provider where
  name := "pylsp"
  command := "pylsp"
  arguments :=
    match port with
    | some port => ["--tcp", "--host", localhost, "--port", toString port]
    | none => []
  transport :=
    match port with
    | some port => .tcp localhost port
    | none => .stdio
  options := some (.object [("pylsp", .object [("plugins", .object [
    ("jedi_definition", plugin true ["follow_imports"]),
    ("jedi_references", plugin true []),
    ("jedi_hover", plugin true []),
    ("jedi_symbols", plugin true ["all_scopes"]),
    ("pycodestyle", plugin false []),
    ("pyflakes", plugin false []),
    ("mccabe", plugin false [])])])])
  hint := "Install pylsp: pip install python-lsp-server"

def pyright : Provider where
  name := "pyright"
  command := "pyright-langserver"
  arguments := ["--stdio"]
  options := some (.object [("python", .object [("analysis", .object [
    ("autoSearchPaths", .bool true),
    ("useLibraryCodeForTypes", .bool true),
    ("diagnosticMode", .str "openFilesOnly")])])])
  required := ["textDocumentSync", "definitionProvider"]
  hint := "Install pyright: npm install -g pyright (or pip install pyright)"

/-- The provider for a server; pyright has no socket. -/
def ofKind : Kind → Option Nat → Except Error Provider
  | .pylsp, port => .ok (pylsp port)
  | .pyright, none => .ok pyright
  | .pyright, some _ => .error (.unsupportedTransport "pyright only supports stdio")

end Provider

/-- Whether the result of the handshake advertises a capability: it is there, and neither null nor
false. -/
def hasCapability (result : Value) (capability : String) : Bool :=
  match (result.member? "capabilities").bind (·.member? capability) with
  | none => false
  | some .null => false
  | some (.bool enabled) => enabled
  | some _ => true

/-- Checks the result of the handshake: the first required capability that is not advertised is
reported. -/
def Provider.validate (provider : Provider) (result : Value) : Except Error Unit :=
  if ((result.member? "capabilities").map Value.isObject).getD false then
    match provider.required.find? fun capability => !hasCapability result capability with
    | some capability => .error (.missingCapability provider.name capability)
    | none => .ok ()
  else .error (.initializeFailed s!"{provider.name} returned no capabilities object")

def clientCapabilities : Value :=
  let fixed : String × Value := ("dynamicRegistration", .bool false)
  .object [
    ("workspace", .object [("configuration", .bool true), ("workspaceFolders", .bool true)]),
    ("textDocument", .object [
      ("synchronization", .object [fixed, ("didSave", .bool false)]),
      ("hover", .object [fixed, ("contentFormat", .arr [.str "markdown", .str "plaintext"])]),
      ("definition", .object [fixed, ("linkSupport", .bool true)]),
      ("references", .object [fixed]),
      ("documentSymbol", .object [("hierarchicalDocumentSymbolSupport", .bool true)])]),
    ("window", .object [("workDoneProgress", .bool true)])]

end CodeAtlas.Server
