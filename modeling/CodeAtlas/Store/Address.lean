import CodeAtlas.Store.Error
import CodeAtlas.Uri.Reference

/-!
# Where a database is

A database is named by the path of its file, or by a URI of the scheme `file`. A URI has an
authority that says nothing, a path, options behind a question mark, and a fragment that is left
out. `Address.parse` reads either. Paths are octets. A `Place` says which database several
connections reach, a `Manner` how a connection reaches it, and a `Hold` what another program has
locked.
-/

namespace CodeAtlas.Store

inductive Mode where
  | readOnly
  | readWrite
  | create
  | memory
deriving DecidableEq

namespace Mode

def ofName? : String → Option Mode
  | "ro" => some .readOnly
  | "rw" => some .readWrite
  | "rwc" => some .create
  | "memory" => some .memory
  | _ => none

def demand : Mode → Nat
  | .memory => 0
  | .readOnly => 1
  | .readWrite => 2
  | .create => 6

/-- How much a mode that comes later may ask for. -/
def allowance : Mode → Nat
  | .readOnly => 1
  | .readWrite => 2
  | .create => 6
  | .memory => 128

end Mode

/-- What files are reached through. -/
inductive Layer where
  | usual
  /-- Files with locks on them that one program keeps to itself. -/
  | exclusive
  /-- Files with a directory beside them while they are locked. -/
  | lockFiles
  | unlocked
  | memory
deriving DecidableEq

def Layer.ofName? : String → Option Layer
  | "unix" => some .usual
  | "unix-excl" => some .exclusive
  | "unix-dotfile" => some .lockFiles
  | "unix-none" => some .unlocked
  | "memdb" => some .memory
  | _ => none

/-- Who sees what is written to a database. -/
inductive Site where
  | file
  /-- Every connection of this program that names it. -/
  | shared
  | own
deriving DecidableEq

structure Address where
  path : Bytes
  mode : Mode := .create
  layer : Layer := .usual
  /-- Whether connections to it share what they have read. -/
  cached : Bool := false
  frozen : Bool := false
  unlocked : Bool := false
  /-- The file whose permissions a new file is given, if one is named. -/
  likeness : Option Bytes := none
deriving DecidableEq

namespace Address

/-- The path that stands for no file. -/
def memoryPath : Bytes := octets ":memory:"

variable (address : Address)

def isFileless : Bool :=
  address.path.isEmpty || address.path == memoryPath || address.mode == .memory

/-- Who sees what is written. Names that start with a slash are known to all in the layer that keeps
files in memory. -/
def site : Site :=
  if address.path.isEmpty then .own
  else if address.isFileless then if address.cached then .shared else .own
  else if address.layer = .memory then
    let rooted := address.path.head? = some 0x2F ∨ address.path.head? = some 0x5C
    if address.cached ∨ (rooted ∧ 1 < address.path.length) then .shared else .own
  else .file

def isReadOnly : Bool :=
  address.mode == .readOnly || (address.frozen && !address.isFileless)

def component (raw : Bytes) : Bytes := (Uri.unescape raw).takeWhile (· ≠ 0)

def shown (bytes : Bytes) : String := String.ofList (Utf8.decodeLossy bytes)

def option? (raw : Bytes) : Option (Bytes × Bytes) :=
  let name := component (raw.takeWhile (· ≠ 0x3D))
  if name.isEmpty then none else some (name, component (raw.dropWhile (· ≠ 0x3D)).tail)

def valueOf? (options : List (Bytes × Bytes)) (name : String) : Option Bytes :=
  options.lookup (octets name)

/-- The number that a text starts with, in hexadecimal behind `0x`, or zero if it is too large. -/
def leadingNumber (text : List Char) : Nat :=
  let isHex (c : Char) : Bool := (Text.hexDigit? c).isSome
  let value? := match text with
    | '0' :: x :: rest =>
      if (x = 'x' ∨ x = 'X') ∧ rest.head?.any isHex then Text.hexValue? (rest.takeWhile isHex)
      else Text.digitsValue? (text.takeWhile Char.isDigit)
    | _ => Text.digitsValue? (text.takeWhile Char.isDigit)
  match value? with
  | some n => if n < 2 ^ 31 then n else 0
  | none => 0

/-- Whether the value of an option says yes: by a word, or by a number whose last octet is not zero.
-/
def isYes (value : Bytes) : Bool :=
  let text := Utf8.decodeLossy value
  if text.head?.any Char.isDigit then leadingNumber text % 256 ≠ 0
  else ["on", "yes", "true"].any fun word => Text.sameUpToCase text word.toList

def refuse {α : Type} (text : String) : Result α := .error (.failure 1 (some text))

/-- An address with an option that may be refused. The others are looked up where they matter. -/
def withOption (option : Bytes × Bytes) : Result Address :=
  let value := shown option.2
  match shown option.1 with
  | "cache" =>
    if value = "shared" then .ok { address with cached := true }
    else if value = "private" then .ok { address with cached := false }
    else refuse ("no such cache mode: " ++ value)
  | "mode" =>
    match Mode.ofName? value with
    | none => refuse ("no such access mode: " ++ value)
    | some mode =>
      if mode.demand ≤ address.mode.allowance then .ok { address with mode }
      else .error (.failure 3 (some ("access mode not allowed: " ++ value)))
  | _ => .ok address

/-- Reads the options of a URI, of which the last layer counts. -/
def ofOptions (path : Bytes) (options : List (Bytes × Bytes)) : Result Address := do
  let isSet (name : String) : Bool := (valueOf? options name).any isYes
  let address ← options.foldlM withOption
    { path
      frozen := isSet "immutable"
      unlocked := isSet "nolock"
      likeness := valueOf? options "modeof" }
  match valueOf? options.reverse "vfs" with
  | none => .ok address
  | some name =>
    match Layer.ofName? (shown name) with
    | some layer => .ok { address with layer }
    | none => refuse ("no such vfs: " ++ shown name)

/-- Reads a URI behind its scheme and colon. -/
def ofUri (text : Bytes) : Result Address :=
  let (authority, rest) := match text with
    | 0x2F :: 0x2F :: rest => (rest.takeWhile (· ≠ 0x2F), rest.dropWhile (· ≠ 0x2F))
    | _ => ([], text)
  if authority ≠ [] ∧ authority ≠ octets "localhost" then
    refuse ("invalid uri authority: " ++ shown authority)
  else
    let rest := rest.takeWhile (· ≠ 0x23)
    ofOptions (component (rest.takeWhile (· ≠ 0x3F)))
      ((cutAt 0x26 (rest.dropWhile (· ≠ 0x3F)).tail).filterMap option?)

def scheme : Bytes := octets "file:"

def parse (name : String) : Result Address :=
  let text := octets name
  if text.contains 0 then .error (.zeroInName (text.takeWhile (· ≠ 0)).length)
  else if scheme.isPrefixOf text then ofUri (text.drop scheme.length)
  else .ok { path := text }

end Address

open Files (Location)

/-- What keeps connections out of each other's way. -/
inductive Guard where
  | locks
  /-- A directory beside the file while it is in use. -/
  | lockFile
  | nothing
deriving DecidableEq

structure Manner where
  layer : Layer := .usual
  unlocked : Bool := false
  cached : Bool := false
deriving DecidableEq

namespace Manner

variable (manner : Manner)

def guard : Guard :=
  if manner.unlocked then .nothing
  else match manner.layer with
    | .lockFiles => .lockFile
    | .unlocked => .nothing
    | _ => .locks

/-- Whether changes of a file go to a log before they go to the file. -/
def logs : Bool := manner.guard == .locks && manner.layer != .memory

/-- Whether connections find each other's part of the log by a map beside the file. -/
def hasMap : Bool := manner.logs && manner.layer != .exclusive

end Manner

def Address.manner (address : Address) : Manner :=
  { layer := address.layer, unlocked := address.unlocked, cached := address.cached }

/-- A database that several connections may reach. -/
inductive Place where
  | file (location : Location)
  | memory (layer : Layer) (name : Bytes)
deriving DecidableEq

/-- What another program has locked for itself, and how it reached it. -/
structure Hold where
  place : Place
  manner : Manner
  /-- Whether it keeps out those who only read, too. -/
  isExclusive : Bool := true
  /-- Whether it has begun to write to an empty file. -/
  journaled : Bool := false
deriving DecidableEq

end CodeAtlas.Store
