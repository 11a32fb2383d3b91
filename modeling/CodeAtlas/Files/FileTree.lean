import CodeAtlas.Text.Basic

/-!
# A tree of files

A path is a text of components between slashes. A name in a directory is any run of octets without a
slash; most names are texts, and the others are shown with replacement characters. A `FileTree` maps
resolved locations, which are lists of names from the root, to directories, files and symbolic
links. `FileTree.find` follows a path from the working directory; the operations that change the
tree fail with the fault that the system gives.
-/

namespace CodeAtlas.Files

inductive Fault where
  | notFound
  | permissionDenied
  | exists_
  | notADirectory
  | isADirectory
  | nameTooLong
  | tooManyLinks
  | networkUnreachable
  | connectionRefused
  | nulInName
  | nulInData
  | notText
  | other (text : String)
deriving DecidableEq

def Fault.message : Fault → String
  | .notFound => "No such file or directory (os error 2)"
  | .permissionDenied => "Permission denied (os error 13)"
  | .exists_ => "File exists (os error 17)"
  | .notADirectory => "Not a directory (os error 20)"
  | .isADirectory => "Is a directory (os error 21)"
  | .nameTooLong => "File name too long (os error 36)"
  | .tooManyLinks => "Too many levels of symbolic links (os error 40)"
  | .networkUnreachable => "Network is unreachable (os error 101)"
  | .connectionRefused => "Connection refused (os error 111)"
  | .nulInName => "file name contained an unexpected NUL byte"
  | .nulInData => "nul byte found in provided data"
  | .notText => "stream did not contain valid UTF-8"
  | .other text => text

variable (path : String)

def pieces : List String := (cutAt '/' path.toList).map String.ofList

def isAbsolute : Bool := path.toList.head? == some '/'

/-- The components of a path: the slash of an absolute one, a leading dot, names and double dots. -/
def components : List String :=
  let parts := pieces path
  let named := parts.filter fun part => part ≠ "" ∧ part ≠ "."
  if isAbsolute path then "/" :: named
  else if parts.head? = some "." then "." :: named
  else named

def ofComponents : List String → String
  | "/" :: rest => "/" ++ "/".intercalate rest
  | parts => "/".intercalate parts

/-- The path without its last component; the root and the empty path have none. -/
def parent? : Option String :=
  match (components path).reverse with
  | [] => none
  | ["/"] => none
  | _ :: rest => some (ofComponents rest.reverse)

def fileName? : Option String :=
  match (components path).reverse with
  | last :: _ => if last = ".." ∨ last = "." ∨ last = "/" then none else some last
  | [] => none

inductive Name where
  | text (text : String)
  /-- Octets that are not the UTF-8 of a text. -/
  | raw (octets : Bytes)
deriving DecidableEq

namespace Name

instance : Coe String Name := ⟨.text⟩

def ofOctets (octets : Bytes) : Name := ((text? octets).map .text).getD (.raw octets)

def octets : Name → Bytes
  | .text chars => CodeAtlas.octets chars
  | .raw bytes => bytes

def shown : Name → String
  | .text chars => chars
  | .raw bytes => String.ofList (Utf8.decodeLossy bytes)

def append (name : Name) (suffix : String) : Name :=
  ofOctets (name.octets ++ CodeAtlas.octets suffix)

def slash : UInt8 := 0x2F

def split (path : Bytes) : List Name := (cutAt slash path).map ofOctets

end Name

def names : List Name := (pieces path).map .text

inductive Entry (α : Type) where
  | directory
  | file (content : α)
  | link (target : String)

/-- A resolved place: the names from the root down. -/
abbrev Location := List Name

def pathOf (location : Location) : String := "/" ++ "/".intercalate (location.map Name.shown)

/-- The absolute path of a location as octets. -/
def pathOctets (location : Location) : Bytes :=
  Name.slash :: [Name.slash].intercalate (location.map Name.octets)

/-- Directories, files and links below the root, and the working directory. -/
structure FileTree (α : Type) where
  entries : List (Location × Entry α)
  current : Location

inductive Place (α : Type) where
  | found (location : Location) (entry : Entry α)
  /-- A location that could be made: its directory is there, and the path ended in a slash or not.
  -/
  | missing (location : Location) (slash : Bool)

def nameLimit : Nat := 255

def linkLimit : Nat := 40

/-- The length from which on a path is too long, in octets. -/
def pathLimit : Nat := 4096

namespace FileTree

variable {α : Type}

variable (tree : FileTree α) (path : String) (location : Location)

/-- Every directory above a location, and the location itself. -/
def withDirectory : FileTree α :=
  { tree with
    entries := (List.range location.length).map
      (fun depth => (location.take (depth + 1), Entry.directory)) ++ tree.entries }

/-- What a location holds; the root is a directory. -/
def entry? : Option (Entry α) :=
  if location = [] then some .directory else tree.entries.lookup location

def set (entry : Entry α) : FileTree α :=
  { tree with
    entries := (location, entry) :: tree.entries.filter fun (other, _) => other ≠ location }

def erase : FileTree α :=
  { tree with entries := tree.entries.filter fun (other, _) => other ≠ location }

/-- Follows pieces of a path from a location; `follow` goes on behind a link. -/
def walk (tree : FileTree α) (follow : List Name → Location → Except Fault (Place α)) :
    List Name → Location → Except Fault (Place α)
  | [], location =>
    match tree.entry? location with
    | some entry => .ok (.found location entry)
    | none => .error .notFound
  | piece :: rest, location =>
    match tree.entry? location with
    | some .directory =>
      if piece = "" ∨ piece = "." then walk tree follow rest location
      else if piece = ".." then walk tree follow rest location.dropLast
      else if nameLimit < piece.octets.length then .error .nameTooLong
      else
        match tree.entry? (location ++ [piece]) with
        | none =>
          if rest.all (· = "") then .ok (.missing (location ++ [piece]) (!rest.isEmpty))
          else .error .notFound
        | some (.link target) =>
          follow (names target ++ rest) (if isAbsolute target then [] else location)
        | some _ => walk tree follow rest (location ++ [piece])
    | some _ => .error .notADirectory
    | none => .error .notFound

def walkThrough (tree : FileTree α) : (links : Nat) → List Name → Location → Except Fault (Place α)
  | 0, _, _ => .error .tooManyLinks
  | links + 1, parts, location => tree.walk (walkThrough tree links) parts location

/-- Where a path of any length leads from the working directory. -/
def follow : Except Fault (Place α) :=
  if path.toList.contains '\x00' then .error .nulInName
  else if path = "" then .error .notFound
  else
    tree.walkThrough (linkLimit + 1) (names path) (if isAbsolute path then [] else tree.current)

/-- Where a path leads from the working directory, unless it is too long. -/
def find : Except Fault (Place α) :=
  if !path.toList.contains '\x00' ∧ pathLimit ≤ octetCount path then .error .nameTooLong
  else tree.follow path

/-- The link that a path ends in, and its target. -/
def lastLink? : Option (Location × String) :=
  match tree.walkThrough (linkLimit + 1) (Files.names path).dropLast
      (if isAbsolute path then [] else tree.current), (Files.names path).getLast? with
  | .ok (.found directory .directory), some name =>
    match tree.entry? (directory ++ [name]) with
    | some (.link target) => some (directory ++ [name], target)
    | _ => none
  | _, _ => none

/-- Where a path leads if it does not go on behind a link that it ends in. -/
def locate : Except Fault (Place α) :=
  match tree.lastLink? path with
  | some (location, target) =>
    if pathLimit ≤ octetCount path then .error .nameTooLong
    else .ok (.found location (.link target))
  | none => tree.find path

/-- The location that pieces of a path name from a location; `follow` goes on behind a link. Double
dots take back the name before them, whether or not it is there. -/
def resolve (tree : FileTree α) (follow : List Name → Location → Option Location) :
    List Name → Location → Option Location
  | [], location => some location
  | piece :: rest, location =>
    if piece = "" ∨ piece = "." then resolve tree follow rest location
    else if piece = ".." then resolve tree follow rest location.dropLast
    else if nameLimit < piece.octets.length then none
    else
      match tree.entry? location, tree.entry? (location ++ [piece]) with
      | some (.file _), _ => none
      | _, some (.link target) =>
        follow (names target ++ rest) (if isAbsolute target then [] else location)
      | _, _ => resolve tree follow rest (location ++ [piece])

/-- The location that pieces of a path name, through at most `links` links. -/
def resolveThrough (tree : FileTree α) : (links : Nat) → List Name → Location → Option Location
  | 0, _, _ => none
  | links + 1, parts, location => tree.resolve (resolveThrough tree links) parts location

/-- The location that a path of octets names from the working directory, if none of the names before
the last is that of a file. -/
def named? (path : Bytes) : Option Location :=
  tree.resolveThrough (linkLimit + 1) (Name.split path)
    (if path.head? = some Name.slash then [] else tree.current)

/-- The location that a path leads to, with links and dots resolved one name at a time, so that the
path itself may be of any length. -/
def canonical : Except Fault Location :=
  match tree.follow path with
  | .ok (.found location _) => .ok location
  | .ok (.missing _ _) => .error .notFound
  | .error fault => .error fault

def isDirectory : Bool :=
  match tree.find path with
  | .ok (.found _ .directory) => true
  | _ => false

def exists_ : Bool :=
  match tree.find path with
  | .ok (.found _ _) => true
  | _ => false

def makeDirectory : Except Fault (FileTree α) :=
  match tree.find path with
  | .ok (.found _ _) => .error .exists_
  | .ok (.missing location _) => .ok (tree.set location .directory)
  | .error fault => .error fault

/-- Makes a directory and those above it, at most `levels` of them. A directory that is already
there is no fault. -/
def makeDirectoriesWithin (tree : FileTree α) : (levels : Nat) → String → Except Fault (FileTree α)
  | levels, path =>
    if path = "" then .ok tree
    else
      match tree.makeDirectory path with
      | .ok tree => .ok tree
      | .error .notFound =>
        match levels, parent? path with
        | 0, _ => .error .notFound
        | _, none => .error (.other "failed to create whole tree")
        | levels + 1, some above =>
          match makeDirectoriesWithin tree levels above with
          | .error fault => .error fault
          | .ok tree =>
            match tree.makeDirectory path with
            | .ok tree => .ok tree
            | .error fault => if tree.isDirectory path then .ok tree else .error fault
      | .error fault => if tree.isDirectory path then .ok tree else .error fault

def makeDirectories : Except Fault (FileTree α) :=
  tree.makeDirectoriesWithin (components path).length path

def read : Except Fault α :=
  match tree.find path with
  | .ok (.found _ (.file content)) => .ok content
  | .ok (.found _ .directory) => .error .isADirectory
  | .ok (.found _ (.link _)) => .error .tooManyLinks
  | .ok (.missing _ _) => .error .notFound
  | .error fault => .error fault

def write (content : α) : Except Fault (FileTree α) :=
  match tree.find path with
  | .ok (.found location (.file _)) => .ok (tree.set location (.file content))
  | .ok (.found _ _) => .error .isADirectory
  | .ok (.missing location false) => .ok (tree.set location (.file content))
  | .ok (.missing _ true) => .error .isADirectory
  | .error fault => .error fault

/-- Removes a file, or a link itself. -/
def remove : Except Fault (FileTree α) :=
  match tree.locate path with
  | .ok (.found _ .directory) => .error .isADirectory
  | .ok (.found location _) => .ok (tree.erase location)
  | .ok (.missing _ _) => .error .notFound
  | .error fault => .error fault

/-- Moves a file, or a link itself, to another path, where it replaces one but not a directory. -/
def rename (source target : String) : Except Fault (FileTree α) :=
  match tree.locate source with
  | .error fault => .error fault
  | .ok (.missing _ _) => .error .notFound
  | .ok (.found location entry) =>
    match tree.locate target with
    | .error fault => .error fault
    | .ok (.found _ .directory) => .error .isADirectory
    | .ok (.found place _) => .ok ((tree.erase location).set place entry)
    | .ok (.missing place _) => .ok ((tree.erase location).set place entry)

/-- Everything below a location: the names from there down, and what they lead to. -/
def below : List (Location × Entry α) :=
  tree.entries.filterMap fun (place, entry) =>
    if location.isPrefixOf place ∧ location.length < place.length then
      some (place.drop location.length, entry)
    else none

/-- The names of everything below the current directory, in order; directories end in a slash. -/
def names (tree : FileTree α) : List String :=
  let names := (tree.below tree.current).map fun (place, entry) =>
    "/".intercalate (place.map Name.shown) ++ match entry with
      | .directory => "/"
      | _ => ""
  names.mergeSort fun a b => !decide (b < a)

end FileTree

end CodeAtlas.Files
