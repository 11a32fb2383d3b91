import CodeAtlas.Client.Basic
import CodeAtlas.Uri.Reference

/-!
# URIs of files

The URI of a file is `file://` and its resolved absolute path, where octets that have another
meaning in a URI are percent-encoded.
-/

namespace CodeAtlas.Uri

open Client (Error)
open Files (FileTree)

/-- The octets of a path that its URI shows as they are. -/
def keepsInPath (octet : UInt8) : Bool :=
  0x20 < octet && octet < 0x7F && !isOneOf "\"#%<>?[]^`\x7b|\x7d" octet

/-- The text of the URI for an absolute path. -/
def fileText (path : String) : String :=
  "file://" ++ ((text? (escape keepsInPath (octets path))).getD "")

def ofAbsolute (path : String) : Except Error Uri :=
  match parse (fileText path) with
  | .ok uri => .ok uri
  | .error fault => .error (.invalidPath s!"invalid URI '{fileText path}': {fault.message}")

def ofPath {α : Type} (tree : FileTree α) (path : String) : Except Error Uri :=
  match tree.canonical path with
  | .ok location =>
    match text? (Files.pathOctets location) with
    | some absolute => ofAbsolute absolute
    | none => .error (.invalidPath s!"path contains invalid UTF-8: {path}")
  | .error fault => .error (.invalidPath s!"cannot canonicalize path '{path}': {fault.message}")

end CodeAtlas.Uri
