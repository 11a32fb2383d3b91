import CodeAtlas.Store.Image.Catalog
import CodeAtlas.Store.Tables

/-!
# Databases in files

A file holds a database or something else. Pending changes of a database are either kept in a file
beside it until they are done, or written to a log that goes before the file until the last
connection is closed. What the log holds survives when the file is overwritten.
-/

namespace CodeAtlas.Store

inductive Contents where
  | tables (tables : Tables)
  | catalog (catalog : Catalog)
deriving DecidableEq

/-- Whether what a database holds is as its definitions say. -/
def Contents.isSound : Contents → Bool
  | .tables _ => true
  | .catalog found => found.relations.all Relation.isSound

/-- How the changes of a database get into its file. -/
inductive Journal where
  /-- The file is written, and what it held is kept beside it until that is done. -/
  | rollback
  /-- A log is written, and the file later. -/
  | ahead
deriving DecidableEq

/-- Which pages of a database are in its log. -/
inductive Logged where
  /-- All of them, since the database was made. -/
  | whole
  /-- Those of the tables that were written. -/
  | parts (symbols replies : Bool)
deriving DecidableEq

namespace Logged

def nothing : Logged := .parts false false

def covers : Logged → Subject → Bool
  | .whole, _ => true
  | .parts symbols _, .symbols => symbols
  | .parts _ replies, .replies => replies

def add : Logged → Subject → Logged
  | .whole, _ => .whole
  | .parts _ replies, .symbols => .parts true replies
  | .parts symbols _, .replies => .parts symbols true

end Logged

structure Database where
  contents : Contents := .tables {}
  journal : Journal := .ahead
  logged : Logged := .nothing
  /-- Whether the pages behind the first are overwritten. -/
  damaged : Bool := false
  /-- Whether the start of the file or the log is overwritten, so that only those who have read it
  can go on. -/
  torn : Bool := false
  fault : Option DatabaseError := none
  isReadOnly : Bool := false
deriving DecidableEq

def foreignFailure : DatabaseError := .failure 26 (some "file is not a database")

def formatFailure : DatabaseError := .failure 1 (some "unsupported file format")

def latestFormat : Nat := 4

/-- The fewest octets of a page that may be in use. -/
def leastUsable : Nat := 480

/-- What the pages of a file hold. A file without definitions is as good as a new one. -/
def readContents (header : Image.Header) (bytes : Bytes) : Result Contents :=
  if Image.pageCount bytes header.pageSize < header.pages then .error damagedFailure
  else if header.usable < leastUsable then .error foreignFailure
  else if latestFormat < header.format then .error formatFailure
  else
    match (Image.Pages.ofBytes header bytes).catalog with
    | .error e => .error e
    | .ok catalog =>
      let isNew := catalog.relations.isEmpty && catalog.views.isEmpty && !header.isStuck
      .ok (if isNew then .tables {} else .catalog { catalog with isStuck := header.isStuck })

def Database.ofImage (header : Image.Header) (bytes : Bytes) : Database :=
  let journal : Journal := if header.isAhead then .ahead else .rollback
  match readContents header bytes with
  | .ok contents => { contents, journal, isReadOnly := header.isReadOnly }
  | .error fault => { journal, fault := some fault, isReadOnly := header.isReadOnly }

inductive Content where
  | plain (bytes : Bytes)
  | database (database : Database)
deriving DecidableEq

namespace Content

/-- What a file of octets holds: a database if it starts like one. -/
def ofBytes (bytes : Bytes) : Content :=
  match Image.Header.read? bytes with
  | some header => .database (.ofImage header bytes)
  | none => .plain bytes

/-- Whether a file is taken to be empty: it has no more than one octet. -/
def isBlank : Content → Bool
  | .plain bytes => bytes.length ≤ 1
  | .database _ => false

def first? : Content → Option UInt8
  | .plain bytes => bytes.head?
  | .database _ => some 0x53

end Content

end CodeAtlas.Store
