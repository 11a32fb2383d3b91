import CodeAtlas.Files.FileTree

/-!
# What can go wrong with files and databases

The causes of failed operations on the index and its settings, with their wording. A database
failure has a result code; an error of the index may stand in front of another one.
-/

namespace CodeAtlas.Store

open Files (Fault)

def codeText : Nat → String
  | 0 => "Successful result"
  | 1 => "SQL logic error"
  | 2 => "Internal logic error in SQLite"
  | 3 => "Access permission denied"
  | 4 => "Callback routine requested an abort"
  | 5 => "The database file is locked"
  | 6 => "A table in the database is locked"
  | 7 => "A malloc() failed"
  | 8 => "Attempt to write a readonly database"
  | 9 => "Operation terminated by sqlite3_interrupt()"
  | 10 => "Some kind of disk I/O error occurred"
  | 11 => "The database disk image is malformed"
  | 12 => "Unknown opcode in sqlite3_file_control()"
  | 13 => "Insertion failed because database is full"
  | 14 => "Unable to open the database file"
  | 15 => "Database lock protocol error"
  | 16 => "Database is empty"
  | 17 => "The database schema changed"
  | 18 => "String or BLOB exceeds size limit"
  | 19 => "Abort due to constraint violation"
  | 20 => "Data type mismatch"
  | 21 => "Library used incorrectly"
  | 22 => "Uses OS features not supported on host"
  | 23 => "Authorization denied"
  | 24 => "Auxiliary database format error"
  | 25 => "2nd parameter to sqlite3_bind out of range"
  | 26 => "File opened that is not a database file"
  | 27 => "Notifications from sqlite3_log()"
  | 28 => "Warnings from sqlite3_log()"
  | 100 => "sqlite3_step() has another row ready"
  | 101 => "sqlite3_step() has finished executing"
  | _ => "Unknown error code"

inductive CellType where
  | null
  | integer
  | real
  | text
  | blob
deriving DecidableEq

def CellType.name : CellType → String
  | .null => "Null"
  | .integer => "Integer"
  | .real => "Real"
  | .text => "Text"
  | .blob => "Blob"

inductive DatabaseError where
  /-- The database reported a result code, perhaps with a message of its own. -/
  | failure (code : Nat) (detail : Option String)
  /-- A statement that was to read would have written. -/
  | invalidQuery
  | outOfRange (column : Nat) (value : Int)
  /-- A cell holds a value that means nothing. -/
  | conversion (column : Nat) (type : CellType) (reason : String)
  | wrongType (column : Nat) (name : String) (type : CellType)
  | zeroInName (position : Nat)
deriving DecidableEq

/-- What comes of something that is asked of a database. -/
abbrev Result := Except DatabaseError

namespace DatabaseError

def ofCode (code : Nat) : String := s!"Error code {code}: {codeText code}"

def message : DatabaseError → String
  | .failure _ (some detail) => detail
  | .failure code none => ofCode code
  | .invalidQuery => "Query is not read-only"
  | .outOfRange column value => s!"Integer {value} out of range at index {column}"
  | .conversion column type reason =>
    s!"Conversion error from type {type.name} at index: {column}, {reason}"
  | .wrongType column name type =>
    s!"Invalid column type {type.name} at index: {column}, name: {name}"
  | .zeroInName position => s!"nul byte found in provided data at position: {position}"

def sources : DatabaseError → List String
  | .failure code _ => [ofCode code]
  | .conversion _ _ reason => [reason]
  | .zeroInName position => [message (.zeroInName position)]
  | _ => []

end DatabaseError

def foreignKeyFailure : DatabaseError := .failure 19 (some "FOREIGN KEY constraint failed")

def damagedFailure : DatabaseError := .failure 11 (some "database disk image is malformed")

inductive Error where
  | database (cause : DatabaseError)
  | io (cause : Fault)
  | missingRepository
  | corrupted (path reason : String)
  | recoveryFailed (path : String) (cause : Error)
  | retriesExhausted (operation : String) (attempts : Nat) (cause : DatabaseError)
  | config (text : String)
  | invalidData (text : String)
  | internal (text : String)
deriving DecidableEq

namespace Error

def message : Error → String
  | .database cause => "database error: " ++ cause.message
  | .io cause => "I/O error: " ++ cause.message
  | .missingRepository => "repository_id is required and must not be empty"
  | .corrupted path reason => "database at " ++ path ++ " is corrupted: " ++ reason
  | .recoveryFailed path cause =>
    "failed to recover corrupted database at " ++ path ++ ": " ++ cause.message
  | .retriesExhausted operation attempts cause =>
    operation ++ " failed after " ++ toString attempts ++ " attempts: " ++ cause.message
  | .config text => "configuration error: " ++ text
  | .invalidData text => "invalid data: " ++ text
  | .internal text => "internal error: " ++ text

def sources : Error → List String
  | .database cause => cause.message :: cause.sources
  | .io cause => [cause.message]
  | .recoveryFailed _ cause => cause.message :: cause.sources
  | .retriesExhausted _ _ cause => cause.message :: cause.sources
  | _ => []

def isRetryable : Error → Bool
  | .retriesExhausted _ _ _ => true
  | .io _ => true
  | _ => false

end Error

inductive Subject where
  | symbols
  | replies
deriving DecidableEq

def Subject.table : Subject → String
  | .symbols => "symbols"
  | .replies => "comment_replies"

def noTableFailure (subject : Subject) : DatabaseError :=
  .failure 1 (some ("no such table: " ++ subject.table))

end CodeAtlas.Store
