import CodeAtlas.Store.Schema.Token

/-!
# The texts of statements

A failure quotes the text of the statement that it is about, and says at which octet of it.
-/

namespace CodeAtlas.Store.Catalog

def lines (texts : List String) : String := "\n".intercalate texts

/-- The definitions of the tables and indexes that the index of symbols needs. -/
def schemaText : String := lines [
  "",
  "-- Symbol definitions, one row per occurrence",
  "CREATE TABLE IF NOT EXISTS symbols (",
  "    id INTEGER PRIMARY KEY,",
  "    name TEXT NOT NULL,",
  "    kind TEXT NOT NULL,",
  "    file_path TEXT NOT NULL,",
  "    line_number INTEGER NOT NULL,",
  "    column_number INTEGER NOT NULL,",
  "    repository_id TEXT NOT NULL,",
  "    docstring TEXT,",
  "    parent_id INTEGER REFERENCES symbols(id) ON DELETE SET NULL,",
  "    end_line_number INTEGER,",
  "    end_column_number INTEGER,",
  "    created_at INTEGER NOT NULL,",
  "    updated_at INTEGER NOT NULL",
  ");",
  "",
  "CREATE UNIQUE INDEX IF NOT EXISTS idx_symbols_occurrence",
  "    ON symbols(name, file_path, repository_id, line_number, column_number);",
  "CREATE INDEX IF NOT EXISTS idx_symbols_name ON symbols(name);",
  "CREATE INDEX IF NOT EXISTS idx_symbols_repository ON symbols(repository_id);",
  "CREATE INDEX IF NOT EXISTS idx_symbols_kind ON symbols(kind);",
  "CREATE INDEX IF NOT EXISTS idx_symbols_file ON symbols(file_path, repository_id);",
  "CREATE INDEX IF NOT EXISTS idx_symbols_name_repository ON symbols(name, repository_id);",
  "CREATE INDEX IF NOT EXISTS idx_symbols_parent ON symbols(parent_id);",
  "",
  "-- Review comments already answered",
  "CREATE TABLE IF NOT EXISTS comment_replies (",
  "    comment_id INTEGER NOT NULL,",
  "    pr_number INTEGER NOT NULL,",
  "    repository_id TEXT NOT NULL,",
  "    replied_at INTEGER NOT NULL,",
  "    UNIQUE (comment_id, pr_number, repository_id)",
  ");",
  "",
  "CREATE INDEX IF NOT EXISTS idx_comment_replies_replied_at ON comment_replies(replied_at);",
  "",
  "CREATE TABLE IF NOT EXISTS schema_meta (",
  "    key TEXT PRIMARY KEY,",
  "    value INTEGER NOT NULL",
  ");",
  ""]

def symbolColumns : List String :=
  ["id", "name", "kind", "file_path", "line_number", "column_number", "repository_id",
    "docstring", "parent_id", "end_line_number", "end_column_number", "created_at", "updated_at"]

def replyColumns : List String := ["comment_id", "pr_number", "repository_id", "replied_at"]

/-- The start of a statement that reads columns of a table. -/
def selection (columns : List String) (table : String) : String :=
  "SELECT " ++ ", ".intercalate columns ++ " FROM " ++ table

def upsertText : String := lines [
  "",
  "    INSERT INTO symbols (name, kind, file_path, line_number, column_number, repository_id,",
  "                         docstring, parent_id, end_line_number, end_column_number,",
  "                         created_at, updated_at)",
  "    VALUES (?1, ?2, ?3, ?4, ?5, ?6, ?7, ?8, ?9, ?10, ?11, ?11)",
  "    ON CONFLICT (name, file_path, repository_id, line_number, column_number) DO UPDATE SET",
  "        kind = excluded.kind,",
  "        docstring = excluded.docstring,",
  "        parent_id = excluded.parent_id,",
  "        end_line_number = excluded.end_line_number,",
  "        end_column_number = excluded.end_column_number,",
  "        updated_at = excluded.updated_at",
  "    RETURNING id"]

def updateText : String := lines [
  "UPDATE symbols SET",
  "                    kind = COALESCE(?1, kind),",
  "                    docstring = COALESCE(?2, docstring),",
  "                    line_number = COALESCE(?3, line_number),",
  "                    column_number = COALESCE(?4, column_number),",
  "                    end_line_number = COALESCE(?5, end_line_number),",
  "                    end_column_number = COALESCE(?6, end_column_number),",
  "                    parent_id = COALESCE(?7, parent_id),",
  "                    updated_at = ?8",
  "                 WHERE id = ?9 AND repository_id = ?10"]

def searchText : String :=
  selection symbolColumns "symbols" ++
    " WHERE repository_id = ?1 AND name LIKE ?2 ESCAPE '\\' AND (?3 IS NULL OR kind = ?3)" ++
    " ORDER BY CASE WHEN name = ?4 THEN 0 ELSE 1 END, name, file_path, line_number LIMIT ?5"

def fileText : String :=
  selection symbolColumns "symbols" ++
    " WHERE file_path = ?1 AND repository_id = ?2 ORDER BY line_number, column_number"

def findText : String :=
  selection symbolColumns "symbols" ++ " WHERE id = ?1 AND repository_id = ?2"

def childrenText : String :=
  selection symbolColumns "symbols" ++
    " WHERE parent_id = ?1 AND repository_id = ?2 ORDER BY line_number, column_number"

def countText : String := "SELECT COUNT(*) FROM symbols WHERE repository_id = ?1"

def deleteFileText : String := "DELETE FROM symbols WHERE file_path = ?1 AND repository_id = ?2"

def deleteRepositoryText : String := "DELETE FROM symbols WHERE repository_id = ?1"

def findReplyText : String :=
  selection replyColumns "comment_replies" ++
    " WHERE comment_id = ?1 AND pr_number = ?2 AND repository_id = ?3"

def deleteRepliesText : String := "DELETE FROM comment_replies WHERE replied_at < ?1"

/-- The octet at which a word stands in a text, after some other places where it stands. -/
def offsetOf (text word : String) (skipped : Nat) : Nat :=
  let places := ((Schema.tokens? text).getD []).filter (Schema.Token.isWord word)
  ((places.drop skipped).head?.map Schema.Token.offset).getD 0

def statementsFrom : (most : Nat) → List Char → List (String × String)
  | 0, _ => []
  | most + 1, script =>
    let statement := script.takeWhile (· ≠ ';')
    match script.dropWhile (· ≠ ';') with
    | [] => []
    | _ :: rest => (String.ofList statement, String.ofList script) :: statementsFrom most rest

def statements (script : String) : List (String × String) :=
  statementsFrom script.length script.toList

end CodeAtlas.Store.Catalog
