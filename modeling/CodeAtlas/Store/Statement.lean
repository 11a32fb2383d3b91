import CodeAtlas.Store.Catalog.Statement
import CodeAtlas.Store.Database

/-!
# Statements

A statement says what it does on the tables that this library makes, and on the catalog of another
program.
-/

namespace CodeAtlas.Store

open CodeAtlas.Symbol (Change Declaration Reply Stored)

/-- What is done at a time with what a database holds. -/
abbrev Effect (α : Type) := Int → Contents → Result α × Contents

/-- The statements that a connection keeps when it has prepared them. -/
inductive Form where
  | upsert
  | inFile
  | children
deriving DecidableEq

/-- What is asked of the tables to change them. -/
structure Statement (α : Type) where
  subject : Subject
  form : Option Form := none
  /-- Whether a transaction is begun first, by a statement that is prepared each time. -/
  isTransaction : Bool := false
  onTables : Int → Tables → Written α
  onCatalog : Int → Catalog → Result α × Catalog

/-- What is asked of the tables without changing them. -/
structure Query (α : Type) where
  subject : Subject
  form : Option Form := none
  onTables : Tables → Result α
  onCatalog : Catalog → Result α

/-- The result of a statement at a time, and what the database holds after it. -/
def Statement.run {α : Type} (statement : Statement α) (now : Int) : Contents → Result α × Contents
  | .tables tables =>
    match statement.onTables now tables with
    | .ok (a, changed) => (.ok a, .tables changed)
    | .error e => (.error e, .tables tables)
  | .catalog catalog =>
    let (result, changed) := statement.onCatalog now catalog
    (result, .catalog changed)

def Query.run {α : Type} (query : Query α) : Contents → Result α
  | .tables tables => query.onTables tables
  | .catalog catalog => query.onCatalog catalog

/-- A query as a statement that leaves everything as it is. -/
def Query.statement {α : Type} (query : Query α) : Statement α where
  subject := query.subject
  form := query.form
  onTables _ tables := (query.onTables tables).map (·, tables)
  onCatalog _ catalog := (query.onCatalog catalog, catalog)

namespace Statement

def nothing : Statement Unit where
  subject := .symbols
  onTables _ tables := .ok ((), tables)
  onCatalog _ catalog := (.ok (), catalog)

def upsert (d : Declaration) : Statement Int where
  subject := .symbols
  form := some .upsert
  onTables now tables := tables.upsert d now
  onCatalog now catalog := catalog.upsert d now

/-- Writes declarations, all or none, and gives their number. -/
def upsertAll (ds : List Declaration) : Statement Nat where
  subject := .symbols
  form := some .upsert
  isTransaction := true
  onTables now tables := tables.upsertAll ds now
  onCatalog now catalog := catalog.upsertAll ds now

def update (repository : String) (id : Int) (c : Change) : Statement Bool where
  subject := .symbols
  onTables now tables := tables.update repository id c now
  onCatalog now catalog := catalog.update repository id c now

def deleteFile (file repository : String) : Statement Nat where
  subject := .symbols
  onTables _ tables := tables.deleteFile file repository
  onCatalog _ catalog := catalog.deleteFile file repository

def deleteRepository (repository : String) : Statement Nat where
  subject := .symbols
  onTables _ tables := tables.deleteRepository repository
  onCatalog _ catalog := catalog.deleteRepository repository

def recordReply (comment pullRequest : Int) (repository : String) (time : Int) :
    Statement Bool where
  subject := .replies
  onTables _ tables :=
    tables.recordReply ⟨.integer comment, .integer pullRequest, repository, .integer time⟩
  onCatalog _ catalog := catalog.recordReply comment pullRequest repository time

def deleteRepliesBefore (cutoff : Int) : Statement Nat where
  subject := .replies
  onTables _ tables := tables.deleteRepliesBefore cutoff
  onCatalog _ catalog := catalog.deleteRepliesBefore cutoff

end Statement

namespace Query

variable (repository : String)

def find (id : Int) : Query (Option Stored) where
  subject := .symbols
  onTables tables := tables.find repository id
  onCatalog catalog := catalog.find repository id

def search (repository query : String) (kind : Option Symbol.Kind) (limit : Nat) :
    Query (List Stored) where
  subject := .symbols
  onTables tables := tables.search repository query kind limit
  onCatalog catalog := catalog.search repository query kind limit

def inFile (file repository : String) : Query (List Stored) where
  subject := .symbols
  form := some .inFile
  onTables tables := tables.inFile file repository
  onCatalog catalog := catalog.inFile file repository

def childrenOf (id : Int) : Query (List Stored) where
  subject := .symbols
  form := some .children
  onTables tables := tables.childrenOf repository id
  onCatalog catalog := catalog.childrenOf repository id

def count : Query Nat where
  subject := .symbols
  onTables tables := .ok (tables.count repository)
  onCatalog catalog := catalog.count repository

def findReply (comment pullRequest : Int) (repository : String) : Query (Option Reply) where
  subject := .replies
  onTables tables := tables.findReply comment pullRequest repository
  onCatalog catalog := catalog.findReply comment pullRequest repository

end Query

end CodeAtlas.Store
