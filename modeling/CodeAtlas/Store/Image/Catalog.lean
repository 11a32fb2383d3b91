import CodeAtlas.Store.Catalog.Basic
import CodeAtlas.Store.Image.Record

/-!
# Trees and catalogs of database files

The rows of a table lie in the leaves of a tree of pages, in the order of their numbers; the entries
of an index lie in all its pages. What does not fit into a page goes on in a chain of other pages.
The first tree of a file is a table of definitions: what is defined, its name, the first page of its
rows, and the text of the definition.
-/

namespace CodeAtlas.Store.Image

structure Pages where
  header : Header
  pages : Array Bytes

namespace Pages

/-- The pages of octets, each filled up with zeros, at most `most` of them. -/
def cut (size : Nat) : (most : Nat) → Bytes → List Bytes
  | 0, _ => []
  | most + 1, bytes =>
    let page := bytes.take size
    (page ++ List.replicate (size - page.length) 0) :: cut size most (bytes.drop size)

def ofBytes (header : Header) (bytes : Bytes) : Pages :=
  { header, pages := (cut header.pageSize (pageCount bytes header.pageSize) bytes).toArray }

variable (file : Pages)

def page? (n : Nat) : Option Bytes := if n = 0 then none else file.pages[n - 1]?

/-- The octets of a chain of pages, `size` of them, over at most `most` pages. -/
def chain? (file : Pages) : (most : Nat) → (size page : Nat) → Option Bytes
  | _, 0, _ => some []
  | 0, _ + 1, _ => none
  | most + 1, size + 1, n => do
    let page ← file.page? n
    let part := (page.take file.header.usable).drop 4
    let rest ← chain? file most (size + 1 - part.length) (field page 0 4)
    return part.take (size + 1) ++ rest

/-- How much of `size` octets is kept in a page that takes `most` of them. -/
def localSize (usable most size : Nat) : Nat :=
  if size ≤ most then size
  else
    let least := (usable - 12) * 32 / 255 - 23
    let kept := least + (size - least) % (usable - 4)
    if kept ≤ most then kept else least

/-- The octets of an entry, of which the first are at hand. -/
def payload? (most size : Nat) (bytes : Bytes) : Option Bytes := do
  let kept := localSize file.header.usable most size
  if bytes.length < kept then none
  if size = kept then return bytes.take kept
  else return bytes.take kept ++ (← file.chain? file.pages.size (size - kept) (field bytes kept 4))

/-- Where the entries of a page start, given where their list does and how many there are. -/
def cellOffsets (page : Bytes) (start count : Nat) : List Nat :=
  (List.range count).map fun i => field page (start + 2 * i) 2

def rowLimit : Nat := file.header.usable - 35

def entryLimit : Nat := (file.header.usable - 12) * 64 / 255 - 23

def readRow? (bytes : Bytes) : Option (Int × Bytes) := do
  let (size, rest) ← varint? bytes
  let (id, rest) ← varint? rest
  return (signed 8 id, ← file.payload? file.rowLimit size rest)

def readEntry? (bytes : Bytes) : Option Bytes := do
  let (size, rest) ← varint? bytes
  file.payload? file.entryLimit size rest

def start (n : Nat) : Nat := if n = 1 then headerLength else 0

/-- The rows of the tree that a page is the root of, at most `depth` pages deep. -/
def rows? (file : Pages) : (depth : Nat) → (page : Nat) → Option (List (Int × Bytes))
  | 0, _ => none
  | depth + 1, n => do
    let page ← file.page? n
    let header := page.drop (start n)
    let count := field header 3 2
    match field header 0 1 with
    | 0x0D =>
      (cellOffsets page (start n + 8) count).mapM fun offset => file.readRow? (page.drop offset)
    | 0x05 =>
      let children := (cellOffsets page (start n + 12) count).map fun offset => field page offset 4
      let parts ← (children ++ [field header 8 4]).mapM fun child => rows? file depth child
      return parts.flatten
    | _ => none

/-- The entries of the tree that a page is the root of, at most `depth` pages deep. -/
def entries? (file : Pages) : (depth : Nat) → (page : Nat) → Option (List Bytes)
  | 0, _ => none
  | depth + 1, n => do
    let page ← file.page? n
    let count := field page 3 2
    match field page 0 1 with
    | 0x0A => (cellOffsets page 8 count).mapM fun offset => file.readEntry? (page.drop offset)
    | 0x02 =>
      let parts ← (cellOffsets page 12 count).mapM fun offset => do
        let child ← entries? file depth (field page offset 4)
        let entry ← file.readEntry? (page.drop (offset + 4))
        return child ++ [entry]
      return parts.flatten ++ (← entries? file depth (field page 8 4))
    | _ => none

def depthLimit : Nat := 20

def table? (root : Nat) : Option (List (Int × List Datum)) := do
  (← file.rows? depthLimit root).mapM fun (id, record) => do
    return (id, ← readRecord? file.header.encoding record)

def index? (root : Nat) : Option (List (List Datum)) := do
  (← file.entries? depthLimit root).mapM (readRecord? file.header.encoding)

end Pages

open Schema (Column Definition Table)

/-- The order in which a record keeps the columns of a table: if rows have no number, those of the
primary key come first. It keeps no columns that are computed when they are read. -/
def recordOrder (table : Table) : List Nat :=
  let key := ((table.order?.getD []).map fun (position, _) => position).eraseDups
  let isKept := fun (position : Nat) =>
    table.columns[position]?.all fun column => column.source.isNone || column.isStored
  key ++ (List.range table.columns.length).filter fun position =>
    !key.contains position && isKept position

/-- What a column of a record holds. A column that was added later has what it has by default, and
whole numbers are kept as integers in a column of real ones. -/
def readColumn (table : Table) (record : List Datum) (position : Nat) (column : Column) : Datum :=
  let affinity := table.affinity column
  match (recordOrder table).findIdx? (· == position) with
  | none => .null
  | some place =>
    match affinity, record[place]? with
    | _, none => affinity.keep column.initial
    | .real, some (.integer n) => .real (realOfInt n)
    | _, some datum => datum

def readTuple (table : Table) (number : Int) (record : List Datum) : Tuple :=
  let data := table.columns.zipIdx.map fun (column, position) =>
    readColumn table record position column
  table.complete (match table.number? with
    | some position => { number, data := data.set position (.integer number) }
    | none => { number, data })

variable (file : Pages)

def readTuples? (table : Table) (root : Nat) : Option (List Tuple) :=
  if table.isKeyed then do
    let records ← file.index? root
    return records.zipIdx.map fun (record, i) => readTuple table i record
  else do
    let rows ← file.table? root
    return rows.map fun (number, record) => readTuple table number record

/-- A text among definitions, which ends at a nul. -/
def nameOf : Datum → String
  | .text bytes => String.ofList (untilNul (Utf8.decodeLossy bytes))
  | _ => ""

/-- A definition cannot be what it should be, perhaps with a reason. -/
def definitionFailure (name : Datum) (reason : String) : DatabaseError :=
  let name := if name = .null then "?" else nameOf name
  .failure 11 (some (s!"malformed database schema ({name})" ++
    if reason = "" then "" else " - " ++ reason))

def textFault (text : String) : String :=
  match Schema.tokens? text with
  | none => "unrecognized token"
  | some _ => "incomplete input"

def addTable (catalog : Catalog) (table : Table) (root : Nat) : Catalog :=
  let tuples := if root = 0 then some [] else readTuples? file table root
  let relation : Relation := { table, tuples := tuples.getD [], isDamaged := tuples.isNone }
  { catalog with relations := catalog.relations ++ [relation] }

def addIndex (catalog : Catalog) (name : Datum) (index : Schema.Index) : Result Catalog := do
  let some relation := catalog.relation? index.table
    | throw (definitionFailure name s!"no such table: main.{index.table}")
  match index.parts.find? fun part => (relation.table.position? part.column).isNone with
  | some part => throw (definitionFailure name s!"no such column: {part.column}")
  | none => return catalog.replace { relation with indexes := index :: relation.indexes }

def isKeyIndex (catalog : Catalog) (name : String) : Bool :=
  catalog.relations.any fun relation =>
    ("sqlite_autoindex_" ++ relation.table.name ++ "_").toList.isPrefixOf name.toList

/-- Whether a text defines a table that has no rows of its own. -/
def isVirtual (text : String) : Bool :=
  ((Schema.tokens? text).getD []).any (Schema.Token.isWord "virtual")

def isDefinition (text : String) : Bool :=
  match text.toList with
  | c :: d :: _ => Text.foldCase c == 'c' && Text.foldCase d == 'r'
  | _ => false

def addDefinition (catalog : Catalog) (record : List Datum) : Result Catalog := do
  let at_ := fun i => record[i]?.getD .null
  let name := at_ 1
  let text := nameOf (at_ 4)
  if at_ 3 = .null then throw (definitionFailure name "")
  if !isDefinition text then
    if name = .null ∨ text ≠ "" then throw (definitionFailure name "")
    if isKeyIndex catalog (nameOf name) then return catalog
    throw (definitionFailure name "orphan index")
  let root := match at_ 3 with
    | .integer n => n.toNat
    | _ => 0
  if file.pages.size < root then throw (definitionFailure name "invalid rootpage")
  match nameOf (at_ 0), Definition.read? text with
  | "table", some (.table table) =>
    return addTable file catalog { table with name := nameOf name } root
  | "table", _ =>
    if isVirtual text then return addTable file catalog { name := nameOf name, isVirtual := true } 0
    throw (definitionFailure name (textFault text))
  | "index", some (.index index) => addIndex catalog name index
  | "view", _ => return { catalog with views := catalog.views ++ [nameOf name] }
  | _, _ => return catalog

def Pages.catalog : Result Catalog :=
  match file.table? 1 with
  | none => .error damagedFailure
  | some rows => rows.foldlM (fun catalog (_, record) => addDefinition file catalog record) {}

end CodeAtlas.Store.Image
