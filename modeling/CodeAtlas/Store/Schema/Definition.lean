import CodeAtlas.Store.Schema.Expression

/-!
# Definitions

A schema defines tables, indexes and views. `Definition.read?` reads the text of one definition, as
far as it matters for the rows of its table: columns, what they keep and refuse, keys, and what refers
to other tables.
-/

namespace CodeAtlas.Store.Schema

/-- What happens to rows that refer to a row which is deleted or changed. -/
inductive Action where
  /-- They must not refer to it any more when all is done. -/
  | nothing
  | restrict
  | setNull
  | setDefault
  | cascade
deriving DecidableEq

structure Reference where
  columns : List String
  table : String
  /-- The columns that they are equal to there; none stand for its primary key. -/
  keys : List String := []
  onDelete : Action := .nothing
  onUpdate : Action := .nothing
deriving DecidableEq

structure Column where
  name : String
  type : String := ""
  notNull : Bool := false
  default : Expression := .null
  collation : String := "BINARY"
  source : Option Expression := none
  isStored : Bool := false
deriving DecidableEq

/-- A column of a key or an index, with an order of its own or not. -/
structure Part where
  column : String
  collation : Option String := none
  offset : Nat := 0
deriving DecidableEq

structure Key where
  parts : List Part
  isPrimary : Bool := false
  /-- Whether it is declared at a column in falling order. -/
  isFalling : Bool := false
  /-- Whether numbers are never given again. -/
  counts : Bool := false
deriving DecidableEq

structure Check where
  label : String
  expression : Expression
deriving DecidableEq

structure Table where
  name : String
  columns : List Column := []
  keys : List Key := []
  checks : List Check := []
  references : List Reference := []
  /-- Whether rows have no number beside their primary key. -/
  isKeyed : Bool := false
  isStrict : Bool := false
  /-- Whether its rows are kept elsewhere. -/
  isVirtual : Bool := false
deriving DecidableEq

structure Index where
  name : String
  table : String
  parts : List Part
  isUnique : Bool
  condition : Option Expression := none
  /-- Whether some part of it is not a column. -/
  isSpecial : Bool := false
deriving DecidableEq

inductive Definition where
  | table (table : Table)
  | index (index : Index)
  | view (name : String)
deriving DecidableEq

/-- Tokens up to the bracket that closes, and those behind it. -/
def balanced : (depth : Nat) → List Token → Option (List Token × List Token)
  | _, [] => none
  | depth, token :: rest =>
    if token.isSign '(' then (balanced (depth + 1) rest).map fun (a, b) => (token :: a, b)
    else if token.isSign ')' then
      match depth with
      | 0 => some ([], rest)
      | depth + 1 => (balanced depth rest).map fun (a, b) => (token :: a, b)
    else (balanced depth rest).map fun (a, b) => (token :: a, b)

/-- The tokens in brackets at the start, and those behind them. -/
def bracketed? : List Token → Option (List Token × List Token)
  | token :: rest => if token.isSign '(' then balanced 0 rest else none
  | [] => none

/-- The items between commas that are in no brackets. -/
def items : (depth : Nat) → List Token → List (List Token)
  | _, [] => [[]]
  | depth, token :: rest =>
    if depth = 0 ∧ token.isSign ',' then [] :: items 0 rest
    else
      let depth := if token.isSign '(' then depth + 1 else if token.isSign ')' then depth - 1
        else depth
      match items depth rest with
      | item :: more => (token :: item) :: more
      | [] => [[token]]

def skipWords? : List String → List Token → Option (List Token)
  | [], tokens => some tokens
  | word :: words, token :: rest => if token.isWord word then skipWords? words rest else none
  | _ :: _, [] => none

def skipWords (words : List String) (tokens : List Token) : List Token :=
  (skipWords? words tokens).getD tokens

/-- Tokens without what to do about a conflict. -/
def skipConflict (tokens : List Token) : List Token :=
  match skipWords? ["on", "conflict"] tokens with
  | some (_ :: rest) => rest
  | _ => tokens

def readPart? : List Token → Option Part
  | [] => none
  | token :: rest => do
    let column ← token.name?
    match rest with
    | collate :: name :: _ =>
      if collate.isWord "collate" then
        return { column, collation := name.name?, offset := token.offset }
      else if collate.isWord "asc" ∨ collate.isWord "desc" then
        return { column, offset := token.offset }
      else none
    | [order] =>
      if order.isWord "asc" ∨ order.isWord "desc" then return { column, offset := token.offset }
      else none
    | [] => return { column, offset := token.offset }

/-- The columns in brackets at the start, and the tokens behind them. -/
def readParts? (tokens : List Token) : Option (List Part × List Token) := do
  let (inside, rest) ← bracketed? tokens
  return (← (items 0 inside).mapM readPart?, rest)

def readDefault (tokens : List Token) : Expression × List Token :=
  match bracketed? tokens with
  | some (inside, rest) => ((Expression.ofTokens? inside).getD .null, rest)
  | none =>
    match tokens with
    | token :: rest =>
      let count := if token.isSign '-' ∨ token.isSign '+' then 2 else 1
      let value := match Expression.ofTokens? (tokens.take count) with
        | some (.column _ name _) => .literal (.ofText name)
        | some e => e
        | none => .null
      (value, rest.drop (count - 1))
    | [] => (.null, [])

def trimGaps (text : List Char) : List Char :=
  ((text.dropWhile isGap).reverse.dropWhile isGap).reverse

/-- How failures call a check that has no name: by its text, up to a quote if it starts with one. -/
def labelOf (text : List Char) : String :=
  match trimGaps text with
  | [] => ""
  | c :: rest =>
    match (closing? c).bind fun quote => readQuoted quote rest with
    | some (quoted, _) => String.ofList quoted
    | none => String.ofList (c :: rest)

variable (text : Bytes) (table : Table)

/-- Reads a check in brackets, which has a name or is called by its text, and gives the tokens
behind it. -/
def readCheck? (name : Option String) (tokens : List Token) : Option (Check × List Token) := do
  let (inside, rest) ← bracketed? tokens
  let start ← tokens.head?
  let stop ← (tokens.drop (inside.length + 1)).head?
  let quoted := (text.drop (start.offset + 1)).take (stop.offset - start.offset - 1)
  let label := name.getD (labelOf (Utf8.decodeLossy quoted))
  return ({ label, expression := (Expression.ofTokens? inside).getD (.truth true) }, rest)

/-- What to do about rows that refer to others, and the tokens behind it. -/
def readAction : List Token → Action × List Token
  | token :: rest =>
    if token.isWord "cascade" then (.cascade, rest)
    else if token.isWord "set" then
      if rest.head?.any (Token.isWord "null") then (.setNull, rest.tail)
      else (.setDefault, rest.tail)
    else if token.isWord "restrict" then (.restrict, rest)
    else (.nothing, rest.tail)
  | [] => (.nothing, [])

def readActions : (most : Nat) → Reference → List Token → Reference × List Token
  | 0, reference, tokens => (reference, tokens)
  | most + 1, reference, tokens =>
    match skipWords? ["on", "delete"] tokens, skipWords? ["on", "update"] tokens with
    | some rest, _ =>
      let (onDelete, rest) := readAction rest
      readActions most { reference with onDelete } rest
    | none, some rest =>
      let (onUpdate, rest) := readAction rest
      readActions most { reference with onUpdate } rest
    | none, none =>
      match tokens with
      | token :: rest =>
        if token.isWord "match" ∨ token.isWord "initially" then
          readActions most reference rest.tail
        else if token.isWord "deferrable" ∨
            (token.isWord "not" ∧ rest.head?.any (Token.isWord "deferrable")) then
          readActions most reference (skipWords ["deferrable"] rest)
        else (reference, tokens)
      | [] => (reference, [])

def readReference? (columns : List String) : List Token → Option (Reference × List Token)
  | [] => none
  | token :: rest => do
    let table ← token.name?
    let (keys, rest) := match readParts? rest with
      | some (parts, rest) => (parts.map Part.column, rest)
      | none => ([], rest)
    return readActions rest.length { columns, table, keys } rest

def Table.withColumn (column : Column) : Table :=
  { table with columns := table.columns ++ [column] }

def Table.withKey (key : Key) : Table := { table with keys := table.keys ++ [key] }

def Table.withCheck (check : Check) : Table :=
  { table with checks := table.checks ++ [check] }

def readColumnRules (text : Bytes) :
    (most : Nat) → Table → Column → (name : Option String) → List Token → Option (Table × Column)
  | _, table, column, _, [] => some (table, column)
  | 0, _, _, _, _ :: _ => none
  | most + 1, table, column, name, token :: rest =>
    let part : Part := { column := column.name, offset := token.offset }
    let goOn := readColumnRules text most
    if token.isWord "constraint" then goOn table column (rest.head?.bind Token.name?) rest.tail
    else if token.isWord "primary" then
      let rest := rest.tail
      let isFalling := rest.head?.any (Token.isWord "desc")
      let rest := skipConflict (skipWords ["desc"] (skipWords ["asc"] rest))
      let counts := rest.head?.any (Token.isWord "autoincrement")
      let rest := skipWords ["autoincrement"] rest
      let key := { parts := [part], isPrimary := true, isFalling, counts }
      goOn (table.withKey key) column name rest
    else if token.isWord "unique" then
      goOn (table.withKey { parts := [part] }) column name (skipConflict rest)
    else if token.isWord "not" ∧ rest.head?.any (Token.isWord "null") then
      goOn table { column with notNull := true } name (skipConflict rest.tail)
    else if token.isWord "null" then goOn table column name (skipConflict rest)
    else if token.isWord "default" then
      let (default, rest) := readDefault rest
      goOn table { column with default } name rest
    else if token.isWord "collate" then
      goOn table { column with collation := (rest.head?.bind Token.name?).getD "" } name rest.tail
    else if token.isWord "references" then do
      let (reference, rest) ← readReference? [column.name] rest
      goOn { table with references := table.references ++ [reference] } column name rest
    else if token.isWord "check" then do
      let (check, rest) ← readCheck? text name rest
      goOn (table.withCheck check) column name (skipConflict rest)
    else if token.isWord "as" then do
      let (inside, rest) ← bracketed? rest
      let isStored := rest.head?.any (Token.isWord "stored")
      goOn table { column with source := Expression.ofTokens? inside, isStored } name
        (skipWords ["stored"] (skipWords ["virtual"] rest))
    else if token.isWord "generated" ∨ token.isWord "always" then goOn table column name rest
    else none

/-- The keywords that end the type of a column. -/
def ruleWords : List String :=
  ["constraint", "primary", "unique", "not", "null", "default", "collate", "references", "check",
    "as", "generated"]

def isTypeWord (token : Token) : Bool :=
  token.name?.isSome && !ruleWords.any fun word => token.isWord word

def readColumn? : List Token → Option Table
  | [] => none
  | token :: rest => do
    let name ← token.name?
    let type := " ".intercalate ((rest.takeWhile isTypeWord).filterMap Token.name?)
    let rest := rest.dropWhile isTypeWord
    let (type, rest) := match bracketed? rest with
      | some (_, behind) => (type ++ "()", behind)
      | none => (type, rest)
    let (table, column) ← readColumnRules text rest.length table { name, type } none rest
    return table.withColumn column

def readTableRules (text : Bytes) :
    (most : Nat) → Table → (name : Option String) → List Token → Option Table
  | _, table, _, [] => some table
  | 0, _, _, _ :: _ => none
  | most + 1, table, name, token :: rest =>
    let goOn := readTableRules text most
    if token.isWord "constraint" then goOn table (rest.head?.bind Token.name?) rest.tail
    else if token.isWord "primary" ∨ token.isWord "unique" then do
      let isPrimary := token.isWord "primary"
      let rest := skipWords ["key"] rest
      let (inside, behind) ← bracketed? rest
      let counts := inside.getLast?.any (Token.isWord "autoincrement")
      let inside := if counts then inside.dropLast else inside
      let parts ← (items 0 inside).mapM readPart?
      goOn (table.withKey { parts, isPrimary, counts }) name (skipConflict behind)
    else if token.isWord "check" then do
      let (check, behind) ← readCheck? text name rest
      goOn (table.withCheck check) name (skipConflict behind)
    else if token.isWord "foreign" then do
      let (parts, behind) ← readParts? (skipWords ["key"] rest)
      let behind ← skipWords? ["references"] behind
      let (reference, behind) ← readReference? (parts.map Part.column) behind
      goOn { table with references := table.references ++ [reference] } name behind
    else none

def isTableRule (item : List Token) : Bool :=
  match item with
  | token :: _ =>
    ["constraint", "primary", "unique", "check", "foreign"].any fun word => token.isWord word
  | [] => false

def readTable? (name : String) (tokens : List Token) : Option Table := do
  let (inside, behind) ← bracketed? tokens
  let table ← (items 0 inside).foldlM (fun (table : Table) item =>
    if isTableRule item then readTableRules text item.length table none item
    else readColumn? text table item)
    { name }
  return { table with
    isKeyed := (behind.find? (Token.isWord "without")).isSome
    isStrict := (behind.find? (Token.isWord "strict")).isSome }

def readIndex? (name : String) (isUnique : Bool) (tokens : List Token) : Option Index := do
  let tokens ← skipWords? ["on"] tokens
  let token :: rest := tokens | none
  let table ← token.name?
  let (inside, behind) ← bracketed? rest
  let parts := (items 0 inside).map readPart?
  return {
    name, table, isUnique
    parts := parts.filterMap id
    condition := (skipWords? ["where"] behind).map fun tokens =>
      (Expression.ofTokens? tokens).getD (.truth false)
    isSpecial := parts.any Option.isNone }

def readName? (tokens : List Token) : Option (String × List Token) :=
  match skipWords ["if", "not", "exists"] tokens with
  | schema :: dot :: token :: rest =>
    if dot.isSign '.' then token.name?.map (·, rest) else schema.name?.map (·, dot :: token :: rest)
  | token :: rest => token.name?.map (·, rest)
  | [] => none

/-- Reads tokens behind the word that starts a definition. -/
def Definition.ofTokens? (tokens : List Token) : Option Definition := do
  let tokens := skipWords ["temporary"] (skipWords ["temp"] tokens)
  let token :: rest := tokens | none
  if token.isWord "table" then
    let (name, rest) ← readName? rest
    return .table (← readTable? text name rest)
  else if token.isWord "index" then
    let (name, rest) ← readName? rest
    return .index (← readIndex? name false rest)
  else if token.isWord "unique" then
    let (name, rest) ← readName? (skipWords ["index"] rest)
    return .index (← readIndex? name true rest)
  else if token.isWord "view" then
    let (name, _) ← readName? rest
    return .view name
  else none

def Definition.read? (text : String) : Option Definition := do
  let tokens ← tokens? text
  let tokens := if tokens.getLast?.any (Token.isSign ';') then tokens.dropLast else tokens
  Definition.ofTokens? (octets text) (← skipWords? ["create"] tokens)

end CodeAtlas.Store.Schema
