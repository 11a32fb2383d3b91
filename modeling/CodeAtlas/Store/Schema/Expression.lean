import CodeAtlas.Store.Datum
import CodeAtlas.Store.Schema.Token

/-!
# Expressions of a schema

Definitions have expressions in them: what rows are checked for, what a column has by default or is
computed from, and which rows an index is about. `Expression.read?` reads one from tokens, by the
strengths of its signs.
-/

namespace CodeAtlas.Store.Schema

inductive Unary where
  | keep
  | negate
  | invert
  | not
  | isNull
  | notNull
deriving DecidableEq

inductive Binary where
  | or
  | and
  | equal
  | unequal
  | same
  | other
  | like
  | glob
  | less
  | atMost
  | more
  | atLeast
  | bitAnd
  | bitOr
  | shiftLeft
  | shiftRight
  | add
  | subtract
  | multiply
  | divide
  | remainder
  | concat
deriving DecidableEq

mutual

inductive Expression where
  | literal (value : Datum)
  /-- A column, perhaps of a named row; a quoted name that is no column stands for itself. -/
  | column (scope name : String) (isQuoted : Bool)
  | unary (sign : Unary) (operand : Expression)
  | binary (sign : Binary) (left right : Expression)
  | choose (condition yes no : Expression)
  | call (name : String) (arguments : Arguments)
  | cast (operand : Expression) (type : String)
  | collate (operand : Expression) (name : String)
deriving DecidableEq

inductive Arguments where
  | none
  | more (first : Expression) (rest : Arguments)
deriving DecidableEq

end

instance : Inhabited Expression := ⟨.literal .null⟩

def Arguments.ofList (list : List Expression) : Arguments := list.foldr .more .none

namespace Expression

def null : Expression := .literal .null

def truth (value : Bool) : Expression := .literal (.integer (if value then 1 else 0))

def negated (isNegated : Bool) (e : Expression) : Expression :=
  if isNegated then .unary .not e else e

def among (e : Expression) : List Expression → Expression
  | [] => truth false
  | [item] => .binary .equal e item
  | item :: rest => .binary .or (.binary .equal e item) (among e rest)

def hexDigit (c : Char) : Nat :=
  if c.isDigit then c.toNat - 48 else (Text.foldCase c).toNat - 87

/-- The octets that pairs of hexadecimal digits write. -/
def octetsOfHex : List Char → Bytes
  | a :: b :: rest => (16 * hexDigit a + hexDigit b).toUInt8 :: octetsOfHex rest
  | _ => []

def ofNumeral (text : String) : Datum :=
  match text.toList with
  | '0' :: x :: digits =>
    if x = 'x' ∨ x = 'X' then
      .integer (digits.foldl (fun n c => 16 * n + (hexDigit c : Int)) 0)
    else numberOfOctets (octets text)
  | _ => numberOfOctets (octets text)

/-- The sign between two operands, its strength, and the tokens behind it. -/
def sign? : List Token → Option (Binary × Nat × List Token)
  | [] => none
  | token :: rest =>
    let next := match rest with
      | second :: more => if second.offset = token.offset + 1 then some (second, more) else none
      | [] => none
    let follows := fun c => next.any fun (second, _) => second.isSign c
    let behind := (next.map Prod.snd).getD []
    match token.lexeme with
    | .sign '=' => some (.equal, 4, if follows '=' then behind else rest)
    | .sign '!' => if follows '=' then some (.unequal, 4, behind) else none
    | .sign '<' =>
      if follows '=' then some (.atMost, 5, behind)
      else if follows '>' then some (.unequal, 4, behind)
      else if follows '<' then some (.shiftLeft, 7, behind)
      else some (.less, 5, rest)
    | .sign '>' =>
      if follows '=' then some (.atLeast, 5, behind)
      else if follows '>' then some (.shiftRight, 7, behind)
      else some (.more, 5, rest)
    | .sign '|' => if follows '|' then some (.concat, 10, behind) else some (.bitOr, 7, rest)
    | .sign '&' => some (.bitAnd, 7, rest)
    | .sign '+' => some (.add, 8, rest)
    | .sign '-' => some (.subtract, 8, rest)
    | .sign '*' => some (.multiply, 9, rest)
    | .sign '/' => some (.divide, 9, rest)
    | .sign '%' => some (.remainder, 9, rest)
    | .word _ =>
      if token.isWord "or" then some (.or, 1, rest)
      else if token.isWord "and" then some (.and, 2, rest)
      else if token.isWord "like" then some (.like, 4, rest)
      else if token.isWord "glob" then some (.glob, 4, rest)
      else none
    | _ => none

def word? (word : String) : List Token → Option (List Token)
  | token :: rest => if token.isWord word then some rest else none
  | [] => none

def mark? (c : Char) : List Token → Option (List Token)
  | token :: rest => if token.isSign c then some rest else none
  | [] => none

/-- A name with another one in front of it or none, and the tokens behind it. -/
def readColumn (first : String) (isQuoted : Bool) (rest : List Token) : Expression × List Token :=
  match rest with
  | dot :: token :: more =>
    match if dot.isSign '.' then token.name? else none with
    | some name => (.column first name false, more)
    | none => (.column "" first isQuoted, rest)
  | _ => (.column "" first isQuoted, rest)

def constant? (text : String) : Option Expression :=
  let isWord := fun word : String => Text.sameUpToCase text.toList word.toList
  if isWord "null" then some null
  else if isWord "true" then some (truth true)
  else if isWord "false" then some (truth false)
  else if ["current_timestamp", "current_date", "current_time"].any isWord then
    some (.literal (.text []))
  else none

mutual

/-- Reads an expression whose signs have some strength at least. -/
def readFrom : (most : Nat) → (least : Nat) → List Token → Option (Expression × List Token)
  | 0, _, _ => none
  | most + 1, least, tokens => do
    let (first, rest) ← readOperand most tokens
    readOn most least first rest

def readOn : (most : Nat) → (least : Nat) → Expression → List Token →
    Option (Expression × List Token)
  | 0, _, _, _ => none
  | most + 1, least, left, tokens =>
    if let some rest := word? "collate" tokens then do
      let name :: rest := rest | none
      readOn most least (.collate left (← name.name?)) rest
    else if least ≤ 4 then
      let (isNegated, behind) := match word? "not" tokens with
        | some rest => (true, rest)
        | none => (false, tokens)
      if let some rest := word? "is" behind then do
        let (isOther, rest) := match word? "not" rest with
          | some rest => (true, rest)
          | none => (false, rest)
        if let some rest := word? "true" rest then
          return ← readOn most least (.choose left (truth !isOther) (truth isOther)) rest
        if let some rest := word? "false" rest then
          let e := .choose (.unary .not left) (truth !isOther) (truth isOther)
          return ← readOn most least e rest
        let (right, rest) ← readFrom most 5 rest
        readOn most least (.binary (if isOther then .other else .same) left right) rest
      else if let some rest := word? "isnull" tokens then
        readOn most least (.unary .isNull left) rest
      else if let some rest := word? "notnull" tokens then
        readOn most least (.unary .notNull left) rest
      else if let some rest := if isNegated then word? "null" behind else none then
        readOn most least (.unary .notNull left) rest
      else if let some rest := word? "between" behind then do
        let (low, rest) ← readFrom most 5 rest
        let (high, rest) ← readFrom most 5 (← word? "and" rest)
        readOn most least (negated isNegated
          (.binary .and (.binary .atLeast left low) (.binary .atMost left high))) rest
      else if let some rest := word? "in" behind then do
        let (items, rest) ← readList most (← mark? '(' rest)
        readOn most least (negated isNegated (among left items)) rest
      else if isNegated then do
        let (sign, _, rest) ← sign? behind
        let (right, rest) ← readFrom most 5 rest
        let (right, rest) ← readEscape most right rest
        readOn most least (negated true (.binary sign left right)) rest
      else readSigned most least left tokens
    else readSigned most least left tokens

/-- Reads the character that takes the meaning from the next one in a pattern. -/
def readEscape : (most : Nat) → Expression → List Token → Option (Expression × List Token)
  | 0, _, _ => none
  | most + 1, pattern, tokens =>
    match word? "escape" tokens with
    | none => some (pattern, tokens)
    | some rest => do
      let (mark, rest) ← readFrom most 5 rest
      return (.call "escape" (.ofList [pattern, mark]), rest)

def readSigned : (most : Nat) → (least : Nat) → Expression → List Token →
    Option (Expression × List Token)
  | 0, _, _, _ => none
  | most + 1, least, left, tokens =>
    match sign? tokens with
    | none => some (left, tokens)
    | some (sign, strength, rest) =>
      if strength < least then some (left, tokens)
      else do
        let (right, rest) ← readFrom most (strength + 1) rest
        let (right, rest) ← readEscape most right rest
        readOn most least (.binary sign left right) rest

def readList : (most : Nat) → List Token → Option (List Expression × List Token)
  | 0, _ => none
  | most + 1, tokens =>
    match mark? ')' tokens with
    | some rest => some ([], rest)
    | none => do
      let (first, rest) ← readFrom most 0 tokens
      match mark? ',' rest with
      | some rest =>
        let (others, rest) ← readList most rest
        return (first :: others, rest)
      | none => return ([first], ← mark? ')' rest)

/-- Reads the branches of a choice; the operand is compared with what stands in front of each. -/
def readBranches : (most : Nat) → (operand : Option Expression) → List Token →
    Option (Expression × List Token)
  | 0, _, _ => none
  | most + 1, operand, tokens =>
    match word? "when" tokens with
    | some rest => do
      let (condition, rest) ← readFrom most 0 rest
      let (yes, rest) ← readFrom most 0 (← word? "then" rest)
      let (no, rest) ← readBranches most operand rest
      let condition := match operand with
        | some e => .binary .equal e condition
        | none => condition
      return (.choose condition yes no, rest)
    | none =>
      match word? "else" tokens with
      | some rest => do
        let (no, rest) ← readFrom most 0 rest
        return (no, ← word? "end" rest)
      | none => do return (null, ← word? "end" tokens)

def readOperand : (most : Nat) → List Token → Option (Expression × List Token)
  | 0, _ => none
  | _ + 1, [] => none
  | most + 1, token :: rest =>
    match token.lexeme with
    | .number text => some (.literal (ofNumeral text), rest)
    | .string text => some (.literal (.ofText text), rest)
    | .blob digits => some (.literal (.blob (octetsOfHex digits.toList)), rest)
    | .name text => some (readColumn text true rest)
    | .sign '(' => do
      let (e, rest) ← readFrom most 0 rest
      return (e, ← mark? ')' rest)
    | .sign '-' => do
      let (e, rest) ← readFrom most 11 rest
      return (.unary .negate e, rest)
    | .sign '+' => do
      let (e, rest) ← readFrom most 11 rest
      return (.unary .keep e, rest)
    | .sign '~' => do
      let (e, rest) ← readFrom most 11 rest
      return (.unary .invert e, rest)
    | .sign _ => none
    | .word text =>
      if token.isWord "not" then do
        let (e, rest) ← readFrom most 3 rest
        return (.unary .not e, rest)
      else if token.isWord "case" then
        match word? "when" rest with
        | some _ => readBranches most none rest
        | none => do
          let (e, rest) ← readFrom most 0 rest
          readBranches most (some e) rest
      else if token.isWord "cast" then do
        let (e, rest) ← readFrom most 0 (← mark? '(' rest)
        let rest ← word? "as" rest
        let words := rest.takeWhile fun token => !token.isSign ')'
        let type := " ".intercalate (words.filterMap Token.name?)
        return (.cast e type, ← mark? ')' (rest.drop words.length))
      else
        match constant? text, mark? '(' rest with
        | some e, _ => some (e, rest)
        | none, some rest => do
          let (arguments, rest) ← readList most rest
          return (.call (String.ofList (text.toList.map Text.foldCase)) (.ofList arguments), rest)
        | none, none => some (readColumn text false rest)

end

def read? (tokens : List Token) : Option (Expression × List Token) :=
  readFrom (8 * tokens.length + 8) 0 tokens

def ofTokens? (tokens : List Token) : Option Expression :=
  match read? tokens with
  | some (e, []) => some e
  | _ => none

mutual

def columns : Expression → List String
  | .literal _ => []
  | .column _ name _ => [name]
  | .unary _ e => e.columns
  | .binary _ a b => a.columns ++ b.columns
  | .choose a b c => a.columns ++ b.columns ++ c.columns
  | .call _ arguments => columnsIn arguments
  | .cast e _ => e.columns
  | .collate e _ => e.columns

def columnsIn : Arguments → List String
  | .none => []
  | .more first rest => first.columns ++ columnsIn rest

end

end Expression

end CodeAtlas.Store.Schema
