import CodeAtlas.Text.Basic

/-!
# Words of a schema

The text of a definition is cut into tokens. Names may be bare or quoted, comments and blanks stand
between tokens, and each token knows at which octet it starts.
-/

namespace CodeAtlas.Store.Schema

inductive Lexeme where
  | word (text : String)
  | name (text : String)
  | string (text : String)
  | blob (digits : String)
  | number (text : String)
  | sign (c : Char)
deriving DecidableEq

structure Token where
  lexeme : Lexeme
  offset : Nat
deriving DecidableEq

variable (c : Char)

def startsWord : Bool := c.isAlpha || c == '_' || decide (0x80 ≤ c.toNat)

def isWordChar : Bool := startsWord c || c.isDigit || c == '$'

def isGap : Bool := c == ' ' || c == '\t' || c == '\n' || c == '\x0c' || c == '\r'

/-- The quote that closes a name or a string which a character opens. -/
def closing? : Option Char :=
  if c = '"' ∨ c = '\'' ∨ c.toNat = 96 then some c
  else if c = '[' then some ']'
  else none

/-- Reads up to a closing quote; a doubled quote stands for one, but not in brackets. -/
def readQuoted (quote : Char) : List Char → Option (List Char × List Char)
  | [] => none
  | c :: rest =>
    if c ≠ quote then (readQuoted quote rest).map fun (text, rest) => (c :: text, rest)
    else
      match rest with
      | d :: more =>
        if d = quote ∧ quote ≠ ']' then
          (readQuoted quote more).map fun (text, rest) => (quote :: text, rest)
        else some ([], rest)
      | [] => some ([], [])

/-- The text behind a comment that goes to its closing mark. -/
def skipComment : List Char → List Char
  | '*' :: '/' :: rest => rest
  | _ :: rest => skipComment rest
  | [] => []

/-- The digits of a number, its point and its exponent, and the text behind it. -/
def readNumber (text : List Char) : List Char × List Char :=
  let isPart (c : Char) : Bool := c.isAlphanum || c == '.' || c == '_'
  let run := text.takeWhile isPart
  let rest := text.dropWhile isPart
  match run.getLast?, rest with
  | some e, sign :: more =>
    if (e = 'e' ∨ e = 'E') ∧ (sign = '+' ∨ sign = '-') ∧ run.head?.any Char.isDigit then
      (run ++ sign :: more.takeWhile Char.isDigit, more.dropWhile Char.isDigit)
    else (run, rest)
  | _, _ => (run, rest)

/-- The token at the start of a text that is not a gap or a comment, and the text behind it. -/
def readLexeme (rest : List Char) : Option (Lexeme × List Char) :=
  match closing? c with
  | some quote =>
    (readQuoted quote rest).map fun (text, behind) =>
      (if c = '\'' then .string (String.ofList text) else .name (String.ofList text), behind)
  | none =>
    if (c = 'x' ∨ c = 'X') ∧ rest.head? = some '\'' then
      (readQuoted '\'' rest.tail).map fun (text, behind) =>
        (.blob (String.ofList text), behind)
    else if startsWord c then
      some (.word (String.ofList (c :: rest.takeWhile isWordChar)), rest.dropWhile isWordChar)
    else if c.isDigit || (c == '.' && rest.head?.any Char.isDigit) then
      let (run, behind) := readNumber (c :: rest)
      some (.number (String.ofList run), behind)
    else some (.sign c, rest)

def width (text : List Char) : Nat := text.foldl (fun n c => n + c.utf8Size) 0

/-- Reads the tokens of a text that starts at an octet, at most `most` tokens and gaps. -/
def tokensFrom : (most : Nat) → (offset : Nat) → List Char → Option (List Token)
  | _, _, [] => some []
  | 0, _, _ :: _ => none
  | most + 1, offset, c :: rest =>
    let goOn (behind : List Char) : Option (List Token) :=
      tokensFrom most (offset + (width (c :: rest) - width behind)) behind
    if isGap c then goOn rest
    else if c = '-' ∧ rest.head? = some '-' then goOn (rest.dropWhile (· ≠ '\n'))
    else if c = '/' ∧ rest.head? = some '*' then goOn (skipComment rest.tail)
    else do
      let (lexeme, behind) ← readLexeme c rest
      return ⟨lexeme, offset⟩ :: (← goOn behind)

/-- The tokens of a text, unless a quote in it is left open. -/
def tokens? (text : String) : Option (List Token) :=
  tokensFrom text.toList.length 0 text.toList

namespace Token

def isWord (word : String) (token : Token) : Bool :=
  match token.lexeme with
  | .word text => Text.sameUpToCase text.toList word.toList
  | _ => false

def isSign (c : Char) (token : Token) : Bool := token.lexeme == .sign c

def name? (token : Token) : Option String :=
  match token.lexeme with
  | .word text => some text
  | .name text => some text
  | .string text => some text
  | _ => none

end Token

end CodeAtlas.Store.Schema
