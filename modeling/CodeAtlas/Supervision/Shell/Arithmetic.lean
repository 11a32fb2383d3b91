import CodeAtlas.Supervision.Shell.Reader
import CodeAtlas.Text.Basic

/-!
# Sums and conditions of the shell

What stands in double parentheses: integers of 64 bits, variables, and the operations of the C
language except steps. Variables may be assigned to. The condition of a test is a list of words,
whose number decides how they are read.
-/

namespace CodeAtlas.Supervision.Shell

abbrev Values := List (String × String)

def Values.set (values : Values) (name value : String) : Values :=
  (name, value) :: values.filter fun (other, _) => other ≠ name

namespace Sum

inductive Term where
  | number (n : Int)
  | name (text : String)
  | sign (text : String)
deriving DecidableEq

def wrap (n : Int) : Int := Int.bmod n (2 ^ 64)

def digits? (base : Nat) (digits : List Char) : Option Nat :=
  if digits.isEmpty then none
  else digits.foldlM (fun sum c => do
    let digit ← Text.hexDigit? c
    if digit < base then some (base * sum + digit) else none) 0

/-- The natural that a text writes in base ten, eight or sixteen. -/
def natural? : List Char → Option Nat
  | '0' :: 'x' :: rest | '0' :: 'X' :: rest => digits? 16 rest
  | '0' :: c :: rest => digits? 8 (c :: rest)
  | text => digits? 10 text

def integer? (text : String) : Option Int :=
  let isBlank (c : Char) : Bool := c == ' ' || c == '\t' || c == '\n'
  match ((text.toList.dropWhile isBlank).reverse.dropWhile isBlank).reverse with
  | '-' :: rest => (natural? rest).map fun n => wrap (-(n : Int))
  | '+' :: rest => (natural? rest).map fun n => wrap n
  | rest => (natural? rest).map fun n => wrap n

def longSigns : List String :=
  ["<<=", ">>=", "&&", "||", "==", "!=", "<=", ">=", "<<", ">>", "+=", "-=", "*=", "/=", "%=", "&=",
    "^=", "|="]

def terms? : (most : Nat) → List Char → Option (List Term)
  | 0, _ => some []
  | _ + 1, [] => some []
  | most + 1, c :: rest =>
    let text := c :: rest
    if c == ' ' || c == '\t' || c == '\n' then terms? most rest
    else if isNameChar c then do
      let run := text.takeWhile isNameChar
      let term ← if c.isDigit then (natural? run).map fun n => Term.number (wrap n)
        else some (.name (String.ofList run))
      some (term :: (← terms? most (text.drop run.length)))
    else
      match longSigns.find? fun sign => sign.toList.isPrefixOf text with
      | some sign => do some (.sign sign :: (← terms? most (text.drop sign.length)))
      | none => do some (.sign (String.ofList [c]) :: (← terms? most rest))

def strength? : String → Option Nat
  | "||" => some 1
  | "&&" => some 2
  | "|" => some 3
  | "^" => some 4
  | "&" => some 5
  | "==" | "!=" => some 6
  | "<" | "<=" | ">" | ">=" => some 7
  | "<<" | ">>" => some 8
  | "+" | "-" => some 9
  | "*" | "/" | "%" => some 10
  | _ => none

def truth (b : Bool) : Int := if b then 1 else 0

def bitwise (operation : Nat → Nat → Nat) (a b : Int) : Int :=
  wrap (operation (a % 2 ^ 64).toNat (b % 2 ^ 64).toNat)

def operate? (sign : String) (a b : Int) : Option Int :=
  match sign with
  | "||" => some (truth (a != 0 || b != 0))
  | "&&" => some (truth (a != 0 && b != 0))
  | "|" => some (bitwise Nat.lor a b)
  | "^" => some (bitwise Nat.xor a b)
  | "&" => some (bitwise Nat.land a b)
  | "==" => some (truth (a == b))
  | "!=" => some (truth (a != b))
  | "<" => some (truth (a < b))
  | "<=" => some (truth (a ≤ b))
  | ">" => some (truth (b < a))
  | ">=" => some (truth (b ≤ a))
  | "<<" => some (wrap (a * 2 ^ (b % 64).toNat))
  | ">>" => some (a / 2 ^ (b % 64).toNat)
  | "+" => some (wrap (a + b))
  | "-" => some (wrap (a - b))
  | "*" => some (wrap (a * b))
  | "/" => if b = 0 then none else some (wrap (a.tdiv b))
  | "%" => if b = 0 then none else some (wrap (a.tmod b))
  | _ => none

def variableValue? (values : Values) (name : String) : Option Int :=
  match values.lookup name with
  | none | some "" => some 0
  | some text => integer? text

/-- What a reader of a sum returns: a value, the variables after it, and the rest. -/
abbrev Result := Option (Int × Values × List Term)

mutual

/-- The value of an assignment or a choice. What is not `live` has no effect and no fault. -/
def assignment : (most : Nat) → (live : Bool) → Values → List Term → Result
  | 0, _, _, _ => none
  | most + 1, live, values, .name name :: .sign sign :: rest =>
    if sign = "=" then do
      let (n, values, rest) ← assignment most live values rest
      some (n, if live then values.set name (toString n) else values, rest)
    else if sign.length ≥ 2 ∧ sign.endsWith "=" ∧
        sign ∉ ["==", "!=", "<=", ">="] then do
      let (n, values, rest) ← assignment most live values rest
      let old ← variableValue? values name
      let result ← operate? (String.ofList sign.toList.dropLast) old n
      some (result, if live then values.set name (toString result) else values, rest)
    else choice most live values (.name name :: .sign sign :: rest)
  | most + 1, live, values, terms => choice most live values terms

def choice : (most : Nat) → (live : Bool) → Values → List Term → Result
  | 0, _, _, _ => none
  | most + 1, live, values, terms => do
    let (n, values, rest) ← operations most live 1 values terms
    match rest with
    | .sign "?" :: rest =>
      let (yes, values, rest) ← assignment most (live && n != 0) values rest
      match rest with
      | .sign ":" :: rest =>
        let (no, values, rest) ← assignment most (live && n == 0) values rest
        some (if n = 0 then no else yes, values, rest)
      | _ => none
    | _ => some (n, values, rest)

def operations : (most : Nat) → (live : Bool) → (strength : Nat) → Values → List Term → Result
  | 0, _, _, _, _ => none
  | most + 1, live, strength, values, terms => do
    let (n, values, rest) ← operand most live values terms
    following most live strength n values rest

def following : (most : Nat) → (live : Bool) → (strength : Nat) → Int → Values → List Term → Result
  | 0, _, _, _, _, _ => none
  | most + 1, live, strength, n, values, terms =>
    match terms with
    | .sign sign :: rest =>
      match strength? sign with
      | none => some (n, values, terms)
      | some own =>
        if own < strength then some (n, values, terms)
        else do
          let matters := if sign = "&&" then n != 0 else if sign = "||" then n == 0 else true
          let (k, values, rest) ← operations most (live && matters) (own + 1) values rest
          let result ← if live then operate? sign n k else some 0
          following most live strength result values rest
    | _ => some (n, values, terms)

/-- The value of a number, a variable, a sum in parentheses, or one of these behind a sign. -/
def operand : (most : Nat) → (live : Bool) → Values → List Term → Result
  | 0, _, _, _ => none
  | most + 1, live, values, terms =>
    match terms with
    | .number n :: rest => some (n, values, rest)
    | .name name :: rest => do
      some (← if live then variableValue? values name else some 0, values, rest)
    | .sign "(" :: rest => do
      let (n, values, rest) ← assignment most live values rest
      match rest with
      | .sign ")" :: rest => some (n, values, rest)
      | _ => none
    | .sign sign :: rest => do
      let (n, values, rest) ← operand most live values rest
      match sign with
      | "-" => some (wrap (-n), values, rest)
      | "+" => some (n, values, rest)
      | "!" => some (truth (n == 0), values, rest)
      | "~" => some (-n - 1, values, rest)
      | _ => none
    | [] => none

end

end Sum

/-- The value of a sum and the variables after it. No text is zero. -/
def evaluate? (values : Values) (text : List Char) : Option (Int × Values) := do
  let terms ← Sum.terms? (text.length + 1) text
  if terms.isEmpty then some (0, values)
  else
    let (n, values, rest) ← Sum.assignment (12 * terms.length + 12) true values terms
    if rest.isEmpty then some (n, values) else none

end CodeAtlas.Supervision.Shell

namespace CodeAtlas.Supervision.Shell.Condition

def compare? (order : String) (x y : Int) : Option Bool :=
  match order with
  | "-lt" => some (x < y)
  | "-le" => some (x ≤ y)
  | "-gt" => some (y < x)
  | "-ge" => some (y ≤ x)
  | "-eq" => some (x == y)
  | "-ne" => some (x != y)
  | _ => none

def number? (word : String) : Option Int :=
  let isBlank (c : Char) : Bool := c == ' ' || c == '\t' || c == '\n'
  let digits? (text : List Char) : Option Int := (Text.digitsValue? text).map Int.ofNat
  match ((word.toList.dropWhile isBlank).reverse.dropWhile isBlank).reverse with
  | '-' :: rest => (digits? rest).map (-·)
  | '+' :: rest => digits? rest
  | rest => digits? rest

def binary? (a operator b : String) : Option Bool :=
  match operator with
  | "=" => some (a == b)
  | "!=" => some (a != b)
  | "<" => some (a < b)
  | ">" => some (b < a)
  | _ => do compare? operator (← number? a) (← number? b)

def isBinary (operator : String) : Bool :=
  ["=", "!=", "<", ">", "-lt", "-le", "-gt", "-ge", "-eq", "-ne"].contains operator

variable (file : Char → String → Bool)

/-- Whether a condition of an operator in front of a word holds; `file` answers what files are
asked. -/
def unary? (operator a : String) : Option Bool :=
  match operator.toList with
  | ['-', 'n'] => some (!a.isEmpty)
  | ['-', 'z'] => some a.isEmpty
  | ['-', 't'] => some false
  | ['-', letter] =>
    if "bcdefghkLOprsSuwxG".toList.contains letter then some (file letter a) else none
  | _ => none

def simple? (file : Char → String → Bool) : List String → Option Bool
  | [] => none
  | [a] => some (!a.isEmpty)
  | "!" :: [a] => some a.isEmpty
  | [operator, a] => unary? file operator a
  | [a, operator, b] =>
    if isBinary operator then binary? a operator b
    else if a = "!" then (simple? file [operator, b]).map (!·)
    else if a = "(" ∧ b = ")" then some (!operator.isEmpty)
    else none
  | "!" :: rest => (simple? file rest).map (!·)
  | ["(", a, b, ")"] => unary? file a b
  | ["(", a, operator, b, ")"] => binary? a operator b
  | _ => none

def parts (mark : String) : List String → List (List String)
  | [] => [[]]
  | word :: rest =>
    match parts mark rest with
    | piece :: others => if word = mark then [] :: piece :: others else (word :: piece) :: others
    | [] => [[word]]

/-- Whether a condition holds; `none` if it is not well formed. Alternatives are divided first. -/
def holds? (words : List String) : Option Bool :=
  if words.isEmpty then some false
  else if words.length ≤ 3 then
    match words with
    | [a, "-a", b] => some (!a.isEmpty && !b.isEmpty)
    | [a, "-o", b] => some (!a.isEmpty || !b.isEmpty)
    | _ => simple? file words
  else do
    let answers ← (parts "-o" words).mapM fun alternative => do
      let each ← (parts "-a" alternative).mapM (simple? file)
      some (each.all id)
    some (answers.any id)

def status (words : List String) : Nat :=
  match holds? file words with
  | some true => 0
  | some false => 1
  | none => 2

end CodeAtlas.Supervision.Shell.Condition
