/-!
# Commands of the shell

A server's start command may be a script. Scripts are read by descent, straight from their
characters, since an expansion within a word may hold a whole script. A script is read line by line:
the lines before one that cannot be read are run.
-/

namespace CodeAtlas.Supervision.Shell

/-- What stands in the place of a parameter. Some forms take a parameter that is empty for one that
is not set. -/
inductive Form where
  | value
  | length
  /-- Its value, or else a word. -/
  | orElse (emptyToo : Bool)
  /-- Its value, or else a word that it is set to. -/
  | orAssign (emptyToo : Bool)
  /-- Its value, without which nothing goes on. -/
  | orFail (emptyToo : Bool)
  /-- A word if it has a value. -/
  | instead (emptyToo : Bool)
  | withoutEnd (longest : Bool)
  | withoutStart (longest : Bool)
deriving DecidableEq

inductive Direction where
  | read
  | write
  | append
  | duplicate
  | here
deriving DecidableEq

mutual

/-- A part of a word. What is not quoted may be divided into several words. -/
inductive Piece where
  | literal (text : String) (quoted : Bool)
  | parameter (name : String) (form : Form) (argument : List Piece) (quoted : Bool)
  | arithmetic (sum : List Piece) (quoted : Bool)
  | capture (command : Command) (quoted : Bool)
  | captured (text : String) (quoted : Bool)

inductive Command where
  | simple (assignments : List (String × List Piece)) (words : List (List Piece))
      (redirections : List (Nat × Direction × List Piece))
  | redirected (command : Command) (redirections : List (Nat × Direction × List Piece))
  | pipeline (stages : List Command)
  | sequence (commands : List Command)
  /-- A command in a process of its own, which is not waited for. -/
  | background (command : Command)
  | subshell (command : Command)
  | loop (whileTrue : Bool) (condition body : Command)
  | each (name : String) (words : List (List Piece)) (body : Command)
  | choose (condition yes no : Command)
  /-- Runs the command of the first pattern that matches a word. -/
  | select (word : List Piece) (cases : List (List (List Piece) × Command))
  | both (first second : Command)
  | either (first second : Command)
  | invert (command : Command)
  | define (name : String) (body : Command)

end

abbrev Word := List Piece

abbrev Redirection := Nat × Direction × Word

def Command.skip : Command := .sequence []

/-- The command that ends a script which cannot be read. -/
def Command.refuse : Command :=
  .simple [] [[.literal "exit" false], [.literal "2" false]] []

def isNameChar (c : Char) : Bool := c.isAlphanum || c == '_'

variable (text : List Char)

def isName : Bool :=
  text.all isNameChar && text.head?.any fun c => !c.isDigit

def endsWord (c : Char) : Bool := [' ', '\t', '\n', ';', '&', '|', '>', '<', '(', ')'].contains c

def isSpecial (c : Char) : Bool := ['\'', '"', '\\', '$', Char.ofNat 0x60].contains c

def skipBlanks : List Char → List Char
  | ' ' :: rest => skipBlanks rest
  | '\t' :: rest => skipBlanks rest
  | '\\' :: '\n' :: rest => skipBlanks rest
  | '#' :: rest => rest.dropWhile (· ≠ '\n')
  | rest => rest

def skipLines : (most : Nat) → List Char → List Char
  | 0, text => text
  | most + 1, text =>
    match skipBlanks text with
    | '\n' :: rest => skipLines most rest
    | rest => rest

def skipEmpty : List Char := skipLines text.length text

/-- The bare word that comes next, if a word without quotes and expansions does. -/
def bareWord? : Option (String × List Char) :=
  let word := text.takeWhile fun c => !endsWord c && !isSpecial c
  let rest := text.drop word.length
  if word.isEmpty || rest.head?.any isSpecial then none else some (String.ofList word, rest)

def behind? (word : String) (text : List Char) : Option (List Char) := do
  let (found, rest) ← bareWord? (skipEmpty text)
  if found = word then some rest else none

def closers : List String := ["do", "done", "then", "elif", "else", "fi", "esac", "\x7d"]

def endsList : Bool :=
  match text with
  | [] => true
  | ')' :: _ | ';' :: ';' :: _ => true
  | _ => (bareWord? text).any fun (word, _) => closers.contains word

/-- The text up to two closing parentheses that belong to no pair within, and what follows. -/
def takeSum : (depth : Nat) → (before : List Char) → List Char → Option (List Char × List Char)
  | _, _, [] => none
  | 0, before, ')' :: ')' :: rest => some (before.reverse, rest)
  | depth, before, c :: rest =>
    let depth := if c == '(' then depth + 1 else if c == ')' then depth - 1 else depth
    takeSum depth (c :: before) rest

def backquote : Char := Char.ofNat 0x60

def takeBackquoted (before : List Char) : List Char → Option (List Char × List Char)
  | [] => none
  | '\\' :: c :: rest =>
    if ['\\', '$', backquote].contains c then takeBackquoted (c :: before) rest
    else takeBackquoted (c :: '\\' :: before) rest
  | c :: rest =>
    if c == backquote then some (before.reverse, rest) else takeBackquoted (c :: before) rest

def takeLines (mark : List Char) (stripTabs : Bool) : (most : Nat) → List Char →
    List Char × List Char
  | 0, text => (text, [])
  | most + 1, text =>
    let whole := text.takeWhile (· ≠ '\n')
    let line := if stripTabs then whole.dropWhile (· == '\t') else whole
    match text.drop whole.length with
    | [] => if line == mark then ([], []) else (line, [])
    | _ :: rest =>
      if line == mark then ([], rest)
      else
        let (lines, rest) := takeLines mark stripTabs most rest
        (line ++ '\n' :: lines, rest)

def literalText (word : Word) : String :=
  String.join (word.map fun piece =>
    match piece with
    | .literal text _ => text
    | _ => "")

def hasQuotes (word : Word) : Bool :=
  word.any fun piece =>
    match piece with
    | .literal _ quoted => quoted
    | _ => false

/-- Adds a character to the parts of a word, the last part first. -/
def addChar (c : Char) (quoted : Bool) : Word → Word
  | .literal text flag :: before =>
    if flag = quoted then .literal (text.push c) flag :: before
    else .literal (String.ofList [c]) quoted :: .literal text flag :: before
  | before => .literal (String.ofList [c]) quoted :: before

inductive Ending where
  /-- Before a character that ends a word. -/
  | word
  | quote
  | brace
  | text
deriving DecidableEq

def Ending.isAt (ending : Ending) (c : Char) : Bool :=
  match ending with
  | .word => endsWord c
  | .quote => c == '"'
  | .brace => c == '\x7d'
  | .text => false

/-- Whether a backslash takes the meaning from a character within quotes. -/
def Ending.escapes (ending : Ending) (c : Char) : Bool :=
  ['\\', '$', backquote].contains c || (c == '"' && ending != .text) ||
    (c == '\x7d' && ending == .brace)

/-- The form of a parameter that a mark in braces stands for, and what follows the mark. -/
def form? : List Char → Option (Form × List Char)
  | ':' :: '-' :: rest => some (.orElse true, rest)
  | '-' :: rest => some (.orElse false, rest)
  | ':' :: '=' :: rest => some (.orAssign true, rest)
  | '=' :: rest => some (.orAssign false, rest)
  | ':' :: '?' :: rest => some (.orFail true, rest)
  | '?' :: rest => some (.orFail false, rest)
  | ':' :: '+' :: rest => some (.instead true, rest)
  | '+' :: rest => some (.instead false, rest)
  | '%' :: '%' :: rest => some (.withoutEnd true, rest)
  | '%' :: rest => some (.withoutEnd false, rest)
  | '#' :: '#' :: rest => some (.withoutStart true, rest)
  | '#' :: rest => some (.withoutStart false, rest)
  | _ => none

def Form.takesPattern : Form → Bool
  | .withoutEnd _ | .withoutStart _ => true
  | _ => false

def isSpecialParameter (c : Char) : Bool := ['@', '*', '#', '?', '-', '$', '!'].contains c

def parameterName? : List Char → Option (List Char × List Char)
  | [] => none
  | c :: rest =>
    if c.isDigit then
      some (c :: rest.takeWhile Char.isDigit, rest.dropWhile Char.isDigit)
    else if isNameChar c then some (c :: rest.takeWhile isNameChar, rest.dropWhile isNameChar)
    else if isSpecialParameter c then some ([c], rest)
    else none

/-- The mark of a redirection: whether it is one of an output, what it does, and what follows it. -/
def direction? : List Char → Option ((Bool × Direction) × List Char)
  | '>' :: '>' :: rest => some ((true, .append), rest)
  | '>' :: '&' :: rest => some ((true, .duplicate), rest)
  | '>' :: '|' :: rest => some ((true, .write), rest)
  | '>' :: rest => some ((true, .write), rest)
  | '<' :: '<' :: rest => some ((false, .here), rest)
  | '<' :: '&' :: rest => some ((false, .duplicate), rest)
  | '<' :: '>' :: rest => some ((false, .read), rest)
  | '<' :: rest => some ((false, .read), rest)
  | _ => none

def assignment? : Word → Option (String × Word)
  | .literal text false :: rest =>
    let name := text.toList.takeWhile (· ≠ '=')
    match text.toList.drop name.length with
    | '=' :: value =>
      if isName name then some (String.ofList name, .literal (String.ofList value) false :: rest)
      else none
    | _ => none
  | _ => none

def Command.withRedirections (command : Command) (redirections : List Redirection) : Command :=
  if redirections.isEmpty then command else .redirected command redirections

mutual

def readPieces : (most : Nat) → Ending → (quoted : Bool) → (before : Word) → List Char →
    Option (Word × List Char)
  | 0, _, _, _, _ => none
  | _ + 1, ending, _, before, [] =>
    if ending = .word ∨ ending = .text then some (before.reverse, []) else none
  | most + 1, ending, quoted, before, c :: rest =>
    if ending.isAt c then some (before.reverse, if ending = .word then c :: rest else rest)
    else if c = '\'' ∧ !quoted then do
      let text := rest.takeWhile (· ≠ '\'')
      match rest.drop text.length with
      | [] => none
      | _ :: rest =>
        readPieces most ending quoted (.literal (String.ofList text) true :: before) rest
    else if c = '"' ∧ ending ≠ .text then do
      let (pieces, rest) ← readPieces most .quote true [.literal "" true] rest
      readPieces most ending quoted (pieces.reverse ++ before) rest
    else if c = '\\' then
      match rest with
      | '\n' :: after => readPieces most ending quoted before after
      | d :: after =>
        if !quoted || ending.escapes d then
          readPieces most ending quoted (addChar d true before) after
        else readPieces most ending quoted (addChar c quoted before) rest
      | [] => readPieces most ending quoted (addChar c quoted before) rest
    else if c = '$' then do
      let (piece, rest) ← readExpansion most quoted rest
      readPieces most ending quoted (piece :: before) rest
    else if c = backquote then do
      let (text, rest) ← takeBackquoted [] rest
      let (commands, _) ← readList most text
      readPieces most ending quoted (.capture (.sequence commands) quoted :: before) rest
    else readPieces most ending quoted (addChar c quoted before) rest

def readExpansion : (most : Nat) → (quoted : Bool) → List Char → Option (Piece × List Char)
  | 0, _, _ => none
  | most + 1, quoted, text =>
    match text with
    | '(' :: '(' :: rest => do
      let (sum, rest) ← takeSum 0 [] rest
      let (pieces, _) ← readPieces most .text true [] sum
      some (.arithmetic pieces quoted, rest)
    | '(' :: rest => do
      let (commands, rest) ← readList most rest
      match rest with
      | ')' :: rest => some (.capture (.sequence commands) quoted, rest)
      | _ => none
    | '{' :: '#' :: '}' :: rest => some (.parameter "#" .value [] quoted, rest)
    | '{' :: '#' :: rest => do
      let (name, rest) ← parameterName? rest
      match rest with
      | '}' :: rest => some (.parameter (String.ofList name) .length [] quoted, rest)
      | _ => none
    | '{' :: rest => do
      let (name, rest) ← parameterName? rest
      let name := String.ofList name
      match rest with
      | '}' :: rest => some (.parameter name .value [] quoted, rest)
      | _ =>
        let (form, rest) ← form? rest
        let (argument, rest) ← readPieces most .brace (quoted && !form.takesPattern) [] rest
        some (.parameter name form argument quoted, rest)
    | c :: rest =>
      if c.isDigit || isSpecialParameter c then
        some (.parameter (String.ofList [c]) .value [] quoted, rest)
      else if isNameChar c then
        let name := text.takeWhile isNameChar
        some (.parameter (String.ofList name) .value [] quoted, text.drop name.length)
      else some (.literal "$" quoted, text)
    | [] => some (.literal "$" quoted, text)

/-- Reads a redirection behind the number of its stream. The lines of a text that is given are taken
out from behind the line that they are asked for in. -/
def readRedirection : (most : Nat) → (stream : Option Nat) → List Char →
    Option (Redirection × List Char)
  | 0, _, _ => none
  | most + 1, stream, text => do
    let ((isOutput, direction), rest) ← direction? text
    let stream := stream.getD (if isOutput then 1 else 0)
    let stripTabs := direction == .here && rest.head? == some '-'
    let rest := if stripTabs then rest.tail else rest
    let (word, rest) ← readPieces most .word false [] (skipBlanks rest)
    if word.isEmpty then none
    if direction = .here then
      let line := rest.takeWhile (· ≠ '\n')
      let mark := (literalText word).toList
      let below := (rest.drop line.length).tail
      let (lines, below) := takeLines mark stripTabs below.length below
      let rest := line ++ '\n' :: below
      if hasQuotes word then some ((stream, direction, [.literal (String.ofList lines) true]), rest)
      else
        let (pieces, _) ← readPieces most .text true [] lines
        some ((stream, direction, pieces), rest)
    else some ((stream, direction, word), rest)

def readRedirections : (most : Nat) → List Char → Option (List Redirection × List Char)
  | 0, _ => none
  | most + 1, text =>
    let text := skipBlanks text
    let digits := text.takeWhile Char.isDigit
    let rest := text.drop digits.length
    if rest.head? = some '<' ∨ rest.head? = some '>' then do
      let (redirection, rest) ← readRedirection most (String.ofList digits).toNat? rest
      let (redirections, rest) ← readRedirections most rest
      some (redirection :: redirections, rest)
    else some ([], text)

/-- Reads the rest of a simple command, of which some parts are read, the last ones first. -/
def readSimple : (most : Nat) → List (String × Word) → List Word → List Redirection → List Char →
    Option (Command × List Char)
  | 0, _, _, _, _ => none
  | most + 1, assignments, words, redirections, text => do
    let (more, text) ← readRedirections most text
    let redirections := redirections ++ more
    match text with
    | [] => some (.simple assignments.reverse words.reverse redirections, text)
    | c :: _ =>
      if endsWord c then some (.simple assignments.reverse words.reverse redirections, text)
      else
        let (word, rest) ← readPieces most .word false [] text
        match words, assignment? word with
        | [], some assignment =>
          readSimple most (assignment :: assignments) [] redirections rest
        | _, _ => readSimple most assignments (word :: words) redirections rest

def readCases : (most : Nat) → List Char → Option (List (List Word × Command) × List Char)
  | 0, _ => none
  | most + 1, text =>
    match behind? "esac" text with
    | some rest => some ([], rest)
    | none => do
      let text := skipEmpty text
      let (patterns, rest) ←
        readPatterns most (if text.head? = some '(' then text.tail else text)
      let (commands, rest) ← readList most rest
      let rest := match rest with
        | ';' :: ';' :: rest => rest
        | rest => rest
      let (cases, rest) ← readCases most rest
      some ((patterns, .sequence commands) :: cases, rest)

def readPatterns : (most : Nat) → List Char → Option (List Word × List Char)
  | 0, _ => none
  | most + 1, text => do
    let (pattern, rest) ← readPieces most .word false [] (skipBlanks text)
    match skipBlanks rest with
    | '|' :: rest =>
      let (patterns, rest) ← readPatterns most rest
      some (pattern :: patterns, rest)
    | ')' :: rest => some ([pattern], rest)
    | _ => none

def readChoice : (most : Nat) → List Char → Option (Command × List Char)
  | 0, _ => none
  | most + 1, text => do
    let (condition, rest) ← readBody most text
    let (yes, rest) ← readBody most (← behind? "then" rest)
    let condition := Command.sequence condition
    match behind? "elif" rest with
    | some rest =>
      let (no, rest) ← readChoice most rest
      some (.choose condition (.sequence yes) no, rest)
    | none =>
      let (no, rest) ← match behind? "else" rest with
        | some rest => readBody most rest
        | none => some ([], rest)
      some (.choose condition (.sequence yes) (.sequence no), ← behind? "fi" rest)

def readWords : (most : Nat) → List Char → Option (List Word × List Char)
  | 0, _ => none
  | most + 1, text =>
    match skipBlanks text with
    | [] => some ([], [])
    | c :: rest =>
      if endsWord c then some ([], c :: rest)
      else do
        let (word, rest) ← readPieces most .word false [] (c :: rest)
        let (words, rest) ← readWords most rest
        some (word :: words, rest)

/-- Reads a command that is put together of others, by the word that it starts with. -/
def readCompound : (most : Nat) → (word : String) → List Char → Option (Command × List Char)
  | 0, _, _ => none
  | most + 1, word, text =>
    match word with
    | "\x7b" => do
      let (body, rest) ← readBody most text
      some (.sequence body, ← behind? "\x7d" rest)
    | "if" => readChoice most text
    | "case" => do
      let (word, rest) ← readPieces most .word false [] (skipBlanks text)
      let (cases, rest) ← readCases most (← behind? "in" rest)
      some (.select word cases, rest)
    | "for" => do
      let (name, rest) ← bareWord? (skipBlanks text)
      let (words, rest) ← match behind? "in" rest with
        | some rest => readWords most rest
        | none => some ([[.parameter "@" .value [] true]], rest)
      let rest := match skipBlanks rest with
        | ';' :: rest => rest
        | rest => rest
      let (body, rest) ← readBody most (← behind? "do" rest)
      some (.each name words (.sequence body), ← behind? "done" rest)
    | _ => do
      let (condition, rest) ← readBody most text
      let (body, rest) ← readBody most (← behind? "do" rest)
      some (.loop (word == "while") (.sequence condition) (.sequence body), ← behind? "done" rest)

def readCommand : (most : Nat) → List Char → Option (Command × List Char)
  | 0, _ => none
  | most + 1, text => do
    let text := skipBlanks text
    match text, bareWord? text with
    | '(' :: rest, _ =>
      let (commands, rest) ← readBody most rest
      match rest with
      | ')' :: rest =>
        let (redirections, rest) ← readRedirections most rest
        some (Command.withRedirections (.subshell (.sequence commands)) redirections, rest)
      | _ => none
    | _, some (word, rest) =>
      if ["\x7b", "if", "case", "for", "while", "until"].contains word then
        let (command, rest) ← readCompound most word rest
        let (redirections, rest) ← readRedirections most rest
        some (command.withRedirections redirections, rest)
      else if closers.contains word then none
      else
        match skipBlanks rest with
        | '(' :: more =>
          match skipBlanks more with
          | ')' :: more =>
            let (body, rest) ← readCommand most (skipEmpty more)
            some (.define word body, rest)
          | _ => none
        | _ => readSimple most [] [] [] text
    | _, none => readSimple most [] [] [] text

def readStages : (most : Nat) → List Char → Option (List Command × List Char)
  | 0, _ => none
  | most + 1, text => do
    let (stage, rest) ← readCommand most text
    if let .simple [] [] [] := stage then none
    match skipBlanks rest with
    | '|' :: '|' :: _ => some ([stage], rest)
    | '|' :: rest =>
      let (stages, rest) ← readStages most (skipEmpty rest)
      some (stage :: stages, rest)
    | rest => some ([stage], rest)

def readPipeline : (most : Nat) → List Char → Option (Command × List Char)
  | 0, _ => none
  | most + 1, text => do
    let text := skipBlanks text
    match bareWord? text with
    | some ("!", rest) =>
      let (command, rest) ← readPipeline most rest
      some (.invert command, rest)
    | _ =>
      let (stages, rest) ← readStages most text
      match stages with
      | [stage] => some (stage, rest)
      | _ => some (.pipeline stages, rest)

def readChain : (most : Nat) → Command → List Char → Option (Command × List Char)
  | 0, _, _ => none
  | most + 1, first, text =>
    match skipBlanks text with
    | '&' :: '&' :: rest => do
      let (second, rest) ← readPipeline most (skipEmpty rest)
      readChain most (.both first second) rest
    | '|' :: '|' :: rest => do
      let (second, rest) ← readPipeline most (skipEmpty rest)
      readChain most (.either first second) rest
    | rest => some (first, rest)

def readLine : (most : Nat) → List Char → Option (List Command × List Char)
  | 0, _ => none
  | most + 1, text => do
    let text := skipBlanks text
    if endsList text || text.head? = some '\n' then some ([], text)
    else
      let (first, rest) ← readPipeline most text
      let (command, rest) ← readChain most first rest
      match skipBlanks rest with
      | ';' :: ';' :: _ => some ([command], rest)
      | ';' :: rest =>
        let (commands, rest) ← readLine most rest
        some (command :: commands, rest)
      | '&' :: rest =>
        let (commands, rest) ← readLine most rest
        some (.background command :: commands, rest)
      | rest => some ([command], rest)

def readBody : (most : Nat) → List Char → Option (List Command × List Char)
  | 0, _ => none
  | most + 1, text => do
    let (commands, rest) ← readList most text
    if commands.isEmpty then none else some (commands, rest)

def readList : (most : Nat) → List Char → Option (List Command × List Char)
  | 0, _ => none
  | most + 1, text =>
    let text := skipEmpty text
    if endsList text then some ([], text)
    else do
      let (commands, rest) ← readLine most text
      let (more, rest) ← readList most rest
      some (commands ++ more, rest)

end

/-- The commands of a script, up to a line that cannot be read. -/
def readScript : (most : Nat) → (budget : Nat) → List Char → List Command
  | 0, _, _ => []
  | most + 1, budget, text =>
    let text := skipEmpty text
    if text.isEmpty then []
    else
      match readLine budget text with
      | some (commands, rest) =>
        if rest.isEmpty || (rest.head? == some '\n' && rest.length < text.length) then
          commands ++ readScript most budget rest
        else [.refuse]
      | none => [.refuse]

inductive First where
  | command (commands : List Command) (rest : String)
  | unfinished
  | unreadable

/-- The commands of the first line of a script of which more may come. -/
def readFirst (script : String) : First :=
  let text := skipEmpty script.toList
  match readLine (20 * text.length + 20) text with
  | some (commands, '\n' :: rest) => .command commands (String.ofList rest)
  | some (_, []) | none => .unfinished
  | some (_, _ :: _) => .unreadable

def read (script : String) : Command :=
  .sequence (readScript (script.length + 1) (20 * script.length + 20) script.toList)

end CodeAtlas.Supervision.Shell
