import CodeAtlas.Supervision.Shell.Arithmetic
import CodeAtlas.Supervision.Shell.Edit
import CodeAtlas.Supervision.Shell.Format

/-!
# Tools

Programs that read their input to its end and write something made of it. A tool is a function of
its arguments and its input; what it writes comes with a status.
-/

namespace CodeAtlas.Supervision.Shell.Tool

/-- The lines of octets, without their ends. What comes behind the last end is a line if it is not
empty. -/
def lines : Bytes → List Bytes
  | [] => []
  | octet :: rest =>
    if octet = 10 then [] :: lines rest
    else
      match rest, lines rest with
      | [], _ => [[octet]]
      | _, line :: others => (octet :: line) :: others
      | _, [] => [[octet]]

def unlines (ls : List Bytes) : Bytes := ls.flatMap (· ++ [10])

/-- The letters of the options in front of the arguments, and the arguments behind them. -/
def options : List String → List Char × List String
  | [] => ([], [])
  | word :: rest =>
    if word = "--" then ([], rest)
    else if word.startsWith "-" && word != "-" then
      let (letters, others) := options rest
      (word.toList.tail ++ letters, others)
    else ([], word :: rest)

/-- The value of an option that has one, in the same word or the next, and the other arguments. -/
def valueOf (letter : Char) : List String → Option String × List String
  | [] => (none, [])
  | word :: rest =>
    match word.toList with
    | '-' :: c :: value =>
      if c = letter then
        match value, rest with
        | [], next :: others => (some next, others)
        | _, _ => (some (String.ofList value), rest)
      else
        let (found, others) := valueOf letter rest
        (found, word :: others)
    | _ =>
      let (found, others) := valueOf letter rest
      (found, word :: others)

inductive Amount where
  | lines (n : Nat)
  | octets (n : Nat)
  | fromLine (n : Nat)

variable (arguments : List String) (input : Bytes) (name : String)

/-- The amount that arguments ask for, ten lines unless they say otherwise. -/
def amount : Amount :=
  match valueOf 'n' arguments, valueOf 'c' arguments, arguments with
  | (some text, _), _, _ =>
    match text.toList with
    | '+' :: digits => .fromLine ((Text.digitsValue? digits).getD 1)
    | digits => .lines ((Text.digitsValue? digits).getD 10)
  | _, (some text, _), _ => .octets ((Text.digitsValue? text.toList).getD 0)
  | _, _, first :: _ =>
    match first.toList with
    | '-' :: digits => .lines ((Text.digitsValue? digits).getD 10)
    | _ => .lines 10
  | _, _, [] => .lines 10

/-- How many octets arguments ask for, if they do not ask for lines. -/
def octetsAsked? : Option Nat :=
  match amount arguments with
  | .octets n => some n
  | _ => none

def takeLines : (count : Nat) → Bytes → Bytes
  | 0, _ => []
  | _, [] => []
  | count + 1, octet :: rest =>
    octet :: takeLines (if octet = 10 then count else count + 1) rest

/-- The start of a text, if it is long enough or complete. -/
def head? (isComplete : Bool) : Option Bytes :=
  match amount arguments with
  | .octets n => if n ≤ input.length || isComplete then some (input.take n) else none
  | .lines n | .fromLine n =>
    if n ≤ input.count 10 || isComplete then some (takeLines n input) else none

def tail : Bytes :=
  match amount arguments with
  | .octets n => input.drop (input.length - n)
  | .fromLine n => input.drop (takeLines (n - 1) input).length
  | .lines n =>
    let count := (lines input).length
    input.drop (takeLines (count - n) input).length

def padded (width n : Nat) : Bytes :=
  let digits := octets (toString n)
  List.replicate (width - digits.length) 32 ++ digits

def wordCount (within : Bool) : Bytes → Nat
  | [] => 0
  | octet :: rest =>
    if octet = 32 || (9 ≤ octet && octet ≤ 13) then wordCount false rest
    else (if within then 0 else 1) + wordCount true rest

def count (arguments : List String) (input : Bytes) : Bytes :=
  let letters := (options arguments).1
  let asked (letter : Char) : Bool := letters.isEmpty || letters.contains letter
  let numbers := (if asked 'l' then [input.count 10] else []) ++
    (if asked 'w' then [wordCount false input] else []) ++
    (if letters.isEmpty || letters.contains 'c' || letters.contains 'm' then [input.length] else [])
  match numbers with
  | [n] => octets (toString n) ++ [10]
  | _ => List.intercalate [32] (numbers.map (padded 7)) ++ [10]

/-- The octets of a set of characters: escapes, ranges and classes by name. -/
def setOf : (most : Nat) → List Char → Bytes
  | 0, _ => []
  | _ + 1, [] => []
  | most + 1, '[' :: ':' :: rest =>
    let name := rest.takeWhile (· ≠ ':')
    let members := (Atom.named (String.ofList name)).flatMap fun (low, high) =>
      (List.range (high.toNat + 1 - low.toNat)).map fun i => (low.toNat + i).toUInt8
    members.mergeSort (fun a b => a ≤ b) ++ setOf most (rest.drop (name.length + 2))
  | most + 1, c :: rest =>
    let (first, rest) : Bytes × List Char :=
      if c = '\\' then Format.escape rest else (Utf8.encodeChar c, rest)
    match first, rest with
    | [low], '-' :: d :: after =>
      let (last, after) : Bytes × List Char :=
        if d = '\\' then Format.escape after else (Utf8.encodeChar d, after)
      let high := last.headD low
      (List.range (high.toNat + 1 - low.toNat)).map (fun i => (low.toNat + i).toUInt8) ++
        setOf most after
    | _, _ => first ++ setOf most rest

def set (text : String) : Bytes := setOf (text.length + 1) text.toList

def squeezed (isRepeated : UInt8 → Bool) : Bytes → Bytes
  | a :: b :: rest =>
    if a = b && isRepeated a then squeezed isRepeated (b :: rest)
    else a :: squeezed isRepeated (b :: rest)
  | rest => rest

def translate : Bytes × Nat :=
  let (letters, sets) := options arguments
  let first := set (sets.headD "")
  let second := set ((sets.drop 1).headD "")
  let inverted := letters.contains 'c' || letters.contains 'C'
  let isFirst (octet : UInt8) : Bool := first.contains octet != inverted
  if sets.isEmpty then ([], 1)
  else if letters.contains 'd' then
    let kept := input.filter fun octet => !isFirst octet
    (if letters.contains 's' then squeezed second.contains kept else kept, 0)
  else if sets.length = 1 then
    if letters.contains 's' then (squeezed isFirst input, 0) else ([], 1)
  else
    let image (octet : UInt8) : UInt8 :=
      if !isFirst octet then octet
      else if inverted then second.getLastD octet
      else (second[first.idxOf octet]?).getD (second.getLastD octet)
    let result := input.map image
    (if letters.contains 's' then squeezed second.contains result else result, 0)

def octetsLe : Bytes → Bytes → Bool
  | [], _ => true
  | _ :: _, [] => false
  | a :: as, b :: bs => a < b || (a == b && octetsLe as bs)

def leadingNumber (line : Bytes) : Int :=
  let text := (Utf8.decodePrefix line).1.dropWhile (· == ' ')
  let digits (rest : List Char) : Int := (Text.digitsValue? (rest.takeWhile Char.isDigit)).getD 0
  match text with
  | '-' :: rest => -digits rest
  | rest => digits rest

/-- Neighbours that are equal, together. -/
def groups : List Bytes → List (Bytes × Nat)
  | [] => []
  | line :: rest =>
    match groups rest with
    | (other, n) :: more =>
      if other = line then (other, n + 1) :: more else (line, 1) :: (other, n) :: more
    | [] => [(line, 1)]

def sort : Bytes :=
  let letters := (options arguments).1
  let le (a b : Bytes) : Bool :=
    if letters.contains 'n' && leadingNumber a != leadingNumber b then
      leadingNumber a ≤ leadingNumber b
    else octetsLe a b
  let sorted := (lines input).mergeSort fun a b => if letters.contains 'r' then le b a else le a b
  unlines (if letters.contains 'u' then (groups sorted).map Prod.fst else sorted)

/-- The lines without neighbours that are equal, perhaps with their numbers. -/
def unique : Bytes :=
  let letters := (options arguments).1
  let kept := (groups (lines input)).filter fun (_, n) =>
    (!letters.contains 'd' || 1 < n) && (!letters.contains 'u' || n == 1)
  unlines (kept.map fun (line, n) =>
    if letters.contains 'c' then padded 7 n ++ 32 :: line else line)

def parts (mark : UInt8) : Bytes → List Bytes
  | [] => [[]]
  | octet :: rest =>
    match parts mark rest with
    | piece :: others => if octet = mark then [] :: piece :: others else (octet :: piece) :: others
    | [] => [[octet]]

def isListed (text : String) (n : Nat) : Bool :=
  (text.splitOn ",").any fun item =>
    match item.splitOn "-" with
    | [single] => single.toNat? == some n
    | [low, high] => low.toNat?.getD 1 ≤ n && (high.isEmpty || n ≤ high.toNat?.getD 0)
    | _ => false

def listed {α : Type} (text : String) (items : List α) : List α :=
  (items.zipIdx.filter fun (_, i) => isListed text (i + 1)).map Prod.fst

def cut : Bytes :=
  match (valueOf 'c' arguments).1.or (valueOf 'b' arguments).1 with
  | some list => unlines ((lines input).map (listed list))
  | none =>
    let mark := ((octets ((valueOf 'd' arguments).1.getD "\t")).headD 9)
    let list := (valueOf 'f' (valueOf 'd' arguments).2).1.getD ""
    unlines ((lines input).map fun line =>
      if line.contains mark then List.intercalate [mark] (listed list (parts mark line)) else line)

def reversed : Bytes :=
  unlines ((lines input).map fun line => Utf8.encode (Utf8.decodePrefix line).1.reverse)

def steps (step last : Int) : (most : Nat) → Int → List Int
  | 0, _ => []
  | most + 1, n =>
    if (0 < step ∧ n ≤ last) ∨ (step < 0 ∧ last ≤ n) then n :: steps step last most (n + step)
    else []

def sequence : Bytes × Nat :=
  match arguments.mapM Sum.integer? with
  | some [last] => (unlines ((steps 1 last last.toNat 1).map fun n => octets (toString n)), 0)
  | some [first, last] =>
    (unlines ((steps 1 last ((last - first).toNat + 1) first).map fun n => octets (toString n)), 0)
  | some [first, step, last] =>
    (unlines ((steps step last ((last - first).natAbs + 1) first).map fun n => octets (toString n)),
      0)
  | _ => ([], 1)

def search : Bytes × Nat :=
  let (letters, words) := options arguments
  let fold (text : List Char) : List Char :=
    if letters.contains 'i' then text.map Char.toLower else text
  let pattern := fold (words.headD "").toList
  let pattern := if letters.contains 'F' then Search.plain pattern else .ofText pattern
  let found := (lines input).zipIdx.filter fun (line, _) =>
    pattern.isFound (fold (Utf8.decodePrefix line).1) != letters.contains 'v'
  let status := if found.isEmpty then 1 else 0
  if letters.contains 'q' then ([], status)
  else if letters.contains 'c' then (octets (toString found.length) ++ [10], status)
  else
    (unlines (found.map fun (line, i) =>
      if letters.contains 'n' then octets (toString (i + 1)) ++ 58 :: line else line), status)

def edit : Bytes × Nat :=
  let (quiet, words) := arguments.partition (· == "-n")
  let script := match words with
    | "-e" :: script :: _ | script :: _ => script
    | [] => ""
  let texts := (lines input).map fun line => (Utf8.decodePrefix line).1
  match Edit.run (!quiet.isEmpty) script texts with
  | some edited =>
    let written := unlines (edited.map Utf8.encode)
    (if input.getLast? == some 10 then written else written.dropLast, 0)
  | none => ([], 1)

def calculate : Bytes × Nat :=
  let answer (text : String) : Bytes × Nat :=
    (octets text ++ [10], if text == "" || text == "0" then 1 else 0)
  match arguments with
  | [single] => answer single
  | ["length", text] => answer (toString text.length)
  | ["substr", text, start, size] =>
    match start.toNat?, size.toNat? with
    | some start, some size =>
      answer (String.ofList (if start = 0 then [] else (text.toList.drop (start - 1)).take size))
    | _, _ => answer ""
  | [a, sign, b] =>
    match Sum.integer? a, Sum.integer? b with
    | some m, some n =>
      let sign := if sign = "=" then "==" else sign
      match Sum.operate? sign m n with
      | some result => answer (toString result)
      | none => ([], 2)
    | _, _ =>
      match sign with
      | "=" => answer (if a == b then "1" else "0")
      | "!=" => answer (if a != b then "1" else "0")
      | _ => ([], 2)
  | _ => ([], 2)

def baseName : Bytes :=
  let path := arguments.headD ""
  let names := (path.splitOn "/").filter (· != "")
  let name := names.getLastD (if path.startsWith "/" then "/" else "")
  let ending := (arguments.drop 1).headD ""
  let name := if ending.length < name.length && name.endsWith ending then
      String.ofList (name.toList.take (name.length - ending.length)) else name
  octets name ++ [10]

def directoryName : Bytes :=
  let path := arguments.headD ""
  let names := (path.splitOn "/").filter (· != "")
  let above := "/".intercalate names.dropLast
  let text := if path.startsWith "/" then "/" ++ above else if above.isEmpty then "." else above
  octets text ++ [10]

/-- The status of a tool that is given nothing where it needs something. -/
def refusal? : String → Option Nat
  | "basename" | "cut" | "dirname" | "mkdir" | "rm" | "rmdir" | "sed" | "touch" => some 1
  | "grep" => some 2
  | _ => none

def valueLetters : String → List Char
  | "head" | "tail" => ['n', 'c']
  | "cut" => ['d', 'f', 'c', 'b']
  | "sort" => ['k', 't']
  | "sed" | "grep" => ['e']
  | _ => []

/-- The arguments of a tool before and behind the names of files begin; some are no names. -/
def dividedBy (letters : List Char) : (others : Nat) → List String → List String × List String
  | _, [] => ([], [])
  | others, word :: rest =>
    match word.toList with
    | ['-', c] =>
      if letters.contains c then
        match rest with
        | value :: rest =>
          let (options, files) := dividedBy letters (if c = 'e' then 0 else others) rest
          (word :: value :: options, files)
        | [] => ([word], [])
      else
        let (options, files) := dividedBy letters others rest
        (word :: options, files)
    | '-' :: _ :: _ =>
      let (options, files) := dividedBy letters others rest
      (word :: options, files)
    | _ =>
      match others with
      | others + 1 =>
        let (options, files) := dividedBy letters others rest
        (word :: options, files)
      | 0 =>
        let (options, files) := dividedBy letters 0 rest
        (options, word :: files)

/-- The arguments of a tool that reads, and the names of the files that it reads. -/
def divided (arguments : List String) : List String × List String :=
  if name = "tr" then (arguments, [])
  else dividedBy (valueLetters name) (if name = "grep" || name = "sed" then 1 else 0) arguments

def immediate? (arguments : List String) : Option (Bytes × Nat) :=
  match name with
  | "seq" => some (sequence arguments)
  | "expr" => some (calculate arguments)
  | "basename" => some (baseName arguments, 0)
  | "dirname" => some (directoryName arguments, 0)
  | "tty" => some (octets "not a tty\n", 1)
  | _ => none

def filter? (arguments : List String) : Option (Bytes → Bytes × Nat) :=
  match name with
  | "tail" => some fun input => (tail arguments input, 0)
  | "wc" => some fun input => (count arguments input, 0)
  | "tr" => some (translate arguments)
  | "sort" => some fun input => (sort arguments input, 0)
  | "uniq" => some fun input => (unique arguments input, 0)
  | "cut" => some fun input => (cut arguments input, 0)
  | "rev" => some fun input => (reversed input, 0)
  | "tac" => some fun input => (unlines (lines input).reverse, 0)
  | "grep" => some (search arguments)
  | "sed" => some (edit arguments)
  | _ => none

def names : List String :=
  ["sh", "cat", "sleep", "echo", "pwd", "true", "false", "printf", "test", "[", "head", "tail",
    "wc", "tr", "sort", "uniq", "cut", "rev", "tac", "grep", "sed", "seq", "expr", "basename",
    "dirname", "tee", "yes", "ls", "mkdir", "rm", "rmdir", "touch", "env", "date",
    "id", "uname", "kill", "timeout", "nohup", "setsid", "nice", "dd", "mv", "cp", "which", "tty",
    "xargs", "dash"]

/-- The name of a program, perhaps with the place where programs are. -/
def program? : Option String :=
  let short := ["/bin/", "/usr/bin/"].findSome? fun place =>
    if name.startsWith place then some (String.ofList (name.toList.drop place.length)) else none
  (short.or (some name)).filter names.contains

def amount? (text : String) : Option Nat := do
  let digits := text.toList.takeWhile Char.isDigit
  let unit ← match text.toList.drop digits.length with
    | [] | ['c'] => some 1
    | ['w'] => some 2
    | ['b'] => some 512
    | ['k'] | ['K'] => some 1024
    | ['M'] => some (1024 * 1024)
    | _ => none
  return (← Text.digitsValue? digits) * unit

def operand? (arguments : List String) : Option String :=
  arguments.findSome? fun word =>
    if word.startsWith (name ++ "=") then
      some (String.ofList (word.toList.drop (name.length + 1)))
    else none

def copied? : Option Nat := do
  let count ← (operand? "count" arguments).bind amount?
  let size := ((operand? "bs" arguments).or (operand? "ibs" arguments)).bind amount?
  return count * size.getD 512

end CodeAtlas.Supervision.Shell.Tool
