/-!
# Patterns of the shell

A pattern matches whole texts: a star stands for any run of characters, a question mark for any one
character, and brackets for one of some characters. Quoted characters stand for themselves.
-/

namespace CodeAtlas.Supervision.Shell

/-- A character of a word, and whether it is quoted. -/
abbrev Mark := Char × Bool

inductive Atom where
  | run
  | one
  | char (c : Char)
  | set (negated : Bool) (ranges : List (Char × Char))
deriving DecidableEq

namespace Atom

def admits (c : Char) : Atom → Bool
  | .run => false
  | .one => true
  | .char d => c == d
  | .set negated ranges => (ranges.any fun (low, high) => low ≤ c && c ≤ high) != negated

def named : String → List (Char × Char)
  | "alpha" => [('a', 'z'), ('A', 'Z')]
  | "digit" => [('0', '9')]
  | "alnum" => [('a', 'z'), ('A', 'Z'), ('0', '9')]
  | "upper" => [('A', 'Z')]
  | "lower" => [('a', 'z')]
  | "space" => [('\t', '\r'), (' ', ' ')]
  | "blank" => [('\t', '\t'), (' ', ' ')]
  | "punct" => [('!', '/'), (':', '@'), ('[', Char.ofNat 0x60), ('\x7b', '~')]
  | "print" => [(' ', '~')]
  | "graph" => [('!', '~')]
  | "cntrl" => [('\x00', '\x1f'), ('\x7f', '\x7f')]
  | "xdigit" => [('0', '9'), ('a', 'f'), ('A', 'F')]
  | _ => []

/-- Reads the ranges of a set up to its closing bracket, which is a character if it comes first. -/
def readRanges? : (most : Nat) → (isFirst : Bool) → List Mark →
    Option (List (Char × Char) × List Mark)
  | 0, _, _ => none
  | _ + 1, _, [] => none
  | most + 1, isFirst, (c, quoted) :: rest =>
    if c = ']' ∧ !quoted ∧ !isFirst then some ([], rest)
    else if c = '[' ∧ !quoted ∧ (rest.head?.map Prod.fst) = some ':' then do
      let name := (rest.tail.map Prod.fst).takeWhile (· ≠ ':')
      let (ranges, rest) ← readRanges? most false (rest.drop (name.length + 3))
      some (named (String.ofList name) ++ ranges, rest)
    else
      match rest with
      | ('-', false) :: (high, flag) :: after =>
        if high = ']' ∧ !flag then (readRanges? most false rest).map fun (r, t) => ((c, c) :: r, t)
        else (readRanges? most false after).map fun (r, t) => ((c, high) :: r, t)
      | _ => (readRanges? most false rest).map fun (r, t) => ((c, c) :: r, t)

/-- The parts of a pattern; a bracket that is not closed stands for itself. -/
def ofMarks : (most : Nat) → List Mark → List Atom
  | 0, _ => []
  | _ + 1, [] => []
  | most + 1, (c, quoted) :: rest =>
    if quoted then .char c :: ofMarks most rest
    else if c = '*' then .run :: ofMarks most rest
    else if c = '?' then .one :: ofMarks most rest
    else if c = '[' then
      let negated := rest.head? == some ('!', false) || rest.head? == some ('^', false)
      match readRanges? (rest.length + 1) true (if negated then rest.tail else rest) with
      | some (ranges, after) => .set negated ranges :: ofMarks most after
      | none => .char c :: ofMarks most rest
    else .char c :: ofMarks most rest

/-- Whether some end of a text, the whole text included, satisfies a test. -/
def anyEnd (test : List Char → Bool) : List Char → Bool
  | [] => test []
  | c :: rest => test (c :: rest) || anyEnd test rest

def match_ : List Atom → List Char → Bool
  | [], text => text.isEmpty
  | .run :: atoms, text => anyEnd (match_ atoms) text
  | atom :: atoms, text =>
    match text with
    | [] => false
    | c :: rest => atom.admits c && match_ atoms rest

end Atom

variable (marks : List Mark)

def pattern : List Atom := Atom.ofMarks marks.length marks

def globMatches (text : List Char) : Bool := Atom.match_ (pattern marks) text

def isGlob : Bool := (pattern marks).any fun atom =>
  match atom with
  | .char _ => false
  | _ => true

def withoutStart (longest : Bool) (marks : List Mark) (text : List Char) : List Char :=
  let counts := List.range (text.length + 1)
  let counts := if longest then counts.reverse else counts
  match counts.find? fun n => globMatches marks (text.take n) with
  | some n => text.drop n
  | none => text

def withoutEnd (longest : Bool) (marks : List Mark) (text : List Char) : List Char :=
  let counts := List.range (text.length + 1)
  let counts := if longest then counts else counts.reverse
  match counts.find? fun n => globMatches marks (text.drop n) with
  | some n => text.take n
  | none => text

end CodeAtlas.Supervision.Shell
