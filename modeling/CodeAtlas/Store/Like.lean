import CodeAtlas.Text.Basic

/-!
# Patterns

A pattern is a list of atoms: any run of characters, any one character, or a given character up to
the case of Latin letters. `pattern` makes the pattern that finds a text anywhere in a name, as the
text of a LIKE expression with the backslash as escape character, and `occursIn` says the same
without patterns, for texts that have none of the two code points which are no characters.
-/

namespace CodeAtlas.Store

def escapeCharacter : Char := '\\'

def isSpecial (c : Char) : Bool := c == '%' || c == '_' || c == escapeCharacter

def escaped : List Char → List Char
  | [] => []
  | c :: rest => if isSpecial c then escapeCharacter :: c :: escaped rest else c :: escaped rest

/-- The pattern that finds a text anywhere. -/
def pattern (query : List Char) : List Char := '%' :: escaped query ++ ['%']

inductive Atom where
  | run
  | one
  | letter (c : Char)
deriving DecidableEq

/-- The atoms of a pattern; `none` if it ends in an escape character. -/
def atoms? : List Char → Option (List Atom)
  | [] => some []
  | c :: rest =>
    if c = escapeCharacter then
      match rest with
      | [] => none
      | d :: rest => (atoms? rest).map (Atom.letter d :: ·)
    else if c = '%' then (atoms? rest).map (Atom.run :: ·)
    else if c = '_' then (atoms? rest).map (Atom.one :: ·)
    else (atoms? rest).map (Atom.letter c :: ·)

/-- Whether some end of a text, the whole text included, satisfies a test. -/
def anySuffix (test : List Char → Bool) : List Char → Bool
  | [] => test []
  | c :: rest => test (c :: rest) || anySuffix test rest

/-- A character as the database reads it: the last two code points of the first plane, which are no
characters, become the replacement character. -/
def readAs (c : Char) : Char :=
  if c = '\ufffe' ∨ c = '\uffff' then '\ufffd' else c

def isAlike (c d : Char) : Bool := Text.foldCase (readAs c) == Text.foldCase (readAs d)

def matchesAtoms : List Atom → List Char → Bool
  | [], text => text.isEmpty
  | .run :: atoms, text => anySuffix (matchesAtoms atoms) text
  | .one :: atoms, text =>
    match text with
    | [] => false
    | _ :: rest => matchesAtoms atoms rest
  | .letter c :: atoms, text =>
    match text with
    | [] => false
    | d :: rest => isAlike c d && matchesAtoms atoms rest

/-- What comes before the first NUL, where the database takes a text to end. -/
def untilNul (text : List Char) : List Char := text.takeWhile (· ≠ '\x00')

def isLike (name pattern : List Char) : Bool :=
  match atoms? (untilNul pattern) with
  | some atoms => matchesAtoms atoms (untilNul name)
  | none => false

/-- Whether a text starts with another up to the case of Latin letters. -/
def startsLike : List Char → List Char → Bool
  | [], _ => true
  | _ :: _, [] => false
  | c :: query, d :: rest => Text.foldCase c == Text.foldCase d && startsLike query rest

/-- Whether a text occurs in a name up to the case of Latin letters. -/
def occursIn (query name : List Char) : Bool := anySuffix (startsLike query) name

def patternLimit : Nat := 50000

end CodeAtlas.Store
