import CodeAtlas.Yaml.Token.Lexer

/-!
# Nodes of a document

A document is a tree of scalars, sequences and mappings. `parse?` builds it from tokens by descent,
with at most as many steps as tokens allow. A node may have a name, and an alias stands for the node
of a name.
-/

namespace CodeAtlas.Yaml

/-- A part of a document with its place and its tag, where nodes are named by `α`. -/
inductive Node (α : Type) where
  | scalar (mark : Mark) (tag : Option Bytes) (style : Style) (text : String)
  | sequence (mark : Mark) (tag : Option Bytes) (elements : List (Node α))
  | mapping (mark : Mark) (tag : Option Bytes) (pairs : List (Node α × Node α))
  | anchored (name : α) (node : Node α)
  | alias (mark : Mark) (name : α)

namespace Node

def mark {α : Type} : Node α → Mark
  | .scalar mark _ _ _ | .sequence mark _ _ | .mapping mark _ _ | .alias mark _ => mark
  | .anchored _ node => node.mark

abbrev Written := Node String

def absent (mark : Mark) : Written := .scalar mark none .plain ""

structure Properties where
  mark : Option Mark := none
  anchor : Option String := none
  tag : Option Bytes := none

abbrev Handles := List (String × Bytes)

def standardHandles : Handles := [("!", octets "!"), ("!!", octets "tag:yaml.org,2002:")]

def fullTag? (handles : Handles) (handle : String) (suffix : Bytes) : Option Bytes :=
  if handle.isEmpty then some suffix else (handles.lookup handle).map (· ++ suffix)

def properties? (handles : Handles) : List Token → Option (Properties × List Token)
  | ⟨.anchor name, mark⟩ :: ⟨.tag handle suffix, _⟩ :: rest
  | ⟨.tag handle suffix, mark⟩ :: ⟨.anchor name, _⟩ :: rest => do
    let tag ← fullTag? handles handle suffix
    some (⟨some mark, some name, some tag⟩, rest)
  | ⟨.anchor name, mark⟩ :: rest => some ({ mark := some mark, anchor := some name }, rest)
  | ⟨.tag handle suffix, mark⟩ :: rest => do
    let tag ← fullTag? handles handle suffix
    some ({ mark := some mark, tag := some tag }, rest)
  | tokens => some ({}, tokens)

def next (tokens : List Token) (lexemes : List Lexeme) : Bool :=
  tokens.head?.any fun token => lexemes.contains token.lexeme

def place (tokens : List Token) : Mark := (tokens.head?.map (·.mark)).getD {}

/-- The rest of the tokens behind one that may stand next. -/
def past? (lexeme : Lexeme) : List Token → Option (List Token)
  | [] => none
  | token :: rest => if token.lexeme = lexeme then some rest else none

mutual

/-- Reads a node. Block collections are read only in a block, and a sequence whose dashes are not
indented only as a value of a mapping. -/
def read (handles : Handles) :
    (most : Nat) → (inBlock asValue : Bool) → List Token → Option (Written × List Token)
  | 0, _, _, _ => none
  | most + 1, inBlock, asValue, tokens =>
    match tokens with
    | ⟨.alias name, mark⟩ :: rest => some (.alias mark name, rest)
    | _ => do
      let (properties, tokens) ← properties? handles tokens
      let mark := properties.mark.getD (place tokens)
      let tag := properties.tag
      let (node, rest) ← match tokens with
        | [] => none
        | ⟨.scalar style text, _⟩ :: rest =>
          some (.scalar mark tag style text, rest)
        | ⟨.flowSequence, _⟩ :: rest => do
          let (elements, rest) ← readFlowElements handles most true rest
          some (.sequence mark tag elements, rest)
        | ⟨.flowMapping, _⟩ :: rest => do
          let (pairs, rest) ← readFlowPairs handles most true rest
          some (.mapping mark tag pairs, rest)
        | token :: rest =>
          if token.lexeme = .dash ∧ asValue then do
            let (elements, rest) ← readDashed handles most tokens
            some (.sequence mark tag elements, rest)
          else if token.lexeme = .blockSequence ∧ inBlock then do
            let (elements, rest) ← readElements handles most rest
            some (.sequence mark tag elements, rest)
          else if token.lexeme = .blockMapping ∧ inBlock then do
            let (pairs, rest) ← readPairs handles most rest
            some (.mapping mark tag pairs, rest)
          else if properties.mark.isSome then some (.scalar mark tag .plain "", tokens)
          else none
      some (match properties.anchor with
        | some name => .anchored name node
        | none => node, rest)

/-- Reads a node unless one of a few tokens shows that it is absent. -/
def readUnless (handles : Handles) :
    (most : Nat) → (ends : List Lexeme) → (absence : Mark) → (inBlock asValue : Bool) →
      List Token → Option (Written × List Token)
  | 0, _, _, _, _, _ => none
  | most + 1, ends, absence, inBlock, asValue, tokens =>
    if next tokens ends then some (absent absence, tokens)
    else read handles most inBlock asValue tokens

def readElements (handles : Handles) :
    (most : Nat) → List Token → Option (List Written × List Token)
  | 0, _ => none
  | most + 1, tokens =>
    match past? .blockEnd tokens with
    | some rest => some ([], rest)
    | none => do
      let rest ← past? .dash tokens
      let (element, rest) ←
        readUnless handles most [.dash, .blockEnd] (place tokens).next true false rest
      let (elements, rest) ← readElements handles most rest
      some (element :: elements, rest)

def readDashed (handles : Handles) : (most : Nat) → List Token → Option (List Written × List Token)
  | 0, _ => none
  | most + 1, tokens =>
    match past? .dash tokens with
    | none => some ([], tokens)
    | some rest => do
      let (element, rest) ← readUnless handles most [.dash, .key, .value, .blockEnd]
        (place tokens).next true false rest
      let (elements, rest) ← readDashed handles most rest
      some (element :: elements, rest)

def readPairs (handles : Handles) :
    (most : Nat) → List Token → Option (List (Written × Written) × List Token)
  | 0, _ => none
  | most + 1, tokens =>
    match past? .blockEnd tokens with
    | some rest => some ([], rest)
    | none => do
      let rest ← past? .key tokens
      let ends := [Lexeme.key, .value, .blockEnd]
      let (key, rest) ← readUnless handles most ends (place tokens).next true true rest
      let (value, rest) ← match past? .value rest with
        | some after => readUnless handles most ends (place rest).next true true after
        | none => some (absent (place rest), rest)
      let (pairs, rest) ← readPairs handles most rest
      some ((key, value) :: pairs, rest)

/-- Reads the elements of a bracketed sequence up to its end. A pair is a mapping of its own. -/
def readFlowElements (handles : Handles) :
    (most : Nat) → (isFirst : Bool) → List Token → Option (List Written × List Token)
  | 0, _, _ => none
  | most + 1, isFirst, tokens =>
    match past? .flowSequenceEnd tokens with
    | some rest => some ([], rest)
    | none => do
      let tokens ← if isFirst then some tokens else past? .comma tokens
      match past? .flowSequenceEnd tokens with
      | some rest => some ([], rest)
      | none =>
        let (element, rest) ← match past? .key tokens with
          | none => read handles most false false tokens
          | some rest => do
            let (key, rest) ←
              if next rest [.value, .comma, .flowSequenceEnd] then
                some (absent (place rest).next, rest.tail)
              else read handles most false false rest
            let (value, rest) ← match past? .value rest with
              | some after =>
                readUnless handles most [.comma, .flowSequenceEnd] (place after) false false after
              | none => some (absent (place rest), rest)
            some (.mapping (place tokens) none [(key, value)], rest)
        let (elements, rest) ← readFlowElements handles most false rest
        some (element :: elements, rest)

def readFlowPairs (handles : Handles) :
    (most : Nat) → (isFirst : Bool) → List Token → Option (List (Written × Written) × List Token)
  | 0, _, _ => none
  | most + 1, isFirst, tokens =>
    match past? .flowMappingEnd tokens with
    | some rest => some ([], rest)
    | none => do
      let tokens ← if isFirst then some tokens else past? .comma tokens
      match past? .flowMappingEnd tokens with
      | some rest => some ([], rest)
      | none =>
        let (pair, rest) ← match past? .key tokens with
          | none => do
            let (key, rest) ← read handles most false false tokens
            some ((key, absent (place rest)), rest)
          | some rest => do
            let (key, rest) ← readUnless handles most [.value, .comma, .flowMappingEnd] (place rest)
              false false rest
            let (value, rest) ← match past? .value rest with
              | some after =>
                readUnless handles most [.comma, .flowMappingEnd] (place after) false false after
              | none => some (absent (place rest), rest)
            some ((key, value), rest)
        let (pairs, rest) ← readFlowPairs handles most false rest
        some (pair :: pairs, rest)

end

/-- Reads the directives of a document. No version but 1.1 and 1.2 is accepted, and nothing twice.
-/
def directives? : (version : Bool) → Handles → List Token → Option (Handles × List Token)
  | seen, handles, ⟨.version major minor, _⟩ :: rest =>
    if seen || major != 1 || (minor != 1 && minor != 2) then none
    else directives? true handles rest
  | seen, handles, ⟨.abbreviation handle long, _⟩ :: rest =>
    if (handles.lookup handle).isSome then none
    else directives? seen ((handle, long) :: handles) rest
  | _, handles, tokens => some (handles ++ standardHandles, tokens)

def document? (tokens : List Token) : Option (Written × List Token) := do
  let most := 4 * tokens.length + 4
  match tokens with
  | [] => none
  | ⟨.finish, mark⟩ :: _ => some (absent mark, tokens)
  | ⟨lexeme, _⟩ :: _ =>
    let (handles, rest) ← directives? false [] tokens
    match past? .documentStart rest with
    | some rest =>
      let isEmpty := rest.head?.any fun token =>
        match token.lexeme with
        | .version _ _ | .abbreviation _ _ | .documentStart | .documentEnd | .finish => true
        | _ => false
      if isEmpty then some (absent (place rest), rest) else read handles most true false rest
    | none =>
      match lexeme with
      | .version _ _ | .abbreviation _ _ => none
      | _ => read standardHandles most true false tokens

def onlyDocument? (tokens : List Token) : Option Written := do
  let (node, rest) ← document? tokens
  if next (rest.dropWhile (·.lexeme == .documentEnd)) [.finish] then some node else none

def parse? (text : String) : Option Written := do onlyDocument? (← tokens? text.toList)

end Node

end CodeAtlas.Yaml
