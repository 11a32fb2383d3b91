import CodeAtlas.Yaml.Node

/-!
# Documents and their aliases

A document is a tree and a table of the nodes that aliases stand for. The table has numbers for
names: a name that is given gets as its number how many names there were before it. A name that is
given again gets a new number and the count stays, so a later name may take that number over, and
an alias then stands for the later node. A node may hold an alias of itself, so following aliases
need not come to an end.
-/

namespace CodeAtlas.Yaml

structure Document where
  root : Node Nat
  /-- The nodes by number, the last one first. -/
  anchors : List (Nat × Node Nat)

namespace Document

abbrev Numbers := List (String × Nat)

def Numbers.give (numbers : Numbers) (name : String) : Nat × Numbers :=
  (numbers.length, (name, numbers.length) :: numbers.filter (·.1 != name))

mutual

/-- Puts numbers in the place of names. An alias of a name that was not given has no number. -/
def number (numbers : Numbers) : Node String → Option (Node Nat × Numbers)
  | .scalar mark tag style text => some (.scalar mark tag style text, numbers)
  | .sequence mark tag elements => do
    let (elements, numbers) ← numberElements numbers elements
    some (.sequence mark tag elements, numbers)
  | .mapping mark tag pairs => do
    let (pairs, numbers) ← numberPairs numbers pairs
    some (.mapping mark tag pairs, numbers)
  | .anchored name node => do
    let (given, numbers) := numbers.give name
    let (node, numbers) ← number numbers node
    some (.anchored given node, numbers)
  | .alias mark name => (numbers.lookup name).map fun given => (.alias mark given, numbers)

def numberElements (numbers : Numbers) : List (Node String) → Option (List (Node Nat) × Numbers)
  | [] => some ([], numbers)
  | node :: rest => do
    let (node, numbers) ← number numbers node
    let (rest, numbers) ← numberElements numbers rest
    some (node :: rest, numbers)

def numberPairs (numbers : Numbers) :
    List (Node String × Node String) → Option (List (Node Nat × Node Nat) × Numbers)
  | [] => some ([], numbers)
  | (key, value) :: rest => do
    let (key, numbers) ← number numbers key
    let (value, numbers) ← number numbers value
    let (rest, numbers) ← numberPairs numbers rest
    some ((key, value) :: rest, numbers)

end

mutual

/-- The named nodes of a node in front of others, the one that starts last first. -/
def gather (others : List (Nat × Node Nat)) : Node Nat → List (Nat × Node Nat)
  | .scalar _ _ _ _ => others
  | .sequence _ _ elements => gatherElements others elements
  | .mapping _ _ pairs => gatherPairs others pairs
  | .anchored name node => gather ((name, node) :: others) node
  | .alias _ _ => others

def gatherElements (others : List (Nat × Node Nat)) : List (Node Nat) → List (Nat × Node Nat)
  | [] => others
  | node :: rest => gatherElements (gather others node) rest

def gatherPairs (others : List (Nat × Node Nat)) :
    List (Node Nat × Node Nat) → List (Nat × Node Nat)
  | [] => others
  | (key, value) :: rest => gatherPairs (gather (gather others key) value) rest

end

mutual

/-- How many events a reader meets in a node: one for a scalar or an alias, and two for the ends of
a collection. -/
def events : Node Nat → Nat
  | .scalar _ _ _ _ => 1
  | .sequence _ _ elements => 2 + elementEvents elements
  | .mapping _ _ pairs => 2 + pairEvents pairs
  | .anchored _ node => events node
  | .alias _ _ => 1

def elementEvents : List (Node Nat) → Nat
  | [] => 0
  | node :: rest => events node + elementEvents rest

def pairEvents : List (Node Nat × Node Nat) → Nat
  | [] => 0
  | (key, value) :: rest => events key + events value + pairEvents rest

end

/-- The document of a node in which every alias has a name that was given before it. -/
def ofNode? (node : Node String) : Option Document := do
  let (root, _) ← number [] node
  some { root, anchors := gather [] root }

def parse? (text : String) : Option Document := do ofNode? (← Node.parse? text)

def target? (document : Document) (name : Nat) : Option (Node Nat) := document.anchors.lookup name

end Document

end CodeAtlas.Yaml
