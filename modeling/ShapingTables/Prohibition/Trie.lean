/-! A node is a chain, the rest of the one sequence below it, or a branch on the next
codepoint. No stored sequence begins another one, so a branch needs no mark for a sequence
that ends at it. An insertion that would break this is refused, and the node it returns is
then the one it was given. -/
namespace ShapingTables

mutual

inductive TrieNode where
  | chain (rest : List Nat)
  | branch (children : Children)
  deriving DecidableEq, Repr

/-- Nodes under distinct codepoints in ascending order. -/
inductive Children where
  | nil
  | cons (label : Nat) (child : TrieNode) (others : Children)
  deriving DecidableEq, Repr

end

namespace Children

def toList : Children → List (Nat × TrieNode)
  | .nil => []
  | .cons label child others => (label, child) :: others.toList

def find? (codepoint : Nat) : Children → Option TrieNode
  | .nil => none
  | .cons label child others => if label = codepoint then some child else others.find? codepoint

/-- The node under the codepoint is replaced, or added in its place in the order. -/
def put (codepoint : Nat) (node : TrieNode) : Children → Children
  | .nil => .cons codepoint node .nil
  | .cons label child others =>
    if label < codepoint then .cons label child (others.put codepoint node)
    else if label = codepoint then .cons label node others
    else .cons codepoint node (.cons label child others)

/-- Inserts below `first`: with `insertRest` into the node that is there, or else
as the new node `fresh`. -/
def grow (children : Children) (first : Nat) (fresh : TrieNode)
    (insertRest : TrieNode → TrieNode × Bool) : TrieNode × Bool :=
  match children.find? first with
  | some child =>
    let (grown, added) := insertRest child
    (.branch (children.put first grown), added)
  | none => (.branch (children.put first fresh), true)

end Children

namespace TrieNode

/-- The end of a sequence. -/
def leaf : TrieNode := .chain []

def isLeaf (node : TrieNode) : Bool := node = leaf

/-- The branch with a single child that stands for a chain. -/
def split : List Nat → Children
  | [] => .nil
  | first :: rest => .cons first (.chain rest) .nil

/-- Adds a sequence below a node. The answer holds the node after the attempt and
whether the sequence is now stored. -/
def insert : List Nat → TrieNode → TrieNode × Bool
  | [], node => (node, node.isLeaf)
  | first :: rest, .branch children => children.grow first (.chain rest) (insert rest)
  | first :: rest, .chain stored =>
    if stored = first :: rest then (.chain stored, true)
    else if stored.isPrefixOf (first :: rest) || (first :: rest).isPrefixOf stored then
      (.chain stored, false)
    else (split stored).grow first (.chain rest) (insert rest)

/-- The length of the stored sequence that begins the codepoints. -/
def matchLength? : List Nat → TrieNode → Option Nat
  | codepoints, .chain rest => if rest.isPrefixOf codepoints then some rest.length else none
  | [], .branch _ => none
  | codepoint :: codepoints, .branch children =>
    match children.find? codepoint with
    | some child => (matchLength? codepoints child).map (· + 1)
    | none => none

end TrieNode

mutual

def TrieNode.sequenceCount : TrieNode → Nat
  | .chain _ => 1
  | .branch children => children.sequenceCount

def Children.sequenceCount : Children → Nat
  | .nil => 0
  | .cons _ child others => child.sequenceCount + others.sequenceCount

end

/-- The prohibited sequences of one script. -/
structure SequenceTrie where
  script : String
  root? : Option TrieNode
  deriving DecidableEq, Repr

namespace SequenceTrie

def empty (script : String) : SequenceTrie := ⟨script, none⟩

/-- Adds a sequence; the empty one is refused like one that conflicts. -/
def insert (trie : SequenceTrie) (sequence : List Nat) : SequenceTrie × Bool :=
  if sequence.isEmpty then (trie, false)
  else match trie.root? with
    | some root =>
      let (grown, added) := root.insert sequence
      ({ trie with root? := some grown }, added)
    | none => ({ trie with root? := some (.chain sequence) }, true)

def matchLength? (trie : SequenceTrie) (codepoints : List Nat) : Option Nat :=
  trie.root?.bind fun root => root.matchLength? codepoints

def isEmpty (trie : SequenceTrie) : Bool := trie.root?.isNone

def size (trie : SequenceTrie) : Nat :=
  match trie.root? with
  | some root => root.sequenceCount
  | none => 0

end SequenceTrie

end ShapingTables
