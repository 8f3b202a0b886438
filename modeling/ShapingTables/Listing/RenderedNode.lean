import ShapingTables.Listing.MatcherListing
import Std.Data.TreeMap

/-! The text of a node put together from the texts of its children. Children whose texts are
equal share an arm, and the arms stand in the order of their first labels. -/
namespace ShapingTables

namespace MatchExpression

def padding (indent : Nat) : String := String.ofList (List.replicate (4 * indent) ' ')

def armText (indent : Nat) (arm : List Nat × String) : String :=
  padding indent ++ labelList arm.1 ++ " => " ++ arm.2 ++ ",\n"

/-- A match on the glyph at a place, from the labels and the texts of its arms. -/
def selectText (place indent : Nat) (arms : List (List Nat × String)) : String :=
  "match *glyphs.get(" ++ toString place ++ ")? \x7b\n" ++
    String.join (arms.map (armText (indent + 1))) ++ (padding (indent + 1) ++ "_ => None,\n") ++
    padding indent ++ "\x7d"

end MatchExpression

/-- The labels of each text, in the order of the entries. -/
def labelsByText (bodies : List (Nat × String)) : Std.TreeMap String (List Nat) :=
  bodies.foldl (fun groups entry =>
    groups.alter entry.2 fun labels => some (labels.getD [] ++ [entry.1])) ∅

/-- Arms for bodies that are told apart by their texts. -/
def armsByText (bodies : List (Nat × String)) : List (List Nat × String) :=
  ((labelsByText bodies).toList.map fun group => (group.2, group.1)).mergeSort
    fun one other => one.1.headD 0 ≤ other.1.headD 0

mutual

/-- The text of a node below which `depth` glyphs have been matched. -/
def TrieNode.rendered (depth indent : Nat) : TrieNode → String
  | .chain [] => "Some(" ++ toString depth ++ ")"
  | .chain rest => MatchExpression.sliceText depth rest
  | .branch children =>
    MatchExpression.selectText depth indent
      (armsByText (children.rendered (depth + 1) (indent + 1)))

def Children.rendered (depth indent : Nat) : Children → List (Nat × String)
  | .nil => []
  | .cons label child others =>
    (label, child.rendered depth indent) :: others.rendered depth indent

end

/-- The function of a script, behind an empty line. -/
def MatcherListing.functionText (trie : SequenceTrie) : String :=
  "\nfn " ++ functionName trie.script ++ "(glyphs: &[u32]) -> Option<usize> \x7b\n    " ++
    (trie.root?.map (·.rendered 0 1)).getD "None" ++ "\n\x7d\n"

end ShapingTables
