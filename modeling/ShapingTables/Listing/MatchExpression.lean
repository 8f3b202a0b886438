import ShapingTables.Prohibition.Trie
import ShapingTables.Text.Numeral
import ShapingTables.Text.Outline

/-! The expression that the generated file has for a trie node. Glyphs are addressed by
their place in the whole sequence, not relative to the node. Children whose expressions
are equal share one arm. -/
namespace ShapingTables

open Text (Outline)

mutual

inductive MatchExpression where
  /-- A sequence of this length has been matched. -/
  | found (length : Nat)
  /-- The glyphs from a place on are those of the list. -/
  | slice (start : Nat) (glyphs : List Nat)
  /-- What follows hangs on the glyph at a place. -/
  | select (place : Nat) (arms : Arms)
  deriving DecidableEq, Repr

/-- The labels of each arm ascend, and so do the first labels of the arms. -/
inductive Arms where
  | nil
  | cons (labels : List Nat) (body : MatchExpression) (others : Arms)
  deriving DecidableEq, Repr

end

/-- Adds a label to the arm with this body, a new last arm if there is none. -/
def Arms.add (label : Nat) (body : MatchExpression) : Arms → Arms
  | .nil => .cons [label] body .nil
  | .cons labels present others =>
    if present = body then .cons (labels ++ [label]) present others
    else .cons labels present (others.add label body)

mutual

/-- The expression of a node below which `depth` glyphs have been matched. -/
def MatchExpression.ofNode (depth : Nat) : TrieNode → MatchExpression
  | .chain [] => .found depth
  | .chain rest => .slice depth rest
  | .branch children => .select depth (Arms.ofChildren (depth + 1) .nil children)

def Arms.ofChildren (depth : Nat) (grouped : Arms) : Children → Arms
  | .nil => grouped
  | .cons label child others =>
    Arms.ofChildren depth (grouped.add label (MatchExpression.ofNode depth child)) others

end

mutual

/-- The length of the match in the glyphs, none where a glyph is missing or differs. -/
def MatchExpression.eval (glyphs : List Nat) : MatchExpression → Option Nat
  | .found length => some length
  | .slice start expected =>
    if start + expected.length ≤ glyphs.length ∧
        (glyphs.drop start).take expected.length = expected then
      some (start + expected.length)
    else none
  | .select place arms => glyphs[place]?.bind fun glyph => arms.eval glyphs glyph

/-- The first arm with the label decides. -/
def Arms.eval (glyphs : List Nat) (glyph : Nat) : Arms → Option Nat
  | .nil => none
  | .cons labels body others =>
    if labels.contains glyph then body.eval glyphs else others.eval glyphs glyph

end

namespace MatchExpression

def literal (codepoint : Nat) : String := "0x" ++ Text.hex4 codepoint

def labelList (labels : List Nat) : String := " | ".intercalate (labels.map literal)

def sliceText (start : Nat) (glyphs : List Nat) : String :=
  "matches!(glyphs.get(" ++ toString start ++ ".." ++ toString (start + glyphs.length) ++
    "), Some([" ++ ", ".intercalate (glyphs.map literal) ++ "])).then_some(" ++
    toString (start + glyphs.length) ++ ")"

end MatchExpression

mutual

/-- The expression between `opening` and `closing`. -/
def MatchExpression.outline (opening closing : String) : MatchExpression → Outline
  | .found length => .line (opening ++ "Some(" ++ toString length ++ ")" ++ closing)
  | .slice start glyphs =>
    .line (opening ++ MatchExpression.sliceText start glyphs ++ closing)
  | .select place arms =>
    .block (opening ++ "match *glyphs.get(" ++ toString place ++ ")?") (Arms.outlines arms) closing

/-- The arms and the one behind them for every other glyph. -/
def Arms.outlines : Arms → List Outline
  | .nil => [.line "_ => None,"]
  | .cons labels body others =>
    body.outline (MatchExpression.labelList labels ++ " => ") "," :: others.outlines

end

end ShapingTables
