import ShapingTables.Attributes
import ShapingTables.Fault

/-! Seven roles are split by the positional category. Each has a table from positions to
the categories that select them, and exactly one row must match. Five roles take any
category and get no position; the others take only the categories of a sign without a
place of its own. -/
namespace ShapingTables

abbrev PositionTable := List (Position × List PositionalCategory)

inductive Refinement where
  | positioned (table : PositionTable)
  | unpositioned
  | stray
  deriving DecidableEq, Repr

namespace Refinement

def ofRole : Role → Refinement
  | .consonantFinal => .positioned [(.above, [.top]), (.below, [.bottom]), (.post, [.right])]
  | .consonantMedial => .positioned [
      (.above, [.top]), (.below, [.bottom, .bottomAndLeft]), (.post, [.right]), (.pre, [.left])]
  | .consonantModifier => .positioned [(.above, [.top]), (.below, [.bottom, .overstruck])]
  | .vowel => .positioned [
      (.above, [.top, .topAndBottom, .topAndBottomAndRight, .topAndRight]),
      (.below, [.bottom, .overstruck, .bottomAndRight]),
      (.post, [.right]),
      (.pre, [.left, .topAndLeft, .topAndLeftAndRight, .leftAndRight])]
  | .vowelModifier => .positioned [
      (.above, [.top]), (.below, [.bottom, .overstruck]), (.post, [.right]), (.pre, [.left])]
  | .symbolModifier => .positioned [(.above, [.top]), (.below, [.bottom])]
  | .consonantFinalModifier =>
    .positioned [(.above, [.top]), (.below, [.bottom]), (.post, [.notApplicable])]
  | .halant | .halantOrVowelModifier | .base | .repha | .consonantSubjoined => .unpositioned
  | _ => .stray

end Refinement

namespace PositionTable

def matching (table : PositionTable) (positional : PositionalCategory) : List Position :=
  (table.filter fun row => row.2.contains positional).map (·.1)

end PositionTable

namespace Position

/-- The position of a role, none for a role that is not split. U+0F7F may stand
right of its base whatever its role. -/
def resolve (role : Role) (attributes : Attributes) : Except Fault (Option Position) :=
  match Refinement.ofRole role with
  | .positioned table =>
    match table.matching attributes.positional with
    | [position] => .ok (some position)
    | matched =>
      .error (.ambiguousPosition attributes.codepoint role attributes.positional matched)
  | .unpositioned => .ok none
  | .stray =>
    if attributes.positional = .notApplicable ∨ attributes.positional = .visualOrderLeft ∨
        attributes.codepoint = 0x0F7F then .ok none
    else .error (.strayPosition attributes.codepoint role attributes.positional)

end Position

end ShapingTables
