import ShapingTables.DataFile
import ShapingTables.RangeTable

/-! The codepoints that keep emoji sequences in one cluster, as ascending ranges that
neither overlap nor touch. -/
namespace ShapingTables

structure PictographicSet where
  ranges : List CodepointRange
  deriving DecidableEq, Repr

namespace PictographicSet

/-- The set of every codepoint in some range of the list. -/
def ofRanges (ranges : List CodepointRange) : PictographicSet :=
  ⟨CodepointRange.joinWithin 1 (ranges.mergeSort fun a b =>
    a.first < b.first || (a.first == b.first && a.last ≤ b.last))⟩

/-- Only the last range that starts at or before the codepoint is consulted. -/
def contains (set : PictographicSet) (codepoint : Nat) : Bool :=
  match (set.ranges.takeWhile fun range => range.first ≤ codepoint).getLast? with
  | some range => range.contains codepoint
  | none => false

/-- The property whose rows are kept. -/
def propertyName : String := "Extended_Pictographic"

/-- The set of a text in the format of `emoji-data.txt`. Rows of other properties
are read, and refused if malformed, but add nothing. -/
def ofText (text : String) : Except (Nat × LineFault) PictographicSet :=
  (DataFile.rows .plain text).map fun rows =>
    ofRanges ((rows.filter fun row => row.field? 1 == some propertyName).map (·.range))

end PictographicSet

end ShapingTables
