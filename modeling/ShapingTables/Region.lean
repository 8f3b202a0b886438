import ShapingTables.Run

/-! The parts of the codespace that a table stores. The runs are rounded out to multiples
of the alignment, runs close to each other are joined, and the regions stand one after the
other in a single array. -/
namespace ShapingTables

structure Region where
  range : CodepointRange
  /-- The place of the first codepoint in the array. -/
  offset : Nat
  deriving DecidableEq, Repr

namespace Layout

/-- The multiples of the alignment around a range, within the codespace. -/
def roundOut (layout : Layout) (range : CodepointRange) : CodepointRange where
  first := range.first / layout.alignment * layout.alignment
  last := min (wordSum (range.last / layout.alignment * layout.alignment) (layout.alignment - 1))
    maxCodepoint

/-- The ranges that the table stores. -/
def spans (layout : Layout) (runs : List Run) : List CodepointRange :=
  CodepointRange.joinWithin layout.maxGap (runs.map fun run => layout.roundOut run.range)

end Layout

namespace Region

/-- Regions one after the other, the first at `offset`. -/
def place (offset : Nat) : List CodepointRange → List Region
  | [] => []
  | span :: rest => ⟨span, offset⟩ :: place (offset + span.size) rest

/-- The pages that a region touches, read off its two ends. -/
def pages (region : Region) (pageBits : Nat) : List Nat :=
  (CodepointRange.mk (region.range.first >>> pageBits) (region.range.last >>> pageBits)).toList

end Region

end ShapingTables
