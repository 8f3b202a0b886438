import ShapingTables.Codepoint

/-! Values attached to ranges, in descending order of the ranges' first codepoints. A
lookup consults a single range, the first one in the table that does not start behind the
codepoint: where ranges overlap, a longer one that began earlier is not seen. -/
namespace ShapingTables

abbrev RangeTable (α : Type) := List (CodepointRange × α)

namespace RangeTable

/-- Behind the ranges that start at the same codepoint or later, so that of ranges
with the same first codepoint the one inserted first is consulted. -/
def insert (table : RangeTable α) (range : CodepointRange) (value : α) : RangeTable α :=
  table.takeWhile (fun entry => range.first ≤ entry.1.first) ++
    (range, value) :: table.dropWhile (fun entry => range.first ≤ entry.1.first)

/-- Of ranges with the same first codepoint the last one in the list is consulted. -/
def ofList (entries : List (CodepointRange × α)) : RangeTable α :=
  entries.reverse.mergeSort fun a b => b.1.first ≤ a.1.first

def find? (table : RangeTable α) (codepoint : Nat) : Option α :=
  match List.find? (fun entry => entry.1.first ≤ codepoint) table with
  | some (range, value) => if range.contains codepoint then some value else none
  | none => none

end RangeTable

end ShapingTables
