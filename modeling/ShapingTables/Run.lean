import ShapingTables.ClassifiedSet

/-! The codepoints of a classified set whose category is not `other`, as maximal runs of
neighbours with one category and one block. -/
namespace ShapingTables

structure Run where
  range : CodepointRange
  category : Category
  block : Block
  deriving DecidableEq, Repr

namespace Run

/-- Puts a codepoint in front of runs that lie above it: the first run takes it
in if it starts right behind it and agrees with it. -/
def cons (codepoint : Nat) (category : Category) (block : Block) : List Run → List Run
  | [] => [⟨.single codepoint, category, block⟩]
  | run :: rest =>
    if codepoint + 1 = run.range.first ∧ category = run.category ∧ block = run.block then
      { run with range := ⟨codepoint, run.range.last⟩ } :: rest
    else ⟨.single codepoint, category, block⟩ :: run :: rest

/-- The runs of ascending entries. -/
def ofEntries (entries : List (Nat × Category × Block)) : List Run :=
  entries.foldr (fun (codepoint, category, block) runs =>
    if category.isOther then runs else cons codepoint category block runs) []

end Run

def ClassifiedSet.runs (set : ClassifiedSet) : List Run := Run.ofEntries set.entries.toList

end ShapingTables
