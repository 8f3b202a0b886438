import ShapingTables.Classification
import ShapingTables.Record

/-! The category and the block of every codepoint that has a record. -/
namespace ShapingTables

structure ClassifiedSet where
  entries : CodepointMap (Category × Block)
  blocks : BlockTable

namespace ClassifiedSet

def empty (blocks : BlockTable) : ClassifiedSet := ⟨∅, blocks⟩

def insert (set : ClassifiedSet) (codepoint : Nat) (category : Category) (block : Block) :
    ClassifiedSet :=
  { set with entries := set.entries.insert codepoint (category, block) }

def categoryOf (set : ClassifiedSet) (codepoint : Nat) : Category :=
  match set.entries[codepoint]? with
  | some (category, _) => category
  | none => .other

/-- Classifies the records in ascending order and stops at the first fault. -/
def ofRecords (set : RecordSet) : Except Fault ClassifiedSet := do
  let entries ← set.records.toList.foldlM (fun entries (codepoint, record) =>
    (classify record.toAttributes).map fun category =>
      entries.insert codepoint (category, record.block)) (∅ : CodepointMap (Category × Block))
  return ⟨entries, set.blocks⟩

end ClassifiedSet

end ShapingTables
