import ShapingTables.CodepointMap
import ShapingTables.Readings

/-! The merged attributes of every codepoint that the syllabic and positional files, their
overlays or the overrides mention. The other files refine these codepoints and add none. A
codepoint in a blacklisted block gets no record. -/
namespace ShapingTables

structure Record extends Attributes where
  block : Block
  deriving DecidableEq, Repr

structure RecordSet where
  records : CodepointMap Record
  blocks : BlockTable

namespace Readings

/-- Every codepoint that gets a record if its block allows. -/
def introduced (readings : Readings) : CodepointMap Unit :=
  CodepointMap.ofEntries
    (readings.syllabic.map (fun entry => (entry.1, ())) ++
      readings.positional.map (fun entry => (entry.1, ())))

/-- The records of all introduced codepoints outside the blacklisted blocks. -/
def records (readings : Readings) (blacklist : List Block) : CodepointMap Record :=
  let syllabic := CodepointMap.ofEntries readings.syllabic
  let positional := CodepointMap.ofEntries readings.positional
  let general := CodepointMap.ofEntries readings.general
  let joining := CodepointMap.ofEntries readings.joining
  readings.introduced.filterMap fun codepoint _ =>
    let block := readings.blocks.blockOf codepoint
    if blacklist.contains block then none
    else some {
      codepoint
      syllabic := syllabic.getD codepoint default
      positional := positional.getD codepoint default
      general := general.getD codepoint default
      joining := joining.getD codepoint default
      block }

/-- The handles of blacklisted names, or the first name that the block table does not know. -/
def blacklisted (readings : Readings) (names : List String) : Except Fault (List Block) :=
  names.mapM fun name =>
    match readings.blocks.find? name with
    | some block => .ok block
    | none => .error (.invalidConfig (.unlistedBlock name))

end Readings

/-- The records of a source, without those in the blocks named in `blacklist`. -/
def RecordSet.ofSource (source : Source) (blacklist : List String) : Except Fault RecordSet := do
  let readings ← Readings.ofSource source
  let blocks ← readings.blacklisted blacklist
  return ⟨readings.records blocks, readings.blocks⟩

end ShapingTables
