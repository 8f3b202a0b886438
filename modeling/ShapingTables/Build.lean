import ShapingTables.Config
import ShapingTables.DispatchTable
import ShapingTables.Pictographic
import ShapingTables.Prohibition.Matchers

/-! The three artifacts, each from the data files that it needs. A build stops at its
first fault. -/
namespace ShapingTables

def DispatchTable.ofSource (source : Source) (config : Config) : Except Fault DispatchTable := do
  let records ← RecordSet.ofSource source config.blacklistedBlocks
  let classified ← ClassifiedSet.ofRecords records
  DispatchTable.ofSet classified config.layout

def ScriptMatchers.ofSource (source : Source) : Except Fault ScriptMatchers := do
  let scripts ← source.read .scripts ScriptTable.ofText
  let sequences ← source.read .invalidClusters ProhibitedSequence.ofText
  ScriptMatchers.ofSequences scripts sequences

def PictographicSet.ofSource (source : Source) : Except Fault PictographicSet :=
  source.read .emojiData PictographicSet.ofText

end ShapingTables
