import ShapingTables.Disk
import ShapingTables.Main
import ShapingTables.Proofs.BlockHandles
import ShapingTables.Proofs.BlockLookup
import ShapingTables.Proofs.CategoryShapes
import ShapingTables.Proofs.DiskWrites
import ShapingTables.Proofs.FaultOrder
import ShapingTables.Proofs.LeftOutBlocks
import ShapingTables.Proofs.Listing.CategoryReading
import ShapingTables.Proofs.Listing.LabelledRows
import ShapingTables.Proofs.Listing.MatcherDispatch
import ShapingTables.Proofs.Listing.PictographicText
import ShapingTables.Proofs.Listing.RenderedNode
import ShapingTables.Proofs.MaximalRuns
import ShapingTables.Proofs.NormalTries
import ShapingTables.Proofs.Occupancy
import ShapingTables.Proofs.Outputs
import ShapingTables.Proofs.PictographicRanges
import ShapingTables.Proofs.RefusedInsertions
import ShapingTables.Proofs.RewritingLoop
import ShapingTables.Proofs.RoleConflicts
import ShapingTables.Proofs.WrittenSequences
import ShapingTables.Proofs.WrittenValues
