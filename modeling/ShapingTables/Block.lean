import ShapingTables.DataFile
import ShapingTables.NameTable
import ShapingTables.RangeTable

/-! Named blocks of codepoints. A block is handled by a number of sixteen bits, its place
in the list of names, so that records stay small; names beyond the first 65536 share
handles with earlier ones. The block without a name has handle zero and holds every
codepoint outside the others. -/
namespace ShapingTables

structure Block where
  id : UInt16
  deriving DecidableEq, Repr

namespace Block

def unnamed : Block := ⟨0⟩

instance : Inhabited Block := ⟨unnamed⟩

/-- The name given to codepoints outside every block. -/
def unnamedName : String := "No_Block"

end Block

structure BlockTable where
  names : NameTable
  ranges : RangeTable Block

namespace BlockTable

def empty : BlockTable := ⟨NameTable.empty.push Block.unnamedName (by simp), []⟩

instance : Inhabited BlockTable := ⟨empty⟩

def find? (table : BlockTable) (name : String) : Option Block :=
  (table.names.place? name).map fun place => ⟨UInt16.ofNat place⟩

/-- The handle of a name, which is added if it is new. -/
def intern (table : BlockTable) (name : String) : Block × BlockTable :=
  match known : table.names.place? name with
  | some place => (⟨UInt16.ofNat place⟩, table)
  | none =>
    (⟨UInt16.ofNat table.names.size⟩, { table with names := table.names.push name known })

def insert (table : BlockTable) (range : CodepointRange) (name : String) : Block × BlockTable :=
  let (block, named) := table.intern name
  (block, { named with ranges := named.ranges.insert range block })

def blockOf (table : BlockTable) (codepoint : Nat) : Block :=
  (table.ranges.find? codepoint).getD .unnamed

def name (table : BlockTable) (block : Block) : String :=
  (table.names.name? block.id.toNat).getD Block.unnamedName

/-- The table of a text in the format of `Blocks.txt`: a range and a name a row. -/
def ofText (text : String) : Except (Nat × LineFault) BlockTable :=
  (DataFile.rows .plain text).map fun rows =>
    rows.foldl (fun table row => (table.insert row.range ((row.field? 1).getD "")).2) empty

end BlockTable

end ShapingTables
