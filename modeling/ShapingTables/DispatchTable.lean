import ShapingTables.Region

/-! A classified set in compact form: the categories of all codepoints of all regions in
one array. A codepoint is looked up by its page, which lists the regions that touch it.
The layout decides how much the array holds, never what a lookup answers. A table with
fewer than half of its entries in use is refused. -/
namespace ShapingTables

structure DispatchTable where
  regions : Array Region
  entries : Array Category
  /-- For each page the indices of the regions that touch it, ascending. -/
  pages : Std.TreeMap Nat (List Nat)
  pageBits : Nat
  /-- The entries that are not `other`. -/
  used : Nat
  /-- The codepoints at which the runs of another named block begin. -/
  blockStarts : List (Nat × String)

namespace DispatchTable

/-- Puts a region with a lower index than all others on a page in front of them. -/
def addToPage (index : Nat) (pages : Std.TreeMap Nat (List Nat)) (page : Nat) :
    Std.TreeMap Nat (List Nat) :=
  pages.insert page (index :: pages.getD page [])

def pagesFrom (pageBits index : Nat) : List Region → Std.TreeMap Nat (List Nat)
  | [] => ∅
  | region :: rest =>
    (region.pages pageBits).foldl (addToPage index) (pagesFrom pageBits (index + 1) rest)

/-- Where named blocks begin, given the block of the last named run. Runs
outside every block are passed over. -/
def blockStartsAfter (nameOf : Block → String) (previous : Block) :
    List Run → List (Nat × String)
  | [] => []
  | run :: rest =>
    if run.block ≠ .unnamed ∧ run.block ≠ previous then
      (run.range.first, nameOf run.block) :: blockStartsAfter nameOf run.block rest
    else blockStartsAfter nameOf previous rest

/-- The table of a set under a valid layout, however sparse. -/
def pack (set : ClassifiedSet) (layout : Layout) : DispatchTable :=
  let runs := set.runs
  let spans := layout.spans runs
  let regions := Region.place 0 spans
  let entries := spans.flatMap fun span => span.toList.map set.categoryOf
  { regions := regions.toArray
    entries := entries.toArray
    pages := pagesFrom layout.pageBits 0 regions
    pageBits := layout.pageBits
    used := entries.countP (!·.isOther)
    blockStarts := blockStartsAfter set.blocks.name .unnamed runs }

def total (table : DispatchTable) : Nat := table.entries.size

/-- The table of a set. The layout is checked first, then the share of entries in use. -/
def ofSet (set : ClassifiedSet) (layout : Layout) : Except Fault DispatchTable :=
  match layout.fault? with
  | some fault => .error (.invalidConfig (.layout fault))
  | none =>
    let table := pack set layout
    if 2 * table.used < table.total then .error (.sparseTable table.used table.total)
    else .ok table

/-- The region of a page that holds the codepoint. -/
def regionOf? (table : DispatchTable) (codepoint : Nat) : Option Region :=
  (table.pages.getD (codepoint >>> table.pageBits) []).findSome? fun index =>
    (table.regions[index]?).filter fun region => region.range.contains codepoint

/-- The category of a codepoint, `other` outside every region. -/
def categoryOf (table : DispatchTable) (codepoint : Nat) : Category :=
  if maxCodepoint < codepoint then .other
  else match table.regionOf? codepoint with
    | some region => (table.entries[codepoint - region.range.first + region.offset]?).getD .other
    | none => .other

/-- The share of entries in use, all of them where there is none. -/
def occupancy (table : DispatchTable) : BinaryFraction :=
  if table.total = 0 then .nearest 1 1 else .nearest table.used table.total

end DispatchTable

end ShapingTables
