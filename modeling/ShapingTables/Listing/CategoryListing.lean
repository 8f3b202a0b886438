import ShapingTables.DispatchTable
import ShapingTables.Listing.Notice

/-! The generated file that holds a dispatch table: the array in rows of sixteen entries,
one constant for the offset of each region, and a function that finds the page of a
codepoint, tests the regions of that page in turn and indexes the array. -/
namespace ShapingTables

open Text (Outline)

/-- Consecutive entries of one region. -/
structure TableRow where
  range : CodepointRange
  categories : List Category
  deriving DecidableEq, Repr

structure CategoryListing where
  used : Nat
  total : Nat
  occupancy : BinaryFraction
  /-- Each row with the names of the blocks that begin in it or before it. -/
  rows : List (List String × TableRow)
  /-- The first codepoint and the offset of each region. -/
  offsets : List (Nat × Nat)
  pageBits : Nat
  pages : List (Nat × List CodepointRange)

namespace TableRow

def width : Nat := 16

/-- The rows of a region; the last one may be shorter. -/
def ofRegion (table : DispatchTable) (region : Region) : List TableRow :=
  (List.range ((region.range.size + width - 1) / width)).map fun index =>
    let first := region.range.first + width * index
    let range : CodepointRange := ⟨first, min (first + width - 1) region.range.last⟩
    ⟨range, range.toList.map fun codepoint =>
      (table.entries[codepoint - region.range.first + region.offset]?).getD .other⟩

/-- Hands each label to the first row that ends at its codepoint or behind it. -/
def withLabels (labels : List (Nat × String)) : List TableRow → List (List String × TableRow)
  | [] => []
  | row :: rest =>
    let isDue := fun (label : Nat × String) => decide (label.1 ≤ row.range.last)
    ((labels.takeWhile isDue).map (·.2), row) :: withLabels (labels.dropWhile isDue) rest

end TableRow

namespace CategoryListing

def ofTable (table : DispatchTable) : CategoryListing where
  used := table.used
  total := table.total
  occupancy := table.occupancy
  rows := TableRow.withLabels table.blockStarts
    (table.regions.toList.flatMap (TableRow.ofRegion table))
  offsets := table.regions.toList.map fun region => (region.range.first, region.offset)
  pageBits := table.pageBits
  pages := table.pages.toList.map fun (page, indices) =>
    (page, indices.filterMap fun index => (table.regions[index]?).map (·.range))

def entries (listing : CategoryListing) : List Category :=
  listing.rows.flatMap (·.2.categories)

/-- What the listed function answers: the page of the codepoint is looked up, its
first range that holds the codepoint gives the index, and the rest of the
codespace is `other`. There is no answer where the offset has no constant or the
index lies outside the array. -/
def categoryOf? (listing : CategoryListing) (codepoint : Nat) : Option Category :=
  match ((listing.pages.lookup (codepoint >>> listing.pageBits)).getD []).find?
      (·.contains codepoint) with
  | some range => (listing.offsets.lookup range.first).bind fun offset =>
      listing.entries[codepoint - range.first + offset]?
  | none => some .other

/-- A category's constant, right-aligned in six places. -/
def cell (category : Category) : String :=
  String.ofList (category.name.toList.leftpad 6 ' ') ++ ","

def rowLines (row : List String × TableRow) : List Outline :=
  row.1.flatMap (fun label => [.line "", .line ("  /* " ++ label ++ " */")]) ++
    [.line ("  /* " ++ Text.hex4 row.2.range.first ++ " */" ++
      String.join (row.2.categories.map cell))]

/-- The constant that holds the offset of the region that starts at a codepoint. -/
def offsetName (first : Nat) : String := "USE_OFFSET_0X" ++ Text.hex4 first

def regionLine (range : CodepointRange) : Outline :=
  .line ("if (0x" ++ Text.hex4 range.first ++ "..=0x" ++ Text.hex4 range.last ++
    ").contains(&u) \x7b return USE_TABLE[u as usize - 0x" ++ Text.hex4 range.first ++ " + " ++
    offsetName range.first ++ "]; \x7d")

def lookupFunction (listing : CategoryListing) : Outline :=
  .block "pub fn get_category(u: u32) -> Category" [
    .block ("match u >> " ++ toString listing.pageBits)
      (listing.pages.map (fun (page, ranges) =>
        .block ("0x" ++ Text.hex 1 page ++ " =>") (ranges.map regionLine) "") ++
        [.line "_ => \x7b\x7d"]) "",
    .line "",
    .line Category.other.name] ""

def outlines (listing : CategoryListing) : List Outline :=
  [generatedNotice,
    .line ("// " ++ toString listing.used ++ " of " ++ toString listing.total ++
      " entries used (" ++ (listing.occupancy.times 100).fixed 2 ++ "%)"),
    .line "",
    .line "use super::universal::\x7bCategory, category::*\x7d;",
    .line "",
    .line "#[rustfmt::skip]",
    .line "const USE_TABLE: &[Category] = &["] ++
  listing.rows.flatMap rowLines ++
  [.line "];", .line ""] ++
  listing.offsets.map (fun (first, offset) =>
    .line ("const " ++ offsetName first ++ ": usize = " ++ toString offset ++ ";")) ++
  [.line "", .line "#[rustfmt::skip]", listing.lookupFunction]

def text (listing : CategoryListing) : String := Outline.text listing.outlines

end CategoryListing

end ShapingTables
