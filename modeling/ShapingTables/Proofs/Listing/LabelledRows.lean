import ShapingTables.Proofs.BlockStarts
import ShapingTables.Proofs.Listing.CategoryText
import ShapingTables.Proofs.PackedTable

/-! The rows of the generated category table. Each region is printed in rows of at most
sixteen codepoints, and each block that begins in a row is named directly before it. -/
namespace ShapingTables

open Text (Outline)

/-- A row with the codepoints at which blocks begin in it and the names of these blocks. -/
structure LabelledRow where
  starts : List (Nat × String)
  row : TableRow

namespace LabelledRow

/-- The listing keeps the names only. -/
def listed (labelled : LabelledRow) : List String × TableRow :=
  (labelled.starts.map (·.2), labelled.row)

/-- Each block that begins in the row is named in a line of its own behind an empty one. -/
def text (labelled : LabelledRow) : String :=
  String.join (labelled.starts.map fun start => "\n  /* " ++ start.2 ++ " */\n") ++
    ("  /* " ++ Text.hex4 labelled.row.range.first ++ " */" ++
      String.join (labelled.row.categories.map CategoryListing.cell) ++ "\n")

theorem text_rowLines (labelled : LabelledRow) :
    Outline.text (CategoryListing.rowLines labelled.listed) = labelled.text := by
  have label (name : String) : Outline.text [.line "", .line ("  /* " ++ name ++ " */")] =
      "\n  /* " ++ name ++ " */\n" := by
    have parts := Generated.text_append [.line ""] [.line ("  /* " ++ name ++ " */")]
    simp only [List.singleton_append, Generated.text_line] at parts
    simp [parts, ← String.toList_inj]
  simp only [CategoryListing.rowLines, listed, text, Generated.text_append, Generated.text_line,
    Generated.text_flatMap, List.map_map, Function.comp_def, label]

end LabelledRow

namespace TableRow

variable {table : DispatchTable} {region : Region} {row : TableRow}

/-- A row of a region holds at most sixteen of its codepoints. -/
theorem bounds_of_mem (member : row ∈ ofRegion table region) :
    region.range.first ≤ row.range.first ∧ row.range.first ≤ row.range.last ∧
      row.range.last ≤ region.range.last ∧ row.range.size ≤ 16 := by
  obtain ⟨index, begun, rfl⟩ := List.mem_map.mp member
  have bound := List.mem_range.mp begun
  simp only [CodepointRange.size, width] at bound ⊢
  omega

theorem categories_of_mem (member : row ∈ ofRegion table region) :
    row.categories = row.range.toList.map fun codepoint =>
      (table.entries[codepoint - region.range.first + region.offset]?).getD .other := by
  obtain ⟨index, _, rfl⟩ := List.mem_map.mp member
  rfl

theorem ofRegion_apart (table : DispatchTable) (region : Region) :
    (ofRegion table region).Pairwise fun left right => left.range.last < right.range.first := by
  refine List.pairwise_map.mpr (List.pairwise_lt_range.imp fun order => ?_)
  simp only [width]
  omega

/-- The rows of regions that are apart ascend. -/
theorem rows_ascending (table : DispatchTable) {regions : List Region}
    (apart : regions.Pairwise fun left right => left.range.last < right.range.first) :
    CodepointRange.Ascending ((regions.flatMap (ofRegion table)).map (·.range)) where
  nonempty := by
    simp only [List.forall_mem_map, List.mem_flatMap]
    rintro row ⟨region, _, member⟩
    exact (bounds_of_mem member).2.1
  apart := by
    refine List.pairwise_map.mpr (List.pairwise_flatMap.mpr ⟨fun region _ =>
      ofRegion_apart table region, apart.imp fun before row held next later => ?_⟩)
    have stop := (bounds_of_mem held).2.2.1
    have start := (bounds_of_mem later).1
    omega

/-- The first labels that are due are all that are due. -/
theorem behind_of_mem_dropWhile {labels : List (Nat × String)} {last : Nat}
    (sorted : (labels.map (·.1)).Pairwise (· < ·)) :
    ∀ label ∈ labels.dropWhile (fun label => decide (label.1 ≤ last)), last < label.1 := by
  induction labels with
  | nil => simp
  | cons label rest ih =>
    obtain ⟨before, later⟩ := List.pairwise_cons.mp sorted
    by_cases due : label.1 ≤ last
    · simpa [List.dropWhile_cons, due] using ih later
    · simp only [List.dropWhile_cons, due, decide_false, Bool.false_eq_true, if_false,
        List.forall_mem_cons]
      refine ⟨by omega, fun next member => ?_⟩
      have order : label.1 < next.1 := before next.1 (List.mem_map_of_mem member)
      omega

/-- Labels that all lie in rows are handed out in order, each to the row it lies in. -/
theorem exists_labelled {rows : List TableRow} {labels : List (Nat × String)}
    (ascending : CodepointRange.Ascending (rows.map (·.range)))
    (sorted : (labels.map (·.1)).Pairwise (· < ·))
    (held : ∀ label ∈ labels, ∃ row ∈ rows, row.range.contains label.1 = true) :
    ∃ labelled : List LabelledRow, withLabels labels rows = labelled.map (·.listed) ∧
      labelled.map (·.row) = rows ∧ labelled.flatMap (·.starts) = labels ∧
      ∀ one ∈ labelled, ∀ start ∈ one.starts, one.row.range.contains start.1 = true := by
  induction rows generalizing labels with
  | nil =>
    have none : labels = [] := by
      rw [List.eq_nil_iff_forall_not_mem]
      intro label member
      simpa using held label member
    subst none
    exact ⟨[], rfl, rfl, rfl, by simp⟩
  | cons row rest ih =>
    obtain ⟨_, before, later⟩ := CodepointRange.ascending_cons.mp ascending
    have behind : ∀ label ∈ labels.dropWhile fun label => decide (label.1 ≤ row.range.last),
        row.range.last < label.1 := behind_of_mem_dropWhile sorted
    -- What is not due lies in the rest, since it lies behind this row.
    obtain ⟨labelled, listed, rows, starts, within⟩ := ih later
      (sorted.sublist ((List.dropWhile_sublist _).map _)) fun label member => by
        obtain ⟨holder, among, inside⟩ := held label (List.dropWhile_subset _ member)
        have stop := (CodepointRange.contains_iff.mp inside).2
        have beyond := behind label member
        rcases List.mem_cons.mp among with rfl | among
        · omega
        · exact ⟨holder, among, inside⟩
    refine ⟨⟨labels.takeWhile fun label => decide (label.1 ≤ row.range.last), row⟩ :: labelled,
      ?_, ?_, ?_, List.forall_mem_cons.mpr ⟨fun label member => ?_, within⟩⟩
    · rw [withLabels, listed]
      rfl
    · rw [List.map_cons, rows]
    · rw [List.flatMap_cons, starts, List.takeWhile_append_dropWhile]
    · -- What is due does not lie in a row further on.
      obtain ⟨holder, among, inside⟩ := held label (List.takeWhile_subset _ member)
      have due : label.1 ≤ row.range.last := by
        simpa using List.all_eq_true.mp List.all_takeWhile label member
      have start := (CodepointRange.contains_iff.mp inside).1
      rcases List.mem_cons.mp among with rfl | among
      · exact inside
      · have above : row.range.last < holder.range.first :=
          before holder.range (List.mem_map_of_mem among)
        omega

end TableRow

/-- The rows of a table, region by region, with every block that begins. -/
structure PrintsRows (table : DispatchTable) (groups : List (Region × List LabelledRow)) :
    Prop where
  regions : groups.map (·.1) = table.regions.toList
  codepoints : ∀ group ∈ groups,
    group.2.flatMap (fun labelled => labelled.row.range.toList) = group.1.range.toList
  width : ∀ group ∈ groups, ∀ labelled ∈ group.2,
    labelled.row.range.first ≤ labelled.row.range.last ∧ labelled.row.range.size ≤ 16
  categories : ∀ group ∈ groups, ∀ labelled ∈ group.2,
    labelled.row.categories = labelled.row.range.toList.map table.categoryOf
  starts : (groups.flatMap (·.2)).flatMap (·.starts) = table.blockStarts
  within : ∀ group ∈ groups, ∀ labelled ∈ group.2, ∀ start ∈ labelled.starts,
    labelled.row.range.contains start.1 = true

/-- Rows in the order of the regions fall into groups, one for each region. -/
theorem LabelledRow.exists_groups (table : DispatchTable) {regions : List Region}
    {labelled : List LabelledRow}
    (same : labelled.map (·.row) = regions.flatMap (TableRow.ofRegion table)) :
    ∃ groups : List (Region × List LabelledRow), groups.map (·.1) = regions ∧
      groups.flatMap (·.2) = labelled ∧
      ∀ group ∈ groups, group.2.map (·.row) = TableRow.ofRegion table group.1 := by
  induction regions generalizing labelled with
  | nil => exact ⟨[], rfl, by simpa using same.symm, by simp⟩
  | cons region rest ih =>
    obtain ⟨front, back, rfl, first, later⟩ := List.map_eq_append_iff.mp same
    obtain ⟨groups, regions, rows, own⟩ := ih later
    exact ⟨(region, front) :: groups, by rw [List.map_cons, regions],
      by rw [List.flatMap_cons, rows], List.forall_mem_cons.mpr ⟨first, own⟩⟩

namespace CategoryListing

open DispatchTable

/-- The lines above the rows. -/
def opening (listing : CategoryListing) : List Outline := [
  generatedNotice, listing.occupancyLine, .line "",
  .line "use super::universal::\x7bCategory, category::*\x7d;", .line "",
  .line "#[rustfmt::skip]", .line "const USE_TABLE: &[Category] = &["]

/-- The lines below the rows. -/
def closing (listing : CategoryListing) : List Outline :=
  [.line "];", .line ""] ++ (listing.offsets.map offsetLine ++
    [.line "", .line "#[rustfmt::skip]", listing.lookupFunction])

theorem text_eq {listing : CategoryListing} {labelled : List LabelledRow}
    (rows : listing.rows = labelled.map (·.listed)) :
    listing.text = Outline.text listing.opening ++ String.join (labelled.map (·.text)) ++
      Outline.text listing.closing := by
  have outlines : listing.outlines =
      listing.opening ++ listing.rows.flatMap rowLines ++ listing.closing := by
    rw [outlines_eq, ← List.append_assoc]
    rfl
  rw [text, outlines, Generated.text_append, Generated.text_append, rows, List.flatMap_map,
    Generated.text_flatMap]
  simp only [LabelledRow.text_rowLines]

variable {set : ClassifiedSet} {layout : Layout}

/-- Every codepoint at which a block begins is printed in some row. -/
theorem exists_row (inside : set.InCodespace) (valid : layout.fault? = none)
    {start : Nat × String} (listed : start ∈ (pack set layout).blockStarts) :
    ∃ row ∈ (pack set layout).regions.toList.flatMap (TableRow.ofRegion (pack set layout)),
      row.range.contains start.1 = true := by
  obtain ⟨block, ⟨category, entry, kept, _⟩, _⟩ := (mem_blockStarts start.1 start.2).mp listed
  have shaped := (set.categoryOf_ne_other_iff start.1).mpr ⟨category, block, entry, kept⟩
  obtain ⟨region, member, held⟩ := exists_region (ClassifiedSet.covers_spans inside valid shaped)
  have printed := CodepointRange.mem_toList.mpr held
  rw [← TableRow.codepoints_ofRegion (pack set layout) region] at printed
  obtain ⟨row, own, inRow⟩ := List.mem_flatMap.mp printed
  exact ⟨row, List.mem_flatMap.mpr ⟨region, member, own⟩, CodepointRange.mem_toList.mp inRow⟩

/-- A row prints what the table answers for its codepoints. -/
theorem categories_row (inside : set.InCodespace) (valid : layout.fault? = none) {region : Region}
    (member : region ∈ regionsOf set layout) {row : TableRow}
    (own : row ∈ TableRow.ofRegion (pack set layout) region) :
    row.categories = row.range.toList.map (pack set layout).categoryOf := by
  have bounds := TableRow.bounds_of_mem own
  rw [TableRow.categories_of_mem own]
  refine List.map_congr_left fun u held => ?_
  have order := CodepointRange.contains_iff.mp (CodepointRange.mem_toList.mp held)
  have last := (region_bounds inside valid member).2
  have inRegion : region.range.contains u = true :=
    CodepointRange.contains_iff.mpr ⟨by omega, by omega⟩
  have entry := getElem?_entriesOf member inRegion
  rw [← pack_entries, Array.getElem?_toList] at entry
  rw [entry, categoryOf_pack inside valid (by omega), Option.getD_some]

theorem printsRows_pack (inside : set.InCodespace) (valid : layout.fault? = none) :
    ∃ groups, PrintsRows (pack set layout) groups ∧
      (ofTable (pack set layout)).rows = (groups.flatMap (·.2)).map (·.listed) := by
  have apart := regionsOf_apart inside valid
  obtain ⟨labelled, listed, rows, starts, within⟩ := TableRow.exists_labelled
    (TableRow.rows_ascending (pack set layout) apart) (blockStarts_ascend set layout)
    fun start member => exists_row inside valid member
  obtain ⟨groups, regions, parts, own⟩ := LabelledRow.exists_groups _ rows
  have region_mem {group : Region × List LabelledRow} (member : group ∈ groups) :
      group.1 ∈ regionsOf set layout := regions ▸ List.mem_map_of_mem member
  have row_mem {group : Region × List LabelledRow} (member : group ∈ groups)
      {one : LabelledRow} (among : one ∈ group.2) :
      one.row ∈ TableRow.ofRegion (pack set layout) group.1 :=
    own group member ▸ List.mem_map_of_mem among
  refine ⟨groups, ⟨regions, fun group member => ?_, fun group member one among => ?_,
    fun group member one among => ?_, by rw [parts, starts], fun group member one among => ?_⟩, ?_⟩
  · rw [← TableRow.codepoints_ofRegion (pack set layout) group.1, ← own group member,
      List.flatMap_map]
  · have bounds := TableRow.bounds_of_mem (row_mem member among)
    exact ⟨bounds.2.1, bounds.2.2.2⟩
  · exact categories_row inside valid (region_mem member) (row_mem member among)
  · exact within one (parts ▸ List.mem_flatMap.mpr ⟨group, member, among⟩)
  · rw [parts]
    exact listed

/-- The blocks of a table begin at the codepoints of named blocks whose block is not that of
the last such codepoint below. Its text has the codepoints of each region in rows of at most
sixteen, and directly before a row the names of the blocks that begin in it. -/
theorem text_labelled (set : ClassifiedSet) (layout : Layout) (table : DispatchTable)
    (inside : ∀ codepoint ∈ set.entries, codepoint ≤ maxCodepoint)
    (built : ofSet set layout = .ok table) :
    (table.blockStarts.map (·.1)).Pairwise (· < ·) ∧
    (∀ u name, (u, name) ∈ table.blockStarts ↔ ∃ block, set.Named u block ∧
      name = set.blocks.name block ∧
      ∀ v previous, LastBelow set.Named v u previous → block ≠ previous) ∧
    ∃ groups, PrintsRows table groups ∧
      (ofTable table).text = Outline.text (ofTable table).opening ++
        String.join ((groups.flatMap (·.2)).map (·.text)) ++
        Outline.text (ofTable table).closing := by
  obtain ⟨valid, rfl⟩ := ofSet_eq_ok built
  obtain ⟨groups, prints, rows⟩ := printsRows_pack inside valid
  exact ⟨blockStarts_ascend set layout, mem_blockStarts, groups, prints, text_eq rows⟩

/-- Two blocks that begin in one row, the first of them twice, the second again in the next region.
A codepoint outside every block lies between two of the first. -/
def interlockedBlocks : ClassifiedSet :=
  let first := BlockTable.empty.insert ⟨0x10, 0x14⟩ "First"
  let second := first.2.insert ⟨0x13, 0x31⟩ "Second"
  ((((((ClassifiedSet.empty second.2).insert 0x10 ⟨.base, none⟩ first.1).insert
    0x11 ⟨.base, none⟩ .unnamed).insert 0x12 ⟨.halant, none⟩ first.1).insert
      0x13 ⟨.base, none⟩ second.1).insert 0x14 ⟨.base, none⟩ first.1).insert
        0x31 ⟨.vowel, some .post⟩ second.1

theorem text_labelled_interlockedBlocks :
    (∀ codepoint ∈ interlockedBlocks.entries, codepoint ≤ maxCodepoint) ∧
      ofSet interlockedBlocks ⟨2, 1, 4⟩ = .ok (pack interlockedBlocks ⟨2, 1, 4⟩) ∧
      (pack interlockedBlocks ⟨2, 1, 4⟩).blockStarts =
        [(0x10, "First"), (0x13, "Second"), (0x14, "First"), (0x31, "Second")] ∧
      ∃ groups, PrintsRows (pack interlockedBlocks ⟨2, 1, 4⟩) groups ∧
        groups.map (·.1) = [⟨⟨0x10, 0x15⟩, 0⟩, ⟨⟨0x30, 0x31⟩, 6⟩] ∧
        (ofTable (pack interlockedBlocks ⟨2, 1, 4⟩)).text =
          Outline.text (ofTable (pack interlockedBlocks ⟨2, 1, 4⟩)).opening ++
          String.join ((groups.flatMap (·.2)).map (·.text)) ++
          Outline.text (ofTable (pack interlockedBlocks ⟨2, 1, 4⟩)).closing := by
  have inside : ∀ codepoint ∈ interlockedBlocks.entries, codepoint ≤ maxCodepoint := by
    intro codepoint member
    simp only [interlockedBlocks, ClassifiedSet.insert, ClassifiedSet.empty,
      Std.TreeMap.mem_insert, Nat.compare_eq_eq, Std.TreeMap.not_mem_emptyc, or_false] at member
    simp only [maxCodepoint]
    omega
  have built : ofSet interlockedBlocks ⟨2, 1, 4⟩ = .ok (pack interlockedBlocks ⟨2, 1, 4⟩) := rfl
  obtain ⟨_, _, groups, prints, printed⟩ := text_labelled _ _ _ inside built
  exact ⟨inside, built, rfl, groups, prints, prints.regions.trans rfl, printed⟩

end CategoryListing

end ShapingTables
