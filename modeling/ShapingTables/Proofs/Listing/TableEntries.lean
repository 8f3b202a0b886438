import Mathlib.Data.List.Basic
import ShapingTables.Listing.CategoryListing
import ShapingTables.Proofs.Entries
import ShapingTables.Proofs.Lookup

/-! The listing of a packed table against the table. The rows repeat the array
entry by entry, each region's constant holds its offset, and the listed pages hold
the ranges of their regions, so the listed lookup answers like the table. -/
namespace ShapingTables

namespace TableRow

theorem size_row (range : CodepointRange) (index : Nat) :
    (CodepointRange.mk (range.first + width * index)
      (min (range.first + width * index + width - 1) range.last)).size =
      min width (range.size - width * index) := by
  simp only [CodepointRange.size, width]
  omega

/-- Sixteen codepoints after the other, as many rows as are begun. -/
theorem flatMap_rows (first size rows : Nat) :
    ((List.range rows).flatMap fun index =>
      List.range' (first + width * index) (min width (size - width * index))) =
      List.range' first (min (width * rows) size) := by
  induction rows with
  | zero => simp
  | succ rows ih =>
    rw [List.range_succ, List.flatMap_append, ih, List.flatMap_cons, List.flatMap_nil,
      List.append_nil]
    by_cases full : width * rows ≤ size
    · rw [Nat.min_eq_left full, List.range'_append_1]
      congr 1
      simp only [width] at *
      omega
    · rw [Nat.min_eq_right (by omega), show size - width * rows = 0 by omega]
      simp only [Nat.min_zero, List.range'_zero, List.append_nil]
      congr 1
      simp only [width] at *
      omega

theorem codepoints_ofRegion (table : DispatchTable) (region : Region) :
    ((ofRegion table region).flatMap fun row => row.range.toList) = region.range.toList := by
  have enough : min (width * ((region.range.size + width - 1) / width)) region.range.size =
      region.range.size := by
    simp only [width]; omega
  rw [ofRegion, List.flatMap_map]
  simp only [CodepointRange.toList, size_row]
  rw [flatMap_rows, enough]

theorem categories_ofRegion (table : DispatchTable) (region : Region) :
    (ofRegion table region).flatMap (·.categories) = region.range.toList.map fun codepoint =>
      (table.entries[codepoint - region.range.first + region.offset]?).getD .other := by
  rw [← codepoints_ofRegion table region, List.map_flatMap]
  refine List.flatMap_congr fun row member => ?_
  obtain ⟨index, _, rfl⟩ := List.mem_map.mp member
  rfl

/-- Labels are handed to rows; the rows stay what they are. -/
theorem map_withLabels (labels : List (Nat × String)) (rows : List TableRow) :
    (withLabels labels rows).map (·.2) = rows := by
  induction rows generalizing labels with
  | nil => rfl
  | cons row rest ih => simp [withLabels, ih]

end TableRow

namespace CategoryListing

open DispatchTable

variable {set : ClassifiedSet} {layout : Layout}

/-- The listing repeats the array. -/
theorem entries_ofTable : (ofTable (pack set layout)).entries = entriesOf set layout := by
  have rows : (ofTable (pack set layout)).entries =
      ((ofTable (pack set layout)).rows.map (·.2)).flatMap (·.categories) := by
    rw [List.flatMap_map]
    rfl
  rw [rows, ofTable, TableRow.map_withLabels, List.flatMap_assoc]
  have region : ∀ region ∈ regionsOf set layout,
      (TableRow.ofRegion (pack set layout) region).flatMap (·.categories) =
        region.range.toList.map set.categoryOf := by
    intro region member
    rw [TableRow.categories_ofRegion]
    refine List.map_congr_left fun codepoint held => ?_
    have entry := getElem?_entriesOf member (CodepointRange.mem_toList.mp held)
    rw [← pack_entries, Array.getElem?_toList] at entry
    rw [entry, Option.getD_some]
  rw [pack_regions, List.flatMap_congr region, entriesOf,
    ← Region.map_range_place 0 (set.spans layout), List.flatMap_map]
  rfl

theorem firsts_nodup (inside : set.InCodespace) (valid : layout.fault? = none) :
    ((regionsOf set layout).map (·.range.first)).Nodup := by
  have firsts := (ClassifiedSet.spans_ascending inside valid).firsts_nodup
  rw [← Region.map_range_place 0 (set.spans layout), List.map_map] at firsts
  exact firsts

/-- Each region's start leads to its offset. -/
theorem lookup_offsets (inside : set.InCodespace) (valid : layout.fault? = none)
    {region : Region} (member : region ∈ regionsOf set layout) :
    (ofTable (pack set layout)).offsets.lookup region.range.first = some region.offset := by
  apply (lookup_eq_some_iff _ _ _).mpr
  · exact List.mem_map_of_mem member
  · have distinct := firsts_nodup inside valid
    simpa [ofTable, pack_regions, List.map_map, Function.comp_def] using distinct

theorem lookup_toList (pages : Std.TreeMap Nat α) (page : Nat) :
    pages.toList.lookup page = pages[page]? := by
  have distinct : (pages.toList.map (·.1)).Nodup := by
    apply List.pairwise_map.mpr
    apply pages.distinct_keys_toList.imp
    intro one other apart same
    simp [same] at apart
  apply Option.ext
  intro value
  rw [lookup_eq_some_iff distinct, Std.TreeMap.mem_toList_iff_getElem?_eq_some]

/-- The first range on a codepoint's listed page is that of its region. -/
theorem find?_pages (table : DispatchTable) (codepoint : Nat) :
    (((ofTable table).pages.lookup (codepoint >>> table.pageBits)).getD []).find?
        (·.contains codepoint) = (table.regionOf? codepoint).map (·.range) := by
  have listed : (ofTable table).pages.lookup (codepoint >>> table.pageBits) =
      (table.pages[codepoint >>> table.pageBits]?).map fun indices =>
        indices.filterMap fun index => (table.regions[index]?).map (·.range) := by
    rw [← lookup_toList, ← lookup_map_snd]
    rfl
  have ranges : ∀ indices : Option (List Nat),
      ((indices.map fun indices =>
        indices.filterMap fun index => (table.regions[index]?).map (·.range)).getD []) =
      (indices.getD []).filterMap fun index => (table.regions[index]?).map (·.range) := by
    rintro (_ | indices) <;> rfl
  rw [listed, ranges, find?_filterMap_eq, regionOf?, List.map_findSome?,
    ← Std.TreeMap.getD_eq_getD_getElem?]
  congr 1
  funext index
  rw [Function.comp_apply]
  cases table.regions[index]? with
  | none => rfl
  | some region =>
    simp only [Option.map_some, Option.filter_some]
    split <;> rfl

/-- The listed function has an answer everywhere, and it is the table's. -/
theorem categoryOf?_ofTable (inside : set.InCodespace) (valid : layout.fault? = none)
    (codepoint : Nat) : (ofTable (pack set layout)).categoryOf? codepoint =
      some ((pack set layout).categoryOf codepoint) := by
  have pages := find?_pages (pack set layout) codepoint
  rw [regionOf?_pack] at pages
  have bits : (ofTable (pack set layout)).pageBits = (pack set layout).pageBits := rfl
  rw [categoryOf?, bits, pages]
  cases found : (regionsOf set layout).find? fun region => region.range.contains codepoint with
  | none =>
    have outside : (pack set layout).categoryOf codepoint = .other := by
      rw [DispatchTable.categoryOf, regionOf?_pack, found]
      split <;> rfl
    rw [outside, Option.map_none]
  | some region =>
    have member := List.mem_of_find?_eq_some found
    have held : region.range.contains codepoint = true := by simpa using List.find?_some found
    have bounds := CodepointRange.contains_iff.mp held
    have last := (region_bounds inside valid member).2
    simp only [Option.map_some, lookup_offsets inside valid member, Option.bind_some,
      entries_ofTable, getElem?_entriesOf member held,
      categoryOf_pack inside valid (Nat.le_trans bounds.2 last)]

end CategoryListing

end ShapingTables
