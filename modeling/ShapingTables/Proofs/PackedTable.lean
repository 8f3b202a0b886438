import Mathlib.Algebra.Ring.Nat
import Mathlib.Order.Interval.Set.Defs
import Mathlib.Data.Set.Function
import ShapingTables.Proofs.Lookup

/-! What a packed table consists of. The array holds each codepoint of each region at one
place of its own, in the order of the codespace, and has no other places; the pages list
the regions that hold one of their codepoints. -/
namespace ShapingTables

namespace CodepointRange

theorem mem_flatMap_toList {ranges : List CodepointRange} {codepoint : Nat} :
    codepoint ∈ ranges.flatMap toList ↔ Covers ranges codepoint := by
  simp only [List.mem_flatMap, mem_toList, Covers]

/-- Ascending ranges list their codepoints in ascending order, each once. -/
theorem Ascending.flatMap_toList {ranges : List CodepointRange} (valid : Ascending ranges) :
    (ranges.flatMap toList).Pairwise (· < ·) := by
  refine List.pairwise_flatMap.mpr ⟨fun range _ => List.pairwise_lt_range', ?_⟩
  refine valid.apart.imp fun before u held v later => ?_
  have stop := (contains_iff.mp (mem_toList.mp held)).2
  have start := (contains_iff.mp (mem_toList.mp later)).1
  omega

theorem Ascending.nodup_flatMap {ranges : List CodepointRange} (valid : Ascending ranges) :
    (ranges.flatMap toList).Nodup :=
  valid.flatMap_toList.imp Nat.ne_of_lt

theorem length_flatMap_toList (ranges : List CodepointRange) :
    (ranges.flatMap toList).length = (ranges.map size).sum := by
  induction ranges with
  | nil => rfl
  | cons range rest ih =>
    rw [List.flatMap_cons, List.length_append, length_toList, ih, List.map_cons, List.sum_cons]

end CodepointRange

namespace Region

/-- The place of a codepoint of the region in the array. -/
def placeOf (region : Region) (codepoint : Nat) : Nat :=
  codepoint - region.range.first + region.offset

theorem offset_place {spans : List CodepointRange} {index : Nat} {region : Region} (offset : Nat)
    (found : (place offset spans)[index]? = some region) :
    region.offset = offset + ((spans.take index).map CodepointRange.size).sum := by
  induction spans generalizing offset index with
  | nil => simp [place] at found
  | cons span rest ih =>
    cases index with
    | zero =>
      cases found
      rfl
    | succ index =>
      have later := ih (offset + span.size) found
      rw [List.take_succ_cons, List.map_cons, List.sum_cons]
      omega

/-- The array ends where the last region ends. -/
theorem end_place {spans : List CodepointRange} {region : Region} (offset : Nat)
    (last : (place offset spans).getLast? = some region) :
    region.offset + region.range.size = offset + (spans.map CodepointRange.size).sum := by
  induction spans generalizing offset with
  | nil => simp [place] at last
  | cons span rest ih =>
    rw [List.map_cons, List.sum_cons]
    cases rest with
    | nil =>
      cases last
      rfl
    | cons next others =>
      rw [place, place, List.getLast?_cons_cons] at last
      have later := ih (offset + span.size) last
      omega

end Region

namespace DispatchTable

/-- The codepoints that the table stores, in the order of the array. -/
def codepoints (table : DispatchTable) : List Nat := table.ranges.flatMap CodepointRange.toList

variable {set : ClassifiedSet} {layout : Layout}

theorem mem_codepoints {table : DispatchTable} {codepoint : Nat} :
    codepoint ∈ table.codepoints ↔ CodepointRange.Covers table.ranges codepoint :=
  CodepointRange.mem_flatMap_toList

theorem codepoints_pack : (pack set layout).codepoints =
    (set.spans layout).flatMap CodepointRange.toList := by
  rw [codepoints, ranges_pack]

theorem codepoints_nodup (inside : set.InCodespace) (valid : layout.fault? = none) :
    (pack set layout).codepoints.Nodup := by
  rw [codepoints_pack]
  exact (ClassifiedSet.spans_ascending inside valid).nodup_flatMap

theorem entries_pack : (pack set layout).entries.toList =
    (pack set layout).codepoints.map set.categoryOf := by
  rw [codepoints_pack, pack_entries]
  exact List.map_flatMap.symm

theorem total_pack : (pack set layout).total = (pack set layout).codepoints.length := by
  rw [total, ← Array.length_toList, entries_pack, List.length_map]

/-- The array's place for a codepoint is that codepoint's place among all that are stored. -/
theorem getElem?_codepoints {region : Region} (member : region ∈ regionsOf set layout)
    {codepoint : Nat} (held : region.range.contains codepoint = true) :
    (pack set layout).codepoints[region.placeOf codepoint]? = some codepoint := by
  have found := Region.getElem?_place id (set.spans layout) [] region member codepoint held
  simp only [List.map_id, List.nil_append, id_eq] at found
  rw [codepoints_pack]
  exact found

theorem regionsOf_apart (inside : set.InCodespace) (valid : layout.fault? = none) :
    (regionsOf set layout).Pairwise fun left right => left.range.last < right.range.first := by
  have apart := (ClassifiedSet.spans_ascending inside valid).apart
  rwa [← Region.map_range_place 0 (set.spans layout), List.pairwise_map] at apart

/-- No codepoint lies in two regions. -/
theorem region_unique (inside : set.InCodespace) (valid : layout.fault? = none)
    {region other : Region} (member : region ∈ regionsOf set layout)
    (otherMember : other ∈ regionsOf set layout) {codepoint : Nat}
    (held : region.range.contains codepoint = true)
    (otherHeld : other.range.contains codepoint = true) : region = other := by
  obtain ⟨i, bound, rfl⟩ := List.mem_iff_getElem.mp member
  obtain ⟨j, otherBound, rfl⟩ := List.mem_iff_getElem.mp otherMember
  have apart := List.pairwise_iff_getElem.mp (regionsOf_apart inside valid)
  have bounds := CodepointRange.contains_iff.mp held
  have otherBounds := CodepointRange.contains_iff.mp otherHeld
  rcases Nat.lt_trichotomy i j with before | same | behind
  · have order := apart i j bound otherBound before
    omega
  · subst same
    rfl
  · have order := apart j i otherBound bound behind
    omega

/-- Each place of the array is the place of one codepoint in one region. -/
theorem placeOf_bijOn (inside : set.InCodespace) (valid : layout.fault? = none) :
    Set.BijOn (fun entry : Region × Nat => entry.1.placeOf entry.2)
      {entry | entry.1 ∈ regionsOf set layout ∧ entry.1.range.contains entry.2 = true}
      (Set.Iio (pack set layout).total) := by
  rw [total_pack]
  refine ⟨?_, ?_, ?_⟩
  · rintro ⟨region, codepoint⟩ ⟨member, held⟩
    exact (List.getElem?_eq_some_iff.mp (getElem?_codepoints member held)).1
  · rintro ⟨region, codepoint⟩ ⟨member, held⟩ ⟨other, another⟩ ⟨otherMember, otherHeld⟩ same
    have found := getElem?_codepoints member held
    have foundToo := getElem?_codepoints otherMember otherHeld
    simp only at same
    -- One place holds one codepoint, and one codepoint lies in one region.
    rw [same, foundToo] at found
    obtain rfl := Option.some.inj found
    exact Prod.ext (region_unique inside valid member otherMember held otherHeld) rfl
  · intro place bound
    have covered := mem_codepoints.mp (List.getElem_mem bound)
    rw [ranges_pack] at covered
    obtain ⟨region, member, held⟩ := exists_region covered
    refine ⟨⟨region, _⟩, ⟨member, held⟩, ?_⟩
    have found := getElem?_codepoints member held
    rw [← List.getElem?_eq_getElem bound] at found
    exact ((List.getElem?_inj bound (codepoints_nodup inside valid)).mp found.symm).symm

/-- The parts of the table fit together and store the categories of the set. -/
structure Represents (table : DispatchTable) (set : ClassifiedSet) (layout : Layout) : Prop where
  nonempty : ∀ region ∈ table.regions, region.range.first ≤ region.range.last
  apart : table.regions.toList.Pairwise fun left right => left.range.last < right.range.first
  offset : ∀ index region, table.regions[index]? = some region →
    region.offset = ((table.ranges.take index).map CodepointRange.size).sum
  total : table.total = (table.ranges.map CodepointRange.size).sum
  last : ∀ region, table.regions.back? = some region →
    region.offset + region.range.size = table.total
  /-- The codepoints of the regions take up the places of the array, each one of its own. -/
  places : Set.BijOn (fun entry : Region × Nat => entry.1.placeOf entry.2)
    {entry | entry.1 ∈ table.regions ∧ entry.1.range.contains entry.2 = true}
    (Set.Iio table.total)
  stored : ∀ region ∈ table.regions, ∀ codepoint, region.range.contains codepoint = true →
    table.entries[region.placeOf codepoint]? = some (set.categoryOf codepoint)
  pageBits : table.pageBits = layout.pageBits
  pages : (table.pages.toList.map (·.1)).Pairwise (· < ·)
  /-- No page is listed without a region, and none of its regions is listed twice. -/
  listed : ∀ (page : Nat) indices, table.pages[page]? = some indices →
    indices ≠ [] ∧ indices.Pairwise (· < ·)
  touched : ∀ page index, index ∈ table.pages.getD page [] ↔
    ∃ region codepoint, table.regions[index]? = some region ∧
      region.range.contains codepoint = true ∧ codepoint >>> layout.pageBits = page

theorem pack_represents (inside : set.InCodespace) (valid : layout.fault? = none) :
    (pack set layout).Represents set layout where
  nonempty region member :=
    (region_bounds inside valid (Array.mem_toList_iff.mpr member)).1
  apart := regionsOf_apart inside valid
  offset index region found := by
    rw [ranges_pack]
    rw [← Array.getElem?_toList, pack_regions] at found
    have offset := Region.offset_place 0 found
    rwa [Nat.zero_add] at offset
  total := by
    rw [total_pack, codepoints, CodepointRange.length_flatMap_toList]
  last region found := by
    rw [← Array.getLast?_toList, pack_regions] at found
    have places := Region.end_place 0 found
    rwa [Nat.zero_add, ← CodepointRange.length_flatMap_toList, ← codepoints_pack,
      ← total_pack] at places
  places := by
    have places := placeOf_bijOn inside valid
    simpa only [← pack_regions, Array.mem_toList_iff] using places
  stored region member codepoint held := by
    have entry := getElem?_entriesOf (Array.mem_toList_iff.mpr member) held
    rwa [← pack_entries, Array.getElem?_toList] at entry
  pageBits := rfl
  pages := by
    apply List.pairwise_map.mpr
    apply (pack set layout).pages.ordered_keys_toList.imp
    intro one other order
    exact Nat.compare_eq_lt.mp order
  listed page indices found := by
    rw [pack_pages, getElem?_pagesFrom] at found
    split at found
    · contradiction
    · rename_i touched
      cases found
      exact ⟨touched, touching_ascend _ _ _ _⟩
  touched page index := by
    rw [pack_pages, getD_pagesFrom, mem_touching, ← pack_regions]
    simp only [Nat.zero_le, true_and, Nat.sub_zero, Array.getElem?_toList]
    refine exists_congr fun region => ?_
    constructor
    · rintro ⟨found, touches⟩
      have order := (region_bounds inside valid
        (Array.mem_toList_iff.mpr (Array.mem_of_getElem? found))).1
      obtain ⟨u, held, same⟩ := (Region.mem_pages_iff order _ _).mp touches
      exact ⟨u, found, held, same⟩
    · rintro ⟨u, found, held, rfl⟩
      exact ⟨found, mem_pages _ held⟩

/-- Every table that is built holds each codepoint of its regions at one place of its own, has
no other places, and lists the regions of each page. -/
theorem ofSet_represents (set : ClassifiedSet) (layout : Layout) (table : DispatchTable)
    (inside : set.InCodespace) (built : ofSet set layout = .ok table) :
    table.Represents set layout := by
  obtain ⟨valid, rfl⟩ := ofSet_eq_ok built
  exact pack_represents inside valid

/-- Five codepoints in two regions, the first on two pages, the second on one of them. -/
def sharedPage : ClassifiedSet :=
  (((((ClassifiedSet.empty .empty).insert 0x0E ⟨.base, none⟩ .unnamed).insert
    0x0F ⟨.base, none⟩ .unnamed).insert 0x10 ⟨.halant, none⟩ .unnamed).insert
      0x11 ⟨.base, none⟩ .unnamed).insert 0x18 ⟨.vowel, some .post⟩ .unnamed

theorem ofSet_represents_sharedPage :
    sharedPage.InCodespace ∧
      ofSet sharedPage ⟨2, 1, 4⟩ = .ok (pack sharedPage ⟨2, 1, 4⟩) ∧
      (pack sharedPage ⟨2, 1, 4⟩).regions = #[⟨⟨0x0E, 0x11⟩, 0⟩, ⟨⟨0x18, 0x19⟩, 4⟩] ∧
      (pack sharedPage ⟨2, 1, 4⟩).pages.toList = [(0, [0]), (1, [0, 1])] ∧
      (pack sharedPage ⟨2, 1, 4⟩).Represents sharedPage ⟨2, 1, 4⟩ := by
  have inside : sharedPage.InCodespace := by decide
  have built : ofSet sharedPage ⟨2, 1, 4⟩ = .ok (pack sharedPage ⟨2, 1, 4⟩) := rfl
  exact ⟨inside, built, by decide, by decide, ofSet_represents _ _ _ inside built⟩

end DispatchTable

end ShapingTables
