import ShapingTables.Region
import ShapingTables.Proofs.JoinedRanges
import ShapingTables.Proofs.Runs

/-! The spans that a layout keeps of ascending runs, and the places of their
codepoints in the array. Spans are ascending, disjoint and in the codespace. They hold
each cell of the alignment in which a codepoint has a category, and what lies between two
such cells no further apart than the gap; the array is the concatenation of the spans. -/
namespace ShapingTables

theorem CodepointRange.getElem?_toList {range : CodepointRange} {codepoint : Nat}
    (held : range.contains codepoint = true) :
    range.toList[codepoint - range.first]? = some codepoint := by
  have bounds := contains_iff.mp held
  rw [toList, size, List.getElem?_range' (by omega)]
  simp only [Option.some.injEq]
  omega

namespace Layout

variable {layout : Layout}

theorem alignment_pos (valid : layout.fault? = none) : 0 < layout.alignment := by
  apply Nat.pos_of_ne_zero
  intro zero
  simp [fault?, isPowerOfTwo, zero] at valid

theorem pageBits_bounds (valid : layout.fault? = none) :
    1 ≤ layout.pageBits ∧ layout.pageBits ≤ 21 := by
  simp only [fault?] at valid
  split at valid
  · contradiction
  · split at valid
    · contradiction
    · omega

/-- Rounding out keeps the codepoints of a range and stays in the codespace. -/
theorem roundOut_bounds (aligned : 0 < layout.alignment) (range : CodepointRange)
    (inside : range.last ≤ maxCodepoint) :
    (layout.roundOut range).first ≤ range.first ∧ range.last ≤ (layout.roundOut range).last ∧
      (layout.roundOut range).last ≤ maxCodepoint := by
  have start := Nat.div_mul_le_self range.first layout.alignment
  have split := Nat.div_add_mod' range.last layout.alignment
  have rest := Nat.mod_lt range.last aligned
  simp only [roundOut, wordSum, maxCodepoint] at *
  omega

theorem ordered_rounded (aligned : 0 < layout.alignment) (runs : List Run)
    (ascend : CodepointRange.Ascending (Run.ranges runs))
    (inside : ∀ run ∈ runs, run.range.last ≤ maxCodepoint) :
    CodepointRange.Ordered (runs.map fun run => layout.roundOut run.range) := by
  refine ⟨?_, ?_, ?_⟩
  · intro rounded member
    obtain ⟨run, origin, rfl⟩ := List.mem_map.mp member
    have bounds := roundOut_bounds aligned run.range (inside run origin)
    have order := ascend.nonempty _ (List.mem_map_of_mem origin)
    omega
  · have apart := List.pairwise_map.mp ascend.apart
    apply List.pairwise_map.mpr
    apply apart.imp_of_mem
    intro left right origin _ before
    have order := ascend.nonempty _ (List.mem_map_of_mem origin)
    exact Nat.mul_le_mul_right _ (Nat.div_le_div_right (by omega))
  · intro rounded member
    obtain ⟨run, origin, rfl⟩ := List.mem_map.mp member
    exact (roundOut_bounds aligned run.range (inside run origin)).2.2

/-- A rounded range holds the codepoints of all cells that the range touches. -/
theorem contains_roundOut_iff (aligned : 0 < layout.alignment) {range : CodepointRange}
    (order : range.first ≤ range.last) (codepoint : Nat) :
    (layout.roundOut range).contains codepoint = true ↔ codepoint ≤ maxCodepoint ∧
      ∃ u, range.contains u = true ∧ u / layout.alignment = codepoint / layout.alignment := by
  rw [CodepointRange.exists_div_eq_iff aligned order, Nat.le_div_iff_mul_le aligned,
    Nat.div_le_iff_le_mul aligned]
  simp only [CodepointRange.contains_iff, roundOut, wordSum, maxCodepoint]
  omega

theorem covers_rounded_iff (aligned : 0 < layout.alignment) {runs : List Run}
    (ascend : CodepointRange.Ascending (Run.ranges runs)) (codepoint : Nat) :
    CodepointRange.Covers (runs.map fun run => layout.roundOut run.range) codepoint ↔
      codepoint ≤ maxCodepoint ∧ ∃ u, CodepointRange.Covers (Run.ranges runs) u ∧
        u / layout.alignment = codepoint / layout.alignment := by
  have touches : ∀ run ∈ runs, (layout.roundOut run.range).contains codepoint = true ↔ _ :=
    fun run member => contains_roundOut_iff aligned
      (ascend.nonempty _ (List.mem_map_of_mem member)) codepoint
  constructor
  · rintro ⟨_, member, held⟩
    obtain ⟨run, origin, rfl⟩ := List.mem_map.mp member
    obtain ⟨inside, u, own, same⟩ := (touches run origin).mp held
    exact ⟨inside, u, ⟨run.range, List.mem_map_of_mem origin, own⟩, same⟩
  · rintro ⟨inside, u, ⟨_, member, own⟩, same⟩
    obtain ⟨run, origin, rfl⟩ := List.mem_map.mp member
    exact ⟨_, List.mem_map_of_mem origin, (touches run origin).mpr ⟨inside, u, own, same⟩⟩

end Layout

/-- The spans of a set under a layout. -/
def ClassifiedSet.spans (set : ClassifiedSet) (layout : Layout) : List CodepointRange :=
  layout.spans set.runs

/-- Every codepoint with an entry is in the codespace. -/
def ClassifiedSet.InCodespace (set : ClassifiedSet) : Prop :=
  ∀ codepoint ∈ set.entries, codepoint ≤ maxCodepoint

namespace ClassifiedSet

instance (set : ClassifiedSet) : Decidable set.InCodespace :=
  decidable_of_iff (∀ entry ∈ set.entries.toList, entry.1 ≤ maxCodepoint) <| by
    constructor
    · intro bound codepoint member
      obtain ⟨value, entry⟩ := Option.isSome_iff_exists.mp
        (Std.TreeMap.mem_iff_isSome_getElem?.mp member)
      exact bound _ (Std.TreeMap.mem_toList_iff_getElem?_eq_some.mpr entry)
    · rintro inside ⟨codepoint, value⟩ listed
      have entry := Std.TreeMap.mem_toList_iff_getElem?_eq_some.mp listed
      exact inside _ (Std.TreeMap.mem_iff_isSome_getElem?.mpr (by rw [entry]; rfl))

variable {set : ClassifiedSet} {layout : Layout}

theorem runs_inside (inside : set.InCodespace) : ∀ run ∈ set.runs, run.range.last ≤ maxCodepoint := by
  intro run member
  have order := set.runs_ascending.nonempty _ (List.mem_map_of_mem member)
  exact inside _ (set.mem_entries_of_runs member
    (CodepointRange.contains_iff.mpr ⟨order, Nat.le_refl _⟩))

theorem ordered_rounded (inside : set.InCodespace) (valid : layout.fault? = none) :
    CodepointRange.Ordered (set.runs.map fun run => layout.roundOut run.range) :=
  Layout.ordered_rounded (Layout.alignment_pos valid) set.runs set.runs_ascending (runs_inside inside)

theorem spans_ascending (inside : set.InCodespace) (valid : layout.fault? = none) :
    CodepointRange.Ascending (set.spans layout) :=
  CodepointRange.joinWithin_ascending (ordered_rounded inside valid).joinable

theorem spans_inside (inside : set.InCodespace) (valid : layout.fault? = none) :
    ∀ span ∈ set.spans layout, span.last ≤ maxCodepoint :=
  CodepointRange.joinWithin_inside (ordered_rounded inside valid)

/-- Some codepoint of the same cell has a category other than `other`. -/
def CellInUse (set : ClassifiedSet) (layout : Layout) (codepoint : Nat) : Prop :=
  codepoint ≤ maxCodepoint ∧
    ∃ u, set.categoryOf u ≠ .other ∧ u / layout.alignment = codepoint / layout.alignment

/-- The spans hold the cells in use and what lies between two of them at most the gap apart. -/
theorem covers_spans_iff (inside : set.InCodespace) (valid : layout.fault? = none)
    (codepoint : Nat) : CodepointRange.Covers (set.spans layout) codepoint ↔
      Bridged layout.maxGap (set.CellInUse layout) codepoint := by
  have cells : CodepointRange.Covers (set.runs.map fun run => layout.roundOut run.range) =
      set.CellInUse layout := by
    funext u
    rw [Layout.covers_rounded_iff (Layout.alignment_pos valid) set.runs_ascending]
    simp only [covers_runs, CellInUse]
  rw [spans, Layout.spans, CodepointRange.covers_joinWithin (ordered_rounded inside valid).joinable, cells]

theorem le_maxCodepoint_of_category (inside : set.InCodespace) {codepoint : Nat}
    (kept : set.categoryOf codepoint ≠ .other) : codepoint ≤ maxCodepoint := by
  apply inside
  apply Classical.byContradiction
  intro absent
  exact kept (by rw [categoryOf, Std.TreeMap.getElem?_eq_none absent])

/-- No codepoint whose category is not `other` is left out of the spans. -/
theorem covers_spans (inside : set.InCodespace) (valid : layout.fault? = none) {codepoint : Nat}
    (kept : set.categoryOf codepoint ≠ .other) :
    CodepointRange.Covers (set.spans layout) codepoint :=
  (covers_spans_iff inside valid codepoint).mpr
    (.of_member ⟨le_maxCodepoint_of_category inside kept, codepoint, kept, rfl⟩)

end ClassifiedSet

namespace Region

/-- A region touches exactly the pages of its codepoints. -/
theorem mem_pages_iff {region : Region} (order : region.range.first ≤ region.range.last)
    (pageBits page : Nat) : page ∈ region.pages pageBits ↔
      ∃ u, region.range.contains u = true ∧ u >>> pageBits = page := by
  simp only [Nat.shiftRight_eq_div_pow]
  rw [CodepointRange.exists_div_eq_iff (Nat.two_pow_pos pageBits) order, pages,
    CodepointRange.mem_toList, CodepointRange.contains_iff, Nat.shiftRight_eq_div_pow,
    Nat.shiftRight_eq_div_pow]

theorem map_range_place (offset : Nat) (spans : List CodepointRange) :
    (place offset spans).map (·.range) = spans := by
  induction spans generalizing offset with
  | nil => rfl
  | cons span rest ih => simp [place, ih]

/-- An array filled span by span holds each codepoint's value at the place that
the codepoint's region gives it. -/
theorem getElem?_place (value : Nat → α) (spans : List CodepointRange) (front : List α)
    (region : Region) (member : region ∈ place front.length spans) (codepoint : Nat)
    (held : region.range.contains codepoint = true) :
    (front ++ spans.flatMap fun span => span.toList.map value)[
      codepoint - region.range.first + region.offset]? = some (value codepoint) := by
  induction spans generalizing front with
  | nil => simp [place] at member
  | cons span rest ih =>
    rw [List.flatMap_cons]
    rcases List.mem_cons.mp member with rfl | member
    · have found := CodepointRange.getElem?_toList held
      simp only at found ⊢
      rw [List.getElem?_append_right (by omega), Nat.add_sub_cancel, List.getElem?_append_left,
        List.getElem?_map, found, Option.map_some]
      rw [List.length_map]
      exact (List.getElem?_eq_some_iff.mp found).1
    · rw [← List.append_assoc]
      apply ih
      rwa [List.length_append, List.length_map, CodepointRange.length_toList]

end Region

end ShapingTables
