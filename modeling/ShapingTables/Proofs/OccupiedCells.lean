import Mathlib.Data.List.SplitBy
import ShapingTables.Proofs.Lookup

/-! The regions of a table, cell by cell. The alignment cuts the codespace into cells; the
regions are the cells in use, neighbours within the gap of each other joined. How the runs
cut the codepoints of a cell, and where word arithmetic stops, makes no difference. -/
namespace ShapingTables

namespace CodepointRange

variable {gap : Nat} {ranges : List CodepointRange}

/-- The second range starts at most `gap` behind the end of the first. -/
def reaches (gap : Nat) (previous next : CodepointRange) : Bool :=
  next.first ≤ previous.last + gap

/-- From the start of the first range to the end of the last, where there is one. -/
def hull (ranges : List CodepointRange) : CodepointRange :=
  ⟨(ranges.head?.map (·.first)).getD 0, (ranges.getLast?.map (·.last)).getD 0⟩

/-- Neighbours share a group exactly if the one reaches the other; each group is one range. -/
def grouped (gap : Nat) (ranges : List CodepointRange) : List CodepointRange :=
  (ranges.splitBy (reaches gap)).map hull

theorem hull_append_singleton (front : List CodepointRange) (range : CodepointRange) :
    hull (front ++ [range]) = ⟨(hull (front ++ [range])).first, range.last⟩ := by
  simp [hull]

/-- A longer group has the same start. -/
theorem first_hull_append (front : List CodepointRange) (last next : CodepointRange) :
    (hull (front ++ [last] ++ [next])).first = (hull (front ++ [last])).first := by
  cases front <;> simp [hull]

theorem map_hull_loop (gap : Nat) (rest front : List CodepointRange) (last : CodepointRange)
    (finished : List (List CodepointRange)) (words : ∀ range ∈ rest, range.first ≤ 0xFFFFFFFF)
    (ends : (last :: rest).Pairwise fun left right => left.last ≤ right.last) :
    (List.splitBy.loop (reaches gap) rest last front finished).map hull =
      finished.reverse.map hull ++ joinFrom gap (hull (front.reverse ++ [last])) rest := by
  induction rest generalizing last front finished with
  | nil => simp [List.splitBy.loop, joinFrom]
  | cons range rest ih =>
    obtain ⟨word, words⟩ := List.forall_mem_cons.mp words
    obtain ⟨later, ends⟩ := List.pairwise_cons.mp ends
    have longer := later range (by simp)
    have reach : (hull (front.reverse ++ [last])).last = last.last := by
      rw [hull_append_singleton]
    rw [List.splitBy.loop, joinFrom, reach]
    cases near : reaches gap last range with
    | true =>
      have joined := ih (last :: front) range finished words ends
      rw [List.reverse_cons, hull_append_singleton, first_hull_append] at joined
      rw [if_pos ((le_wordSum_iff word).mpr (of_decide_eq_true near)), Nat.max_eq_right longer]
      exact joined
    | false =>
      have apart := ih [] range ((last :: front).reverse :: finished) words ends
      rw [if_neg (fun reached => of_decide_eq_false near ((le_wordSum_iff word).mp reached))]
      simpa [hull] using apart

/-- Where the ends ascend like the starts, joining is grouping, in unbounded arithmetic. -/
theorem joinWithin_eq_grouped (words : ∀ range ∈ ranges, range.first ≤ 0xFFFFFFFF)
    (ends : ranges.Pairwise fun left right => left.last ≤ right.last) :
    joinWithin gap ranges = grouped gap ranges := by
  cases ranges with
  | nil => rfl
  | cons range rest =>
    have loop := map_hull_loop gap rest [] range [] (List.forall_mem_cons.mp words).2 ends
    rw [grouped, List.splitBy, loop]
    simp [joinWithin, hull]

end CodepointRange

namespace Layout

/-- The codepoints from a multiple of the alignment up to the next, within the codespace. -/
def cell (layout : Layout) (index : Nat) : CodepointRange where
  first := index * layout.alignment
  last := min (index * layout.alignment + layout.alignment - 1) maxCodepoint

/-- From the start of the range's first cell to the end of its last. -/
def widen (layout : Layout) (range : CodepointRange) : CodepointRange where
  first := (layout.cell (range.first / layout.alignment)).first
  last := (layout.cell (range.last / layout.alignment)).last

variable {layout : Layout}

/-- Rounding out never comes to the top of the word. -/
theorem roundOut_eq_widen (aligned : 0 < layout.alignment) (range : CodepointRange) :
    layout.roundOut range = layout.widen range := by
  simp only [roundOut, widen, cell, wordSum, maxCodepoint, CodepointRange.mk.injEq, true_and]
  omega

theorem contains_cell_iff (aligned : 0 < layout.alignment) (index codepoint : Nat) :
    (layout.cell index).contains codepoint = true ↔
      codepoint ≤ maxCodepoint ∧ codepoint / layout.alignment = index := by
  have start : index ≤ codepoint / layout.alignment ↔ index * layout.alignment ≤ codepoint :=
    Nat.le_div_iff_mul_le aligned
  have stop : codepoint / layout.alignment ≤ index ↔
      codepoint ≤ index * layout.alignment + layout.alignment - 1 :=
    Nat.div_le_iff_le_mul aligned
  simp only [CodepointRange.contains_iff, cell]
  omega

/-- The cells of the codespace, in ascending order. -/
def cells (layout : Layout) : List CodepointRange :=
  (List.range (maxCodepoint / layout.alignment + 1)).map layout.cell

theorem cells_ordered (aligned : 0 < layout.alignment) : CodepointRange.Ordered layout.cells where
  nonempty := by
    intro range member
    obtain ⟨index, listed, rfl⟩ := List.mem_map.mp member
    have start : index * layout.alignment ≤ maxCodepoint :=
      (Nat.le_div_iff_mul_le aligned).mp (Nat.lt_succ_iff.mp (List.mem_range.mp listed))
    simp only [cell]
    omega
  starts := by
    apply List.pairwise_map.mpr
    exact List.pairwise_lt_range.imp fun before => Nat.mul_le_mul_right _ (Nat.le_of_lt before)
  inside := by
    intro range member
    obtain ⟨index, _, rfl⟩ := List.mem_map.mp member
    exact Nat.min_le_right _ _

theorem cells_ends (layout : Layout) :
    layout.cells.Pairwise fun left right => left.last ≤ right.last := by
  apply List.pairwise_map.mpr
  refine List.pairwise_lt_range.imp fun {left right} before => ?_
  have starts := Nat.mul_le_mul_right layout.alignment (Nat.le_of_lt before)
  simp only [cell]
  omega

end Layout

namespace ClassifiedSet

/-- Some codepoint of the range has a category other than `other`. -/
def occupies (set : ClassifiedSet) (range : CodepointRange) : Bool :=
  range.toList.any fun codepoint => !(set.categoryOf codepoint).isOther

/-- The cells that are in use, in ascending order. -/
def occupiedCells (set : ClassifiedSet) (layout : Layout) : List CodepointRange :=
  layout.cells.filter set.occupies

variable {set other : ClassifiedSet} {layout : Layout}

theorem occupies_iff (range : CodepointRange) : set.occupies range = true ↔
    ∃ u, range.contains u = true ∧ set.categoryOf u ≠ .other := by
  simp [occupies, CodepointRange.mem_toList, Category.isOther]

theorem covers_occupiedCells_iff (inside : set.InCodespace) (aligned : 0 < layout.alignment)
    (codepoint : Nat) : CodepointRange.Covers (set.occupiedCells layout) codepoint ↔
      set.CellInUse layout codepoint := by
  constructor
  · rintro ⟨range, member, held⟩
    obtain ⟨listed, used⟩ := List.mem_filter.mp member
    obtain ⟨index, _, rfl⟩ := List.mem_map.mp listed
    obtain ⟨u, own, kept⟩ := (occupies_iff _).mp used
    rw [Layout.contains_cell_iff aligned] at held own
    exact ⟨held.1, u, kept, own.2.trans held.2.symm⟩
  · rintro ⟨bound, u, kept, same⟩
    have own := le_maxCodepoint_of_category inside kept
    refine ⟨layout.cell (codepoint / layout.alignment), List.mem_filter.mpr ⟨?_, ?_⟩, ?_⟩
    · exact List.mem_map_of_mem (List.mem_range.mpr
        (Nat.lt_succ_of_le (Nat.div_le_div_right bound)))
    · exact (occupies_iff _).mpr ⟨u, (Layout.contains_cell_iff aligned _ _).mpr ⟨own, same⟩, kept⟩
    · exact (Layout.contains_cell_iff aligned _ _).mpr ⟨bound, rfl⟩

theorem occupiedCells_ordered (set : ClassifiedSet) (aligned : 0 < layout.alignment) :
    CodepointRange.Ordered (set.occupiedCells layout) :=
  (Layout.cells_ordered aligned).filter _

theorem joinWithin_occupiedCells (aligned : 0 < layout.alignment) :
    CodepointRange.joinWithin layout.maxGap (set.occupiedCells layout) =
      CodepointRange.grouped layout.maxGap (set.occupiedCells layout) :=
  CodepointRange.joinWithin_eq_grouped (occupiedCells_ordered set aligned).joinable.words
    ((Layout.cells_ends layout).filter _)

/-- Unless the gap is zero, the spans are the cells in use in groups. -/
theorem spans_eq_grouped (inside : set.InCodespace) (valid : layout.fault? = none)
    (joins : 1 ≤ layout.maxGap) :
    set.spans layout = CodepointRange.grouped layout.maxGap (set.occupiedCells layout) := by
  have aligned := Layout.alignment_pos valid
  have cells : CodepointRange.Covers (set.occupiedCells layout) = set.CellInUse layout :=
    funext fun u => propext (covers_occupiedCells_iff inside aligned u)
  have ordered := occupiedCells_ordered set aligned
  rw [← joinWithin_occupiedCells aligned]
  refine (CodepointRange.joinWithin_separated (ordered_rounded inside valid).joinable).eq_of_covers joins
    (CodepointRange.joinWithin_separated ordered.joinable) fun u => ?_
  rw [CodepointRange.covers_joinWithin ordered.joinable, cells]
  exact covers_spans_iff inside valid u

/-- With a gap of zero, the spans hold the cells in use and nothing else. -/
theorem covers_spans_zero (inside : set.InCodespace) (valid : layout.fault? = none)
    (apart : layout.maxGap = 0) (u : Nat) : CodepointRange.Covers (set.spans layout) u ↔
      CodepointRange.Covers (set.occupiedCells layout) u := by
  rw [covers_spans_iff inside valid, apart, Bridged.zero_iff,
    covers_occupiedCells_iff inside (Layout.alignment_pos valid)]

theorem occupiedCells_congr (same : ∀ u, other.categoryOf u = .other ↔ set.categoryOf u = .other)
    (layout : Layout) : other.occupiedCells layout = set.occupiedCells layout := by
  have occupies : other.occupies = set.occupies := by
    funext range
    rw [Bool.eq_iff_iff, occupies_iff, occupies_iff]
    simp only [ne_eq, same]
  rw [occupiedCells, occupiedCells, occupies]

/-- The spans are the widened runs in groups, whatever the gap, in unbounded arithmetic. -/
theorem spans_eq_grouped_runs (inside : set.InCodespace) (valid : layout.fault? = none) :
    set.spans layout = CodepointRange.grouped layout.maxGap
      (set.runs.map fun run => layout.widen run.range) := by
  have widened : (fun run : Run => layout.roundOut run.range) = fun run => layout.widen run.range :=
    funext fun run => Layout.roundOut_eq_widen (Layout.alignment_pos valid) run.range
  have ordered := ordered_rounded inside valid
  rw [spans, Layout.spans]
  rw [widened] at ordered ⊢
  refine CodepointRange.joinWithin_eq_grouped ordered.joinable.words (List.pairwise_map.mpr ?_)
  apply (List.pairwise_map.mp set.runs_ascending.apart).imp_of_mem
  intro left right _ member before
  have order := set.runs_ascending.nonempty _ (List.mem_map_of_mem member)
  have ends : left.range.last / layout.alignment * layout.alignment ≤
      right.range.last / layout.alignment * layout.alignment :=
    Nat.mul_le_mul_right _ (Nat.div_le_div_right (by omega))
  simp only [Layout.widen, Layout.cell]
  omega

end ClassifiedSet

namespace DispatchTable

/-- Where the gap is not zero, the regions are the cells in use, ascending and in groups, and
so they follow from the codepoints in use alone. Where it is zero, they hold the same
codepoints as these cells. In either case they are what unbounded arithmetic makes of the runs. -/
theorem ranges_pack_grouped (set : ClassifiedSet) (layout : Layout)
    (inside : set.InCodespace) (valid : layout.fault? = none) :
    (1 ≤ layout.maxGap →
      (pack set layout).ranges =
        CodepointRange.grouped layout.maxGap (set.occupiedCells layout) ∧
      ∀ other : ClassifiedSet, other.InCodespace →
        (∀ u, other.categoryOf u = .other ↔ set.categoryOf u = .other) →
        (pack other layout).ranges = (pack set layout).ranges) ∧
    (layout.maxGap = 0 → ∀ u, CodepointRange.Covers (pack set layout).ranges u ↔
      CodepointRange.Covers (set.occupiedCells layout) u) ∧
    (pack set layout).ranges =
      CodepointRange.grouped layout.maxGap (set.runs.map fun run => layout.widen run.range) := by
  simp only [ranges_pack]
  refine ⟨fun joins => ⟨ClassifiedSet.spans_eq_grouped inside valid joins, ?_⟩,
    ClassifiedSet.covers_spans_zero inside valid, ClassifiedSet.spans_eq_grouped_runs inside valid⟩
  intro other otherInside same
  rw [ClassifiedSet.spans_eq_grouped otherInside valid joins,
    ClassifiedSet.spans_eq_grouped inside valid joins, ClassifiedSet.occupiedCells_congr same]

/-- The second stretch starts 25 codepoints behind the end of the first. -/
theorem ranges_twoStretches :
    twoStretches.InCodespace ∧ Layout.fault? ⟨2, 24, 4⟩ = none ∧ Layout.fault? ⟨2, 25, 4⟩ = none ∧
      CodepointRange.grouped 24 (twoStretches.occupiedCells ⟨2, 24, 4⟩) =
        [⟨0x14, 0x17⟩, ⟨0x30, 0x31⟩] ∧
      CodepointRange.grouped 25 (twoStretches.occupiedCells ⟨2, 25, 4⟩) = [⟨0x14, 0x31⟩] := by
  have inside : twoStretches.InCodespace := by decide
  have valid : Layout.fault? ⟨2, 24, 4⟩ = none := by decide
  have validToo : Layout.fault? ⟨2, 25, 4⟩ = none := by decide
  have apart := ((ranges_pack_grouped _ _ inside valid).1 (by decide)).1
  have joined := ((ranges_pack_grouped _ _ inside validToo).1 (by decide)).1
  exact ⟨inside, valid, validToo, apart.symm.trans (by decide), joined.symm.trans (by decide)⟩

end DispatchTable

end ShapingTables
