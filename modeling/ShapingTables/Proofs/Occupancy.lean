import Mathlib.Data.Nat.Count
import ShapingTables.Proofs.OccupiedCells
import ShapingTables.Proofs.PackedTable

/-! How full a table is. The entries in use are as many as the codepoints with a category,
each stored once, and all entries together as many as the codepoints in the regions; so the
refusal of a sparse table depends on these two numbers alone, and a tighter layout, which
stores no other codepoints, is never refused where a looser one is not. -/
namespace ShapingTables

theorem length_eq_count {listed : List Nat} (distinct : listed.Nodup) {bound : Nat}
    (inside : ∀ u ∈ listed, u < bound) (member : Nat → Prop) [DecidablePred member]
    (same : ∀ u, u ∈ listed ↔ member u) : listed.length = Nat.count member bound := by
  have equal : listed.toFinset = {u ∈ Finset.range bound | member u} := by
    ext u
    rw [List.mem_toFinset, Finset.mem_filter, Finset.mem_range, ← same]
    exact ⟨fun held => ⟨inside u held, held⟩, And.right⟩
  rw [Nat.count_eq_card_filter_range, ← equal, List.toFinset_card_of_nodup distinct]

namespace CodepointRange

instance (ranges : List CodepointRange) : DecidablePred (Covers ranges) :=
  fun codepoint => inferInstanceAs (Decidable (∃ range ∈ ranges, range.contains codepoint = true))

/-- How many codepoints lie in one of the ranges or in several. -/
def coveredCount (ranges : List CodepointRange) : Nat :=
  Nat.count (Covers ranges) (maxCodepoint + 1)

end CodepointRange

/-- How many codepoints of the set have a category other than `other`. -/
def ClassifiedSet.used (set : ClassifiedSet) : Nat :=
  set.entries.toList.countP fun entry => !entry.2.1.isOther

theorem roundDiv_le (numerator denominator : Nat) :
    2 * (denominator * roundDiv numerator denominator) ≤ 2 * numerator + denominator := by
  have split := Nat.div_add_mod numerator denominator
  rw [roundDiv]
  split
  · rw [Nat.mul_add, Nat.mul_one]
    omega
  · omega

theorem le_roundDiv (numerator : Nat) {denominator : Nat} (positive : 0 < denominator) :
    2 * numerator ≤ 2 * (denominator * roundDiv numerator denominator) + denominator := by
  have split := Nat.div_add_mod numerator denominator
  have rest := Nat.mod_lt numerator positive
  rw [roundDiv]
  split
  · rw [Nat.mul_add, Nat.mul_one]
    omega
  · omega

namespace BinaryFraction

def BelowHalf (fraction : BinaryFraction) : Prop :=
  2 * fraction.significand < Nat.pow 2 fraction.scale

/-- A share has 52 bits or more behind the point. -/
theorem le_scaleOf {numerator denominator : Nat} (some : numerator ≠ 0)
    (share : numerator ≤ denominator) : 52 ≤ scaleOf numerator denominator := by
  have logs : numerator.log2 ≤ denominator.log2 :=
    (Nat.le_log2 (by omega)).mpr (Nat.le_trans (Nat.log2_self_le some) share)
  simp only [scaleOf]
  split <;> omega

/-- Rounding a share never takes it from one side of the half to the other. -/
theorem nearest_belowHalf_iff {numerator denominator : Nat} (positive : 0 < denominator)
    (share : numerator ≤ denominator) (small : denominator < Nat.pow 2 52) :
    (nearest numerator denominator).BelowHalf ↔ 2 * numerator < denominator := by
  by_cases zero : numerator = 0
  · simp [nearest, zero, BelowHalf, positive]
  rw [BelowHalf, nearest, if_neg zero]
  obtain ⟨bits, scale⟩ : ∃ bits, scaleOf numerator denominator = bits + 1 :=
    ⟨scaleOf numerator denominator - 1, by have precise := le_scaleOf zero share; omega⟩
  have large : Nat.pow 2 52 ≤ Nat.pow 2 (bits + 1) :=
    Nat.pow_le_pow_right (by decide) (scale ▸ le_scaleOf zero share)
  have whole : Nat.pow 2 (bits + 1) = 2 * Nat.pow 2 bits := Nat.pow_succ'
  simp only [scale, whole] at large ⊢
  -- At this scale one half is a whole significand, and rounding never passes one.
  generalize Nat.pow 2 bits = half at large ⊢
  have above := roundDiv_le (numerator * (2 * half)) denominator
  have below := le_roundDiv (numerator * (2 * half)) positive
  generalize roundDiv (numerator * (2 * half)) denominator = rounded at above below ⊢
  rw [Nat.mul_left_comm numerator 2 half] at above below
  constructor
  · intro less
    by_contra more
    have product := Nat.mul_le_mul_right half (Nat.le_of_not_lt more)
    have nearest := Nat.mul_le_mul_left denominator (by omega : rounded + 1 ≤ half)
    rw [Nat.mul_assoc] at product
    rw [Nat.mul_add, Nat.mul_one] at nearest
    omega
  · intro less
    by_contra more
    have product := Nat.mul_le_mul_right half (Nat.succ_le_of_lt less)
    have nearest := Nat.mul_le_mul_left denominator (by omega : half ≤ rounded)
    rw [Nat.succ_mul, Nat.mul_assoc] at product
    omega

end BinaryFraction

namespace Layout

theorem exists_alignment {layout : Layout} (valid : layout.fault? = none) :
    ∃ bits, layout.alignment = 2 ^ bits := by
  refine ⟨layout.alignment.log2, ?_⟩
  simp only [fault?] at valid
  split at valid
  · contradiction
  · rename_i aligned
    simp only [isPowerOfTwo, Bool.not_eq_true', Bool.not_eq_false, Bool.and_eq_true,
      beq_iff_eq] at aligned
    exact aligned.2.symm

/-- Of two alignments that are powers of two the smaller one divides the greater. -/
theorem alignment_dvd {tight loose : Layout} (valid : tight.fault? = none)
    (looseValid : loose.fault? = none) (finer : tight.alignment ≤ loose.alignment) :
    tight.alignment ∣ loose.alignment := by
  obtain ⟨bits, own⟩ := exists_alignment valid
  obtain ⟨more, other⟩ := exists_alignment looseValid
  rw [own, other] at finer ⊢
  exact Nat.pow_dvd_pow 2 ((Nat.pow_le_pow_iff_right (by decide)).mp finer)

end Layout

namespace ClassifiedSet

variable {set : ClassifiedSet} {tight loose : Layout}

theorem CellInUse.mono (divides : tight.alignment ∣ loose.alignment) {codepoint : Nat}
    (used : set.CellInUse tight codepoint) : set.CellInUse loose codepoint := by
  obtain ⟨bound, u, kept, same⟩ := used
  obtain ⟨factor, product⟩ := divides
  refine ⟨bound, u, kept, ?_⟩
  rw [product, ← Nat.div_div_eq_div_mul, ← Nat.div_div_eq_div_mul, same]

/-- Any list of the codepoints with a category, each once, is as long as there are such. -/
theorem length_eq_used {listed : List Nat} (distinct : listed.Nodup)
    (same : ∀ u, u ∈ listed ↔ set.categoryOf u ≠ .other) : listed.length = set.used := by
  have keys : ((set.entries.toList.filter fun entry => !entry.2.1.isOther).map (·.1)).Nodup := by
    apply List.pairwise_map.mpr
    exact (set.entries_ascend.filter _).imp Nat.ne_of_lt
  have count : set.used =
      ((set.entries.toList.filter fun entry => !entry.2.1.isOther).map (·.1)).length := by
    rw [List.length_map, used, List.countP_eq_length_filter]
  -- Two lists without repetition that hold the same codepoints are as long as each other.
  rw [count]
  refine ((List.perm_ext_iff_of_nodup distinct keys).mpr fun u => ?_).length_eq
  rw [same]
  simp only [categoryOf_ne_other_iff, ← mem_entries, List.mem_map, List.mem_filter,
    Bool.not_eq_true', Prod.exists, exists_and_right, exists_eq_right]

/-- A tighter layout stores no codepoint that a looser one leaves out. -/
theorem covers_spans_mono (inside : set.InCodespace) (valid : tight.fault? = none)
    (looseValid : loose.fault? = none) (nearer : tight.maxGap ≤ loose.maxGap)
    (finer : tight.alignment ≤ loose.alignment) {codepoint : Nat}
    (covered : CodepointRange.Covers (set.spans tight) codepoint) :
    CodepointRange.Covers (set.spans loose) codepoint := by
  rw [covers_spans_iff inside valid] at covered
  rw [covers_spans_iff inside looseValid]
  exact covered.mono nearer fun _ => CellInUse.mono (Layout.alignment_dvd valid looseValid finer)

end ClassifiedSet

namespace DispatchTable

variable {set : ClassifiedSet} {layout : Layout}

theorem total_eq_count (inside : set.InCodespace) (valid : layout.fault? = none) :
    (pack set layout).total = CodepointRange.coveredCount (pack set layout).ranges := by
  rw [total_pack]
  refine length_eq_count (codepoints_nodup inside valid) ?_ _ fun u => mem_codepoints
  intro u listed
  obtain ⟨span, member, held⟩ := mem_codepoints.mp listed
  rw [ranges_pack] at member
  have last := ClassifiedSet.spans_inside inside valid span member
  have stop := (CodepointRange.contains_iff.mp held).2
  omega

/-- No codepoint with a category is left out. -/
theorem mem_codepoints_of_category (inside : set.InCodespace) (valid : layout.fault? = none)
    {u : Nat} (kept : set.categoryOf u ≠ .other) : u ∈ (pack set layout).codepoints := by
  rw [mem_codepoints, ranges_pack]
  exact ClassifiedSet.covers_spans inside valid kept

/-- Each codepoint with a category is stored exactly once. -/
theorem count_codepoints (inside : set.InCodespace) (valid : layout.fault? = none) {u : Nat}
    (kept : set.categoryOf u ≠ .other) : (pack set layout).codepoints.count u = 1 :=
  List.count_eq_one_of_mem (codepoints_nodup inside valid)
    (mem_codepoints_of_category inside valid kept)

theorem used_pack (inside : set.InCodespace) (valid : layout.fault? = none) :
    (pack set layout).used = set.used := by
  have stored : (pack set layout).used =
      ((pack set layout).codepoints.filter fun u => !(set.categoryOf u).isOther).length := by
    change (pack set layout).entries.toList.countP _ = _
    rw [entries_pack, List.countP_map, List.countP_eq_length_filter]
    rfl
  rw [stored]
  refine ClassifiedSet.length_eq_used ((codepoints_nodup inside valid).filter _) fun u => ?_
  simp only [List.mem_filter, Category.isOther, Bool.not_eq_true', decide_eq_false_iff_not]
  exact ⟨And.right, fun kept => ⟨mem_codepoints_of_category inside valid kept, kept⟩⟩

theorem occupancy_pack_belowHalf_iff (inside : set.InCodespace) (valid : layout.fault? = none) :
    (pack set layout).occupancy.BelowHalf ↔
      2 * (pack set layout).used < (pack set layout).total := by
  have share : (pack set layout).used ≤ (pack set layout).total := by
    rw [total, ← Array.length_toList]
    exact List.countP_le_length
  have small : (pack set layout).total ≤ maxCodepoint + 1 := by
    rw [total_eq_count inside valid]
    exact Nat.count_le _
  rw [occupancy]
  split
  · rename_i empty
    rw [BinaryFraction.nearest_belowHalf_iff (by decide) (by decide) (by decide)]
    omega
  · exact BinaryFraction.nearest_belowHalf_iff (by omega) share
      (Nat.lt_of_le_of_lt small (by decide))

theorem ofSet_eq (set : ClassifiedSet) (valid : layout.fault? = none) : ofSet set layout =
    if 2 * (pack set layout).used < (pack set layout).total then
      .error (.sparseTable (pack set layout).used (pack set layout).total)
    else .ok (pack set layout) := by
  rw [ofSet, valid]

/-- A table is refused exactly if it stores something and fewer than half of what it stores
is in use. The numbers in use and in all are those of the codepoints that have a category and
of the codepoints in the regions, in the fault as in the table: each codepoint with a category
has one entry. The share that is printed is below one half exactly where the exact one is. -/
theorem ofSet_occupancy (set : ClassifiedSet) (layout : Layout) (inside : set.InCodespace)
    (valid : layout.fault? = none) :
    let total := CodepointRange.coveredCount (pack set layout).ranges
    (∀ fault, ofSet set layout = .error fault ↔
      (0 < total ∧ 2 * set.used < total) ∧ fault = .sparseTable set.used total) ∧
    (∀ table, ofSet set layout = .ok table ↔
      ¬(0 < total ∧ 2 * set.used < total) ∧ table = pack set layout) ∧
    (pack set layout).used = set.used ∧ (pack set layout).total = total ∧
    (pack set layout).entries.toList = (pack set layout).codepoints.map set.categoryOf ∧
    (∀ u, set.categoryOf u ≠ .other → (pack set layout).codepoints.count u = 1) ∧
    ((pack set layout).occupancy.BelowHalf ↔ 0 < total ∧ 2 * set.used < total) := by
  intro total
  have used := used_pack inside valid
  have whole : (pack set layout).total = total := total_eq_count inside valid
  have sparse : 2 * (pack set layout).used < (pack set layout).total ↔
      0 < total ∧ 2 * set.used < total := by
    rw [used, whole]
    omega
  have outcome := ofSet_eq set valid
  refine ⟨fun fault => ?_, fun table => ?_, used, whole, ?_, ?_, ?_⟩
  · rw [outcome, ← sparse, ← used, ← whole]
    split <;> simp_all [eq_comm]
  · rw [outcome, ← sparse]
    split <;> simp_all [eq_comm]
  · exact entries_pack
  · exact fun u kept => count_codepoints inside valid kept
  · rw [occupancy_pack_belowHalf_iff inside valid, sparse]

/-- Four entries in use of eight are enough, and of thirty-two too few. -/
theorem ofSet_occupancy_twoStretches :
    twoStretches.InCodespace ∧ Layout.fault? ⟨4, 0, 4⟩ = none ∧ Layout.fault? ⟨4, 25, 4⟩ = none ∧
      ofSet twoStretches ⟨4, 0, 4⟩ = .ok (pack twoStretches ⟨4, 0, 4⟩) ∧
      CodepointRange.coveredCount (pack twoStretches ⟨4, 0, 4⟩).ranges = 8 ∧
      ofSet twoStretches ⟨4, 25, 4⟩ = .error (.sparseTable 4 32) ∧
      CodepointRange.coveredCount (pack twoStretches ⟨4, 25, 4⟩).ranges = 32 := by
  have inside : twoStretches.InCodespace := by decide
  have valid : Layout.fault? ⟨4, 0, 4⟩ = none := by decide
  have validToo : Layout.fault? ⟨4, 25, 4⟩ = none := by decide
  obtain ⟨_, succeeds, _, total, _⟩ := ofSet_occupancy twoStretches _ inside valid
  obtain ⟨fails, _, _, totalToo, _⟩ := ofSet_occupancy twoStretches _ inside validToo
  have used : twoStretches.used = 4 := by decide
  have eight : (pack twoStretches ⟨4, 0, 4⟩).total = 8 := by decide
  have more : (pack twoStretches ⟨4, 25, 4⟩).total = 32 := by decide
  rw [← total, used, eight] at succeeds
  rw [← totalToo, used, more] at fails
  exact ⟨inside, valid, validToo, (succeeds _).mpr ⟨by decide, rfl⟩, total.symm.trans eight,
    (fails _).mpr ⟨by decide, rfl⟩, totalToo.symm.trans more⟩

theorem exists_ofSet_iff (valid : layout.fault? = none) :
    (∃ table, ofSet set layout = .ok table) ↔
      (pack set layout).total ≤ 2 * (pack set layout).used := by
  rw [ofSet_eq set valid]
  split <;> simp <;> omega

/-- Of two layouts the one with the smaller gap and the smaller alignment stores no codepoint
that the other does not, and the same number of entries in use among no more in all. So it is
never refused for a set that the other one has a table for. -/
theorem pack_tighter (set : ClassifiedSet) (inside : set.InCodespace) (tight loose : Layout)
    (valid : tight.fault? = none) (looseValid : loose.fault? = none)
    (nearer : tight.maxGap ≤ loose.maxGap) (finer : tight.alignment ≤ loose.alignment) :
    (∀ u, CodepointRange.Covers (pack set tight).ranges u →
      CodepointRange.Covers (pack set loose).ranges u) ∧
    (pack set tight).used = (pack set loose).used ∧
    (pack set tight).total ≤ (pack set loose).total ∧
    ((∃ table, ofSet set loose = .ok table) → ∃ table, ofSet set tight = .ok table) := by
  have stored : ∀ u, CodepointRange.Covers (pack set tight).ranges u →
      CodepointRange.Covers (pack set loose).ranges u := by
    intro u
    rw [ranges_pack, ranges_pack]
    exact ClassifiedSet.covers_spans_mono inside valid looseValid nearer finer
  have used : (pack set tight).used = (pack set loose).used := by
    rw [used_pack inside valid, used_pack inside looseValid]
  have totals : (pack set tight).total ≤ (pack set loose).total := by
    rw [total_eq_count inside valid, total_eq_count inside looseValid]
    exact Nat.count_mono_left fun u _ => stored u
  refine ⟨stored, used, totals, ?_⟩
  rw [exists_ofSet_iff looseValid, exists_ofSet_iff valid]
  omega

theorem pack_tighter_twoStretches :
    twoStretches.InCodespace ∧ Layout.fault? ⟨2, 0, 4⟩ = none ∧ Layout.fault? ⟨4, 1, 5⟩ = none ∧
      (pack twoStretches ⟨2, 0, 4⟩).total = 6 ∧ (pack twoStretches ⟨4, 1, 5⟩).total = 8 ∧
      ∃ table, ofSet twoStretches ⟨2, 0, 4⟩ = .ok table := by
  have inside : twoStretches.InCodespace := by decide
  have valid : Layout.fault? ⟨2, 0, 4⟩ = none := by decide
  have looseValid : Layout.fault? ⟨4, 1, 5⟩ = none := by decide
  obtain ⟨_, _, _, builds⟩ :=
    pack_tighter twoStretches inside _ _ valid looseValid (by decide) (by decide)
  exact ⟨inside, valid, looseValid, by decide, by decide, builds ⟨_, rfl⟩⟩

end DispatchTable

end ShapingTables
