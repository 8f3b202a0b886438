import ShapingTables.Codepoint

/-! Lists of codepoint ranges by the codepoints that they cover. Ascending ranges hold
each of their codepoints once; ordered ranges may overlap and can still be joined. -/
namespace ShapingTables

namespace CodepointRange

theorem contains_iff {range : CodepointRange} {codepoint : Nat} :
    range.contains codepoint = true ↔ range.first ≤ codepoint ∧ codepoint ≤ range.last := by
  simp [contains]

/-- The quotients of a range's codepoints are all those between the quotients of its ends. -/
theorem exists_div_eq_iff {range : CodepointRange} {divisor : Nat} (positive : 0 < divisor)
    (order : range.first ≤ range.last) (quotient : Nat) :
    (∃ u, range.contains u = true ∧ u / divisor = quotient) ↔
      range.first / divisor ≤ quotient ∧ quotient ≤ range.last / divisor := by
  constructor
  · rintro ⟨u, held, rfl⟩
    obtain ⟨above, below⟩ := contains_iff.mp held
    exact ⟨Nat.div_le_div_right above, Nat.div_le_div_right below⟩
  · rintro ⟨above, below⟩
    have least := (Nat.le_div_iff_mul_le positive).mp below
    -- The least codepoint with the quotient may lie in front of the range.
    rcases Nat.le_total range.first (quotient * divisor) with before | behind
    · exact ⟨quotient * divisor, contains_iff.mpr ⟨before, least⟩, Nat.mul_div_cancel _ positive⟩
    · exact ⟨range.first, contains_iff.mpr ⟨Nat.le_refl _, order⟩,
        Nat.le_antisymm above ((Nat.le_div_iff_mul_le positive).mpr behind)⟩

def Covers (ranges : List CodepointRange) (codepoint : Nat) : Prop :=
  ∃ range ∈ ranges, range.contains codepoint = true

/-- Ranges that hold something, in ascending order and without overlap. -/
structure Ascending (ranges : List CodepointRange) : Prop where
  nonempty : ∀ range ∈ ranges, range.first ≤ range.last
  apart : ranges.Pairwise fun left right => left.last < right.first

/-- Ranges that hold something, each more than `gap` behind the ends of those before it. -/
structure Separated (gap : Nat) (ranges : List CodepointRange) : Prop where
  nonempty : ∀ range ∈ ranges, range.first ≤ range.last
  apart : ranges.Pairwise fun left right => left.last + gap < right.first

/-- Ranges of the codespace in the order of their starts; they may overlap. -/
structure Ordered (ranges : List CodepointRange) : Prop where
  nonempty : ∀ range ∈ ranges, range.first ≤ range.last
  starts : ranges.Pairwise fun left right => left.first ≤ right.first
  inside : ∀ range ∈ ranges, range.last ≤ maxCodepoint

/-- Ranges in the order of their starts, all of which fit into a word; they may overlap. -/
structure Joinable (ranges : List CodepointRange) : Prop where
  nonempty : ∀ range ∈ ranges, range.first ≤ range.last
  starts : ranges.Pairwise fun left right => left.first ≤ right.first
  words : ∀ range ∈ ranges, range.first ≤ 0xFFFFFFFF

@[simp] theorem covers_cons {range : CodepointRange} {rest : List CodepointRange} {codepoint : Nat} :
    Covers (range :: rest) codepoint ↔ range.contains codepoint = true ∨ Covers rest codepoint := by
  simp [Covers]

theorem covers_of_mem {range : CodepointRange} {ranges : List CodepointRange} {codepoint : Nat}
    (member : range ∈ ranges) (start : range.first ≤ codepoint) (stop : codepoint ≤ range.last) :
    Covers ranges codepoint :=
  ⟨range, member, contains_iff.mpr ⟨start, stop⟩⟩

/-- Nothing is covered in front of the earliest start. -/
theorem first_le_of_covers {range : CodepointRange} {rest : List CodepointRange} {codepoint : Nat}
    (starts : (range :: rest).Pairwise fun left right => left.first ≤ right.first)
    (covered : Covers (range :: rest) codepoint) : range.first ≤ codepoint := by
  obtain ⟨next, member, held⟩ := covered
  have above := (contains_iff.mp held).1
  rcases List.mem_cons.mp member with rfl | member
  · exact above
  · exact Nat.le_trans ((List.pairwise_cons.mp starts).1 next member) above

theorem ascending_nil : Ascending [] := ⟨by simp, .nil⟩

theorem separated_cons {gap : Nat} {range : CodepointRange} {rest : List CodepointRange} :
    Separated gap (range :: rest) ↔ range.first ≤ range.last ∧
      (∀ next ∈ rest, range.last + gap < next.first) ∧ Separated gap rest := by
  constructor
  · intro valid
    obtain ⟨before, apart⟩ := List.pairwise_cons.mp valid.apart
    obtain ⟨own, others⟩ := List.forall_mem_cons.mp valid.nonempty
    exact ⟨own, before, others, apart⟩
  · rintro ⟨own, before, valid⟩
    exact ⟨List.forall_mem_cons.mpr ⟨own, valid.nonempty⟩,
      List.pairwise_cons.mpr ⟨before, valid.apart⟩⟩

theorem Separated.ascending {gap : Nat} {ranges : List CodepointRange}
    (valid : Separated gap ranges) : Ascending ranges :=
  ⟨valid.nonempty, valid.apart.imp fun apart => by omega⟩

theorem ascending_iff {ranges : List CodepointRange} : Ascending ranges ↔ Separated 0 ranges :=
  ⟨fun valid => ⟨valid.nonempty, valid.apart⟩, Separated.ascending⟩

theorem ascending_cons {range : CodepointRange} {rest : List CodepointRange} :
    Ascending (range :: rest) ↔
      range.first ≤ range.last ∧ (∀ next ∈ rest, range.last < next.first) ∧ Ascending rest := by
  rw [ascending_iff, ascending_iff]
  exact separated_cons

/-- Disjoint ranges hold no more codepoints than there are up to their last one. -/
theorem Ascending.length_le {ranges : List CodepointRange} {bound : Nat}
    (valid : Ascending ranges) (inside : ∀ range ∈ ranges, range.last ≤ bound) (low : Nat)
    (above : ∀ range ∈ ranges, low ≤ range.first) :
    (ranges.flatMap toList).length ≤ bound + 1 - low := by
  induction ranges generalizing low with
  | nil => simp
  | cons range rest ih =>
    obtain ⟨nonempty, before, ascend⟩ := ascending_cons.mp valid
    obtain ⟨last, others⟩ := List.forall_mem_cons.mp inside
    have start := above range List.mem_cons_self
    have later := ih ascend others (range.last + 1) before
    rw [List.flatMap_cons, List.length_append, length_toList, size]
    omega

theorem Ascending.firsts_nodup {ranges : List CodepointRange} (valid : Ascending ranges) :
    (ranges.map (·.first)).Nodup := by
  induction ranges with
  | nil => exact .nil
  | cons range rest ih =>
    obtain ⟨nonempty, before, ascend⟩ := ascending_cons.mp valid
    refine List.nodup_cons.mpr ⟨?_, ih ascend⟩
    intro member
    obtain ⟨next, origin, same⟩ := List.mem_map.mp member
    have later := before next origin
    have equal : next.first = range.first := same
    omega

theorem Ordered.joinable {ranges : List CodepointRange} (valid : Ordered ranges) :
    Joinable ranges := by
  refine ⟨valid.nonempty, valid.starts, fun range member => ?_⟩
  have order := valid.nonempty range member
  have inside := valid.inside range member
  simp only [maxCodepoint] at inside
  omega

theorem Ordered.filter {ranges : List CodepointRange} (valid : Ordered ranges)
    (keeps : CodepointRange → Bool) : Ordered (ranges.filter keeps) :=
  ⟨fun next member => valid.nonempty next (List.mem_filter.mp member).1,
    valid.starts.filter keeps, fun next member => valid.inside next (List.mem_filter.mp member).1⟩

theorem Joinable.tail {range : CodepointRange} {rest : List CodepointRange}
    (valid : Joinable (range :: rest)) : Joinable rest :=
  ⟨fun next member => valid.nonempty next (List.mem_cons_of_mem _ member),
    valid.starts.of_cons, fun next member => valid.words next (List.mem_cons_of_mem _ member)⟩

/-- Extending the first range over the second keeps the order. -/
theorem Joinable.merge {current range : CodepointRange} {rest : List CodepointRange}
    (valid : Joinable (current :: range :: rest)) :
    Joinable (⟨current.first, max current.last range.last⟩ :: rest) := by
  have own := valid.nonempty current (by simp)
  obtain ⟨starts, later⟩ := List.pairwise_cons.mp valid.starts
  refine ⟨?_, List.pairwise_cons.mpr ⟨?_, later.of_cons⟩, ?_⟩
  · intro next member
    rcases List.mem_cons.mp member with rfl | member
    · simp only; omega
    · exact valid.tail.tail.nonempty next member
  · intro next member
    exact starts next (List.mem_cons_of_mem _ member)
  · intro next member
    rcases List.mem_cons.mp member with rfl | member
    · exact valid.words current (by simp)
    · exact valid.tail.tail.words next member

end CodepointRange

end ShapingTables
