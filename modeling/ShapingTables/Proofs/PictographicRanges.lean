import ShapingTables.Pictographic
import ShapingTables.Proofs.DataLines
import ShapingTables.Proofs.JoinedRanges

/-! Pictographic codepoints against the ranges that a set is made of. The ranges may come in any
order and overlap, be nested, touch or be empty; joining leaves the lookup, which consults a
single range, nothing to miss. A set of codepoints is stored in one form only. -/
namespace ShapingTables.PictographicSet

open CodepointRange

variable {range : CodepointRange} {ranges rest : List CodepointRange} {u : Nat}

/-- Ranges of words, each of which holds something. -/
structure Filled (ranges : List CodepointRange) : Prop where
  nonempty : ∀ range ∈ ranges, range.first ≤ range.last
  words : ∀ range ∈ ranges, range.last ≤ 0xFFFFFFFF

/-- The one form in which the codepoints of some ranges are stored. Behind each stored range is a
codepoint that is not in the set. -/
structure StoredFrom (ranges : List CodepointRange) (set : PictographicSet) : Prop where
  separated : Separated 1 set.ranges
  hole : ∀ range ∈ set.ranges, set.contains (range.last + 1) = false
  covers : ∀ u, Covers set.ranges u ↔ Covers ranges u
  again : ofRanges set.ranges = set
  only : ∀ others, Filled others → (∀ u, Covers others u ↔ Covers ranges u) → ofRanges others = set

theorem contains_nil (u : Nat) : contains ⟨[]⟩ u = false := rfl

theorem contains_singleton (range : CodepointRange) (u : Nat) :
    contains ⟨[range]⟩ u = range.contains u := by
  by_cases starts : range.first ≤ u <;> simp [contains, CodepointRange.contains, starts]

/-- In front of the second range only the first can be consulted. -/
theorem contains_of_lt (next : CodepointRange) (before : u < next.first) :
    contains ⟨range :: next :: rest⟩ u = range.contains u := by
  have stops : ¬next.first ≤ u := by omega
  by_cases starts : range.first ≤ u <;> simp [contains, CodepointRange.contains, starts, stops]

/-- From the start of the second range on the first is not consulted. -/
theorem contains_of_le (next : CodepointRange) (starts : range.first ≤ u) (later : next.first ≤ u) :
    contains ⟨range :: next :: rest⟩ u = contains ⟨next :: rest⟩ u := by
  simp [contains, starts, later]

/-- What is left of the ranges after joining holds what they held, even where some are empty. -/
theorem contains_joinFrom (current : CodepointRange) (ranges : List CodepointRange)
    (starts : (current :: ranges).Pairwise fun left right => left.first ≤ right.first)
    (words : ∀ range ∈ ranges, range.first ≤ 0xFFFFFFFF) (u : Nat) :
    contains ⟨joinFrom 1 current ranges⟩ u = true ↔ Covers (current :: ranges) u := by
  induction ranges generalizing current with
  | nil => simp [joinFrom, contains_singleton, Covers]
  | cons range rest ih =>
    obtain ⟨order, later⟩ := List.pairwise_cons.mp starts
    obtain ⟨word, words⟩ := List.forall_mem_cons.mp words
    have first := order range (by simp)
    rw [joinFrom]
    split
    · rename_i near
      rw [le_wordSum_iff word] at near
      have merged : (⟨current.first, max current.last range.last⟩ :: rest).Pairwise
          fun left right => left.first ≤ right.first :=
        List.pairwise_cons.mpr ⟨fun next member => order next (by simp [member]), later.of_cons⟩
      rw [ih _ merged words, covers_cons, covers_cons, covers_cons, ← or_assoc]
      -- The two ranges touch, so the extended one has no codepoint of its own.
      refine or_congr ?_ Iff.rfl
      simp only [contains_iff]
      omega
    · rename_i distant
      rw [le_wordSum_iff word] at distant
      have joined := ih range later words
      obtain ⟨last, more, shape⟩ := exists_joinFrom_eq_cons 1 range rest
      rw [shape] at joined ⊢
      rcases Nat.lt_or_ge u range.first with before | behind
      · have ahead : ¬Covers (range :: rest) u := fun covered =>
          Nat.not_le_of_lt before (first_le_of_covers later covered)
        rw [contains_of_lt ⟨range.first, last⟩ before]
        exact (covers_cons.trans (or_iff_left ahead)).symm
      · have past : ¬current.contains u = true := by
          rw [contains_iff]
          omega
        rw [contains_of_le ⟨range.first, last⟩ (Nat.le_trans first behind) behind, joined]
        exact (covers_cons.trans (or_iff_right past)).symm

theorem contains_joinWithin
    (starts : ranges.Pairwise fun left right => left.first ≤ right.first)
    (words : ∀ range ∈ ranges, range.first ≤ 0xFFFFFFFF) (u : Nat) :
    contains ⟨joinWithin 1 ranges⟩ u = true ↔ Covers ranges u := by
  cases ranges with
  | nil => simp [joinWithin, contains_nil, Covers]
  | cons range rest =>
    exact contains_joinFrom range rest starts (List.forall_mem_cons.mp words).2 u

theorem precedes_iff {left right : CodepointRange} :
    (left.first < right.first || (left.first == right.first && left.last ≤ right.last)) = true ↔
      left.first < right.first ∨ (left.first = right.first ∧ left.last ≤ right.last) := by
  simp

/-- A set is made by joining its ranges in the order of their starts. -/
theorem exists_sorted (ranges : List CodepointRange) : ∃ sorted, sorted.Perm ranges ∧
    sorted.Pairwise (fun left right => left.first ≤ right.first) ∧
    ofRanges ranges = ⟨joinWithin 1 sorted⟩ := by
  refine ⟨_, List.mergeSort_perm ranges _, ?_, rfl⟩
  refine (List.pairwise_mergeSort ?_ ?_ ranges).imp ?_
  · intro a b c first second
    rw [precedes_iff] at *
    omega
  · intro a b
    rw [Bool.or_eq_true, precedes_iff, precedes_iff]
    omega
  · intro a b order
    rw [precedes_iff] at order
    omega

theorem covers_perm {sorted : List CodepointRange} (perm : sorted.Perm ranges) (u : Nat) :
    Covers sorted u ↔ Covers ranges u := by
  simp only [Covers, perm.mem_iff]

theorem contains_ofRanges (words : ∀ range ∈ ranges, range.first ≤ 0xFFFFFFFF) (u : Nat) :
    (ofRanges ranges).contains u = true ↔ Covers ranges u := by
  obtain ⟨sorted, perm, starts, made⟩ := exists_sorted ranges
  rw [made, contains_joinWithin starts fun range member => words range (perm.mem_iff.mp member)]
  exact covers_perm perm u

theorem Filled.starts (filled : Filled ranges) : ∀ range ∈ ranges, range.first ≤ 0xFFFFFFFF :=
  fun range member => Nat.le_trans (filled.nonempty range member) (filled.words range member)

theorem Filled.exists_joinable (filled : Filled ranges) : ∃ sorted, sorted.Perm ranges ∧
    Joinable sorted ∧ ofRanges ranges = ⟨joinWithin 1 sorted⟩ := by
  obtain ⟨sorted, perm, starts, made⟩ := exists_sorted ranges
  exact ⟨sorted, perm, ⟨fun range member => filled.nonempty range (perm.mem_iff.mp member), starts,
    fun range member => filled.starts range (perm.mem_iff.mp member)⟩, made⟩

theorem Filled.separated (filled : Filled ranges) : Separated 1 (ofRanges ranges).ranges := by
  obtain ⟨sorted, _, joinable, made⟩ := filled.exists_joinable
  exact made ▸ joinWithin_separated joinable

theorem Filled.covers_iff (filled : Filled ranges) (u : Nat) :
    Covers (ofRanges ranges).ranges u ↔ Covers ranges u := by
  obtain ⟨sorted, perm, joinable, made⟩ := filled.exists_joinable
  rw [made, covers_joinWithin joinable, Bridged.iff_of_le_one (Nat.le_refl 1), covers_perm perm]

/-- The stored ranges end where given ones do, so they are ranges of words too. -/
theorem Filled.stored (filled : Filled ranges) : Filled (ofRanges ranges).ranges := by
  refine ⟨filled.separated.nonempty, fun range member => ?_⟩
  have order := filled.separated.nonempty range member
  obtain ⟨own, given, held⟩ := (filled.covers_iff _).mp (covers_of_mem member order (Nat.le_refl _))
  exact Nat.le_trans (contains_iff.mp held).2 (filled.words own given)

theorem Filled.ofRanges_eq {others : List CodepointRange} (filled : Filled ranges)
    (other : Filled others) (same : ∀ u, Covers others u ↔ Covers ranges u) :
    ofRanges others = ofRanges ranges := by
  have stored : (ofRanges others).ranges = (ofRanges ranges).ranges :=
    other.separated.eq_of_covers (Nat.le_refl 1) filled.separated fun u => by
      rw [other.covers_iff, same, filled.covers_iff]
  exact congrArg PictographicSet.mk stored

theorem Filled.storedFrom (filled : Filled ranges) : StoredFrom ranges (ofRanges ranges) := by
  refine ⟨filled.separated, fun range member => ?_, filled.covers_iff,
    filled.ofRanges_eq filled.stored filled.covers_iff, fun others other => filled.ofRanges_eq other⟩
  rw [Bool.eq_false_iff, ne_eq, contains_ofRanges filled.starts, ← filled.covers_iff]
  exact filled.separated.uncovered (Nat.le_refl 1) member

/-- The ranges of the rows that have the property. -/
def ofRows (rows : List DataFile.Row) : List CodepointRange :=
  (rows.filter fun row => row.field? 1 == some propertyName).map (·.range)

theorem covers_ofRows (rows : List DataFile.Row) (u : Nat) : Covers (ofRows rows) u ↔
    ∃ row ∈ rows, row.field? 1 = some propertyName ∧ row.range.contains u = true := by
  constructor
  · rintro ⟨_, member, held⟩
    obtain ⟨row, kept, rfl⟩ := List.mem_map.mp member
    obtain ⟨listed, named⟩ := List.mem_filter.mp kept
    exact ⟨row, listed, beq_iff_eq.mp named, held⟩
  · rintro ⟨row, listed, named, held⟩
    exact ⟨_, List.mem_map_of_mem (List.mem_filter.mpr ⟨listed, beq_iff_eq.mpr named⟩), held⟩

theorem filled_ofRows {text : String} {rows : List DataFile.Row}
    (read : DataFile.rows .plain text = .ok rows) : Filled (ofRows rows) := by
  have bounds : ∀ range ∈ ofRows rows, range.first ≤ range.last ∧ range.last ≤ maxCodepoint := by
    intro range member
    obtain ⟨row, kept, rfl⟩ := List.mem_map.mp member
    exact DataFile.range_of_rows read (List.mem_filter.mp kept).1
  refine ⟨fun range member => (bounds range member).1, fun range member => ?_⟩
  exact Nat.le_trans (bounds range member).2 (by decide)

theorem ofText_eq_ok {text : String} {set : PictographicSet} (built : ofText text = .ok set) :
    ∃ rows, DataFile.rows .plain text = .ok rows ∧ set = ofRanges (ofRows rows) := by
  rw [ofText] at built
  cases read : DataFile.rows .plain text with
  | error fault =>
    rw [read] at built
    contradiction
  | ok rows =>
    rw [read] at built
    exact ⟨rows, rfl, (Except.ok.inj built).symm⟩

/-- A set holds the codepoints of the ranges that it is made of, whatever their order. Where every
range holds something it is stored in one form, which depends on those codepoints alone. The set
of a text holds the codepoints of its rows that have the property. -/
theorem ofRanges_canonical :
    (∀ ranges, (∀ range ∈ ranges, range.first ≤ 0xFFFFFFFF) →
      ∀ u, (ofRanges ranges).contains u = true ↔ Covers ranges u) ∧
    (∀ ranges, Filled ranges → StoredFrom ranges (ofRanges ranges)) ∧
    ∀ text set, ofText text = .ok set → ∃ rows, DataFile.rows .plain text = .ok rows ∧
      StoredFrom (ofRows rows) set ∧ ∀ u, set.contains u = true ↔
        ∃ row ∈ rows, row.field? 1 = some propertyName ∧ row.range.contains u = true := by
  refine ⟨fun ranges => contains_ofRanges, fun ranges => Filled.storedFrom, ?_⟩
  intro text set built
  obtain ⟨rows, read, rfl⟩ := ofText_eq_ok built
  have filled := filled_ofRows read
  refine ⟨rows, read, filled.storedFrom, fun u => ?_⟩
  rw [contains_ofRanges filled.starts, covers_ofRows]

/-- Ranges that touch or are nested, in no order. -/
def shuffledRanges : List CodepointRange :=
  [⟨0x1F10D, 0x1F10F⟩, ⟨0x1F000, 0x1F0FF⟩, ⟨0x1F005, 0x1F006⟩, ⟨0x1F100, 0x1F10C⟩]

/-- Ranges at the top of the word, and one whose ends are out of order. -/
def topRanges : List CodepointRange := [⟨0xFFFFFFFF, 0xFFFFFFFF⟩, ⟨9, 3⟩, ⟨0xFFFFFF00, 0xFFFFFFFE⟩]

/-- The shuffled ranges as rows, among them one of another property. -/
def shuffledText : String :=
  "1F10D..1F10F ; Extended_Pictographic# 5.2\n1F000..1F0FF ; Extended_Pictographic\n" ++
  "0023 ; Emoji # number sign\n1F005..1F006 ; Extended_Pictographic\n" ++
  "1F100..1F10C ; Extended_Pictographic"

theorem ofRanges_canonical_shuffledRanges : Filled shuffledRanges ∧
    ofRanges shuffledRanges = ⟨[⟨0x1F000, 0x1F10F⟩]⟩ ∧
    (ofRanges topRanges).contains 0xFFFFFFFF = true ∧ (ofRanges topRanges).contains 9 = false ∧
    ∃ set, ofText shuffledText = .ok set ∧ set = ofRanges shuffledRanges ∧
      set.contains 0x0023 = false := by
  obtain ⟨contains_iff_covers, stored, ofText_stored⟩ := ofRanges_canonical
  have filled : Filled shuffledRanges := ⟨by decide, by decide⟩
  have whole : Filled [⟨0x1F000, 0x1F10F⟩] := ⟨by decide, by decide⟩
  have same : ∀ u, Covers [⟨0x1F000, 0x1F10F⟩] u ↔ Covers shuffledRanges u := by
    intro u
    simp only [shuffledRanges, Covers, List.mem_cons, List.not_mem_nil, or_false,
      exists_eq_or_imp, exists_eq_left, contains_iff]
    omega
  have words : ∀ range ∈ topRanges, range.first ≤ 0xFFFFFFFF := by decide
  refine ⟨filled, ?_, ?_, ?_, ?_⟩
  · rw [← (stored _ filled).only _ whole same, ofRanges, List.mergeSort_singleton]
    rfl
  · exact (contains_iff_covers _ words _).mpr ⟨⟨0xFFFFFFFF, 0xFFFFFFFF⟩, by decide, by decide⟩
  · rw [Bool.eq_false_iff, ne_eq, contains_iff_covers _ words, Covers]
    decide
  · obtain ⟨set, built, _⟩ : ∃ set, ofText shuffledText = .ok set ∧ true = true :=
      exists_of_any (by decide +kernel)
    obtain ⟨rows, read, form, holds⟩ := ofText_stored _ _ built
    have listed : ofRows rows = shuffledRanges := by
      have own : (DataFile.rows .plain shuffledText).map ofRows = .ok shuffledRanges := by
        decide +kernel
      rw [read] at own
      exact Except.ok.inj own
    rw [listed] at form
    refine ⟨set, built, (form.only _ filled fun _ => Iff.rfl).symm, ?_⟩
    have other : ¬∃ row ∈ rows, row.field? 1 = some propertyName ∧ row.range.contains 0x0023 = true := by
      rw [← covers_ofRows, listed, Covers]
      decide
    exact Bool.eq_false_iff.mpr fun held => other ((holds _).mp held)

end ShapingTables.PictographicSet
