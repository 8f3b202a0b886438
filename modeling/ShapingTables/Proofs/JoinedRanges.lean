import ShapingTables.Proofs.Ranges

/-! Joining the ranges of an ordered list. What is joined covers exactly the codepoints
between covered ones that are at most the gap apart, and neighbours in it are further apart
than that, so a gap of one or more leaves one list for each set of codepoints. Word arithmetic
that stops at its top makes no difference as long as the starts are words. -/
namespace ShapingTables

theorem le_wordSum_iff {a b c : Nat} (word : c ≤ 0xFFFFFFFF) : c ≤ wordSum a b ↔ c ≤ a + b := by
  simp only [wordSum]; omega

/-- Two members that are at most `gap` apart stand around the number, or the number is one. -/
def Bridged (gap : Nat) (member : Nat → Prop) (number : Nat) : Prop :=
  ∃ low high, member low ∧ member high ∧ low ≤ number ∧ number ≤ high ∧ high ≤ low + gap

namespace Bridged

variable {gap wider number : Nat} {member other : Nat → Prop}

theorem of_member (own : member number) : Bridged gap member number :=
  ⟨number, number, own, own, Nat.le_refl _, Nat.le_refl _, Nat.le_add_right _ _⟩

theorem mono (bridged : Bridged gap member number) (reach : gap ≤ wider)
    (within : ∀ n, member n → other n) : Bridged wider other number := by
  obtain ⟨low, high, first, last, below, above, near⟩ := bridged
  exact ⟨low, high, within low first, within high last, below, above, by omega⟩

/-- Nothing lies between members that are one apart. -/
theorem iff_of_le_one (reach : gap ≤ 1) : Bridged gap member number ↔ member number := by
  constructor
  · rintro ⟨low, high, first, last, below, above, near⟩
    rcases Nat.eq_or_lt_of_le below with rfl | inside
    · exact first
    · have same : high = number := by omega
      exact same ▸ last
  · exact of_member

theorem zero_iff : Bridged 0 member number ↔ member number := iff_of_le_one (by decide)

/-- Bridging numbers that are bridged already adds none. -/
theorem idem (bridged : Bridged gap (Bridged gap member) number) : Bridged gap member number := by
  obtain ⟨low, high, ⟨a, b, memberA, memberB, _, _, _⟩, ⟨c, d, memberC, memberD, _, _, _⟩, _⟩ :=
    bridged
  rcases Nat.lt_or_ge number b with inside | behind
  · exact ⟨a, b, memberA, memberB, by omega, by omega, by omega⟩
  rcases Nat.lt_or_ge c number with inside | before
  · exact ⟨c, d, memberC, memberD, by omega, by omega, by omega⟩
  · exact ⟨b, c, memberB, memberC, behind, before, by omega⟩

/-- Members that were bridged before may be left out. -/
theorem iff_of_between (kept : ∀ n, member n → other n) (added : ∀ n, other n → Bridged gap member n) :
    Bridged gap other number ↔ Bridged gap member number :=
  ⟨fun bridged => (bridged.mono (Nat.le_refl _) added).idem,
    fun bridged => bridged.mono (Nat.le_refl _) kept⟩

end Bridged

namespace CodepointRange

/-- Joining never moves the start of the range that is extended. -/
theorem exists_joinFrom_eq_cons (gap : Nat) (current : CodepointRange)
    (ranges : List CodepointRange) :
    ∃ last rest, joinFrom gap current ranges = ⟨current.first, last⟩ :: rest := by
  induction ranges generalizing current with
  | nil => exact ⟨current.last, [], rfl⟩
  | cons range rest ih =>
    rw [joinFrom]
    split
    · exact ih _
    · exact ⟨_, _, rfl⟩

/-- The top of the word is never reached by a sum that decides. -/
theorem Joinable.reaches_iff {current range : CodepointRange} {rest : List CodepointRange}
    (valid : Joinable (current :: range :: rest)) (gap : Nat) :
    range.first ≤ wordSum current.last gap ↔ range.first ≤ current.last + gap :=
  le_wordSum_iff (valid.words range (by simp))

/-- Nothing that is joined starts in front of the range that was extended. -/
theorem joinFrom_starts (gap : Nat) (current : CodepointRange) (ranges : List CodepointRange)
    (valid : Joinable (current :: ranges)) :
    ∀ span ∈ joinFrom gap current ranges, current.first ≤ span.first := by
  induction ranges generalizing current with
  | nil => simp [joinFrom]
  | cons range rest ih =>
    intro span member
    rw [joinFrom] at member
    split at member
    · exact ih _ valid.merge span member
    · rcases List.mem_cons.mp member with rfl | member
      · exact Nat.le_refl _
      · have step := (List.pairwise_cons.mp valid.starts).1 range (by simp)
        exact Nat.le_trans step (ih range valid.tail span member)

theorem joinFrom_separated (gap : Nat) (current : CodepointRange) (ranges : List CodepointRange)
    (valid : Joinable (current :: ranges)) : Separated gap (joinFrom gap current ranges) := by
  induction ranges generalizing current with
  | nil =>
    exact separated_cons.mpr ⟨valid.nonempty _ (by simp), by simp, ⟨by simp, .nil⟩⟩
  | cons range rest ih =>
    rw [joinFrom]
    split
    · exact ih _ valid.merge
    · rename_i distant
      rw [valid.reaches_iff] at distant
      refine separated_cons.mpr ⟨valid.nonempty _ (by simp), ?_, ih range valid.tail⟩
      intro next member
      have later := joinFrom_starts gap range rest valid.tail next member
      omega

/-- Extending a range over the next one bridges the codepoints between them and adds no other. -/
theorem Joinable.bridged_merge {gap : Nat} {current range : CodepointRange}
    {rest : List CodepointRange} (valid : Joinable (current :: range :: rest))
    (near : range.first ≤ current.last + gap) (codepoint : Nat) :
    Bridged gap (Covers (⟨current.first, max current.last range.last⟩ :: rest)) codepoint ↔
      Bridged gap (Covers (current :: range :: rest)) codepoint := by
  have order := (List.pairwise_cons.mp valid.starts).1 range (by simp)
  have first := valid.nonempty current (by simp)
  have next : range ∈ current :: range :: rest := by simp
  have second := valid.nonempty range next
  apply Bridged.iff_of_between
  · intro u covered
    simp only [covers_cons, contains_iff] at covered ⊢
    rcases covered with own | own | later
    · exact .inl (by omega)
    · exact .inl (by omega)
    · exact .inr later
  · intro u covered
    simp only [covers_cons, contains_iff] at covered
    rcases covered with own | later
    · by_cases here : u ≤ current.last
      · exact .of_member (covers_of_mem (by simp) own.1 here)
      by_cases there : range.first ≤ u
      · exact .of_member (covers_of_mem next there (by omega))
      -- Between the two ranges: the end of the one and the start of the other are the bridge.
      · exact ⟨current.last, range.first, covers_of_mem (by simp) first (Nat.le_refl _),
          covers_of_mem next (Nat.le_refl _) second, by omega, by omega, near⟩
    · exact .of_member (covers_cons.mpr (.inr (covers_cons.mpr (.inr later))))

theorem covers_joinFrom (gap : Nat) (current : CodepointRange) (ranges : List CodepointRange)
    (valid : Joinable (current :: ranges)) (codepoint : Nat) :
    Covers (joinFrom gap current ranges) codepoint ↔
      Bridged gap (Covers (current :: ranges)) codepoint := by
  induction ranges generalizing current with
  | nil =>
    constructor
    · exact .of_member
    · rintro ⟨low, high, first, last, below, above, _⟩
      simp only [joinFrom, Covers, List.mem_singleton, exists_eq_left, contains_iff] at *
      omega
  | cons range rest ih =>
    rw [joinFrom]
    split
    · rename_i near
      rw [ih _ valid.merge, valid.bridged_merge ((valid.reaches_iff gap).mp near)]
    · rename_i distant
      rw [valid.reaches_iff] at distant
      have behind : ∀ u, Covers (range :: rest) u → current.last + gap < u := by
        intro u covered
        have above := first_le_of_covers valid.tail.starts covered
        omega
      rw [covers_cons, ih range valid.tail]
      constructor
      · rintro (own | later)
        · exact .of_member (covers_cons.mpr (.inl own))
        · exact later.mono (Nat.le_refl _) fun u held => covers_cons.mpr (.inr held)
      · rintro ⟨low, high, first, last, below, above, near⟩
        -- A bridge cannot lead from the first range to a later one, nor back.
        rcases covers_cons.mp first with start | start <;> rcases covers_cons.mp last with stop | stop
        · exact .inl (by simp only [contains_iff] at *; omega)
        · have far := behind high stop
          simp only [contains_iff] at start
          omega
        · have far := behind low start
          simp only [contains_iff] at stop
          omega
        · exact .inr ⟨low, high, start, stop, below, above, near⟩

variable {gap : Nat} {ranges : List CodepointRange}

theorem joinWithin_separated (valid : Joinable ranges) : Separated gap (joinWithin gap ranges) := by
  cases ranges with
  | nil => exact ⟨by simp [joinWithin], .nil⟩
  | cons range rest => exact joinFrom_separated gap range rest valid

theorem joinWithin_ascending (valid : Joinable ranges) : Ascending (joinWithin gap ranges) :=
  (joinWithin_separated valid).ascending

/-- What is joined covers what was covered and what lies on a bridge, and nothing else. -/
theorem covers_joinWithin (valid : Joinable ranges) (codepoint : Nat) :
    Covers (joinWithin gap ranges) codepoint ↔ Bridged gap (Covers ranges) codepoint := by
  cases ranges with
  | nil => simp [joinWithin, Covers, Bridged]
  | cons range rest => exact covers_joinFrom gap range rest valid codepoint

theorem joinWithin_inside (valid : Ordered ranges) :
    ∀ span ∈ joinWithin gap ranges, span.last ≤ maxCodepoint := by
  intro span member
  have order := (joinWithin_separated valid.joinable).nonempty span member
  obtain ⟨_, high, _, ⟨range, origin, held⟩, _, above, _⟩ :=
    (covers_joinWithin valid.joinable span.last).mp (covers_of_mem member order (Nat.le_refl _))
  have inside := valid.inside range origin
  have stop := (contains_iff.mp held).2
  omega

section Canonical

variable {range : CodepointRange} {rest : List CodepointRange}

theorem Separated.first_le (valid : Separated gap (range :: rest)) {u : Nat}
    (covered : Covers (range :: rest) u) : range.first ≤ u := by
  obtain ⟨order, before, _⟩ := separated_cons.mp valid
  obtain ⟨next, member, held⟩ := covered
  have start := (contains_iff.mp held).1
  rcases List.mem_cons.mp member with rfl | member
  · exact start
  · have later := before next member
    omega

theorem Separated.covers_rest_iff (valid : Separated gap (range :: rest)) (u : Nat) :
    Covers rest u ↔ range.last < u ∧ Covers (range :: rest) u := by
  obtain ⟨_, before, _⟩ := separated_cons.mp valid
  rw [covers_cons, contains_iff]
  constructor
  · rintro ⟨next, member, held⟩
    have later := before next member
    have start := (contains_iff.mp held).1
    exact ⟨by omega, .inr ⟨next, member, held⟩⟩
  · rintro ⟨behind, own | covered⟩
    · omega
    · exact covered

/-- The codepoint behind a range is a hole. -/
theorem Separated.uncovered (hole : 1 ≤ gap) (valid : Separated gap ranges)
    (member : range ∈ ranges) : ¬Covers ranges (range.last + 1) := by
  induction ranges with
  | nil => contradiction
  | cons head tail ih =>
    obtain ⟨_, before, later⟩ := separated_cons.mp valid
    rcases List.mem_cons.mp member with rfl | member
    · rintro ⟨next, held, covered⟩
      have bounds := contains_iff.mp covered
      rcases List.mem_cons.mp held with rfl | held
      · omega
      · have far := before next held
        omega
    · intro covered
      have far := before range member
      have order := later.nonempty range member
      exact ih later member ((valid.covers_rest_iff _).mpr ⟨by omega, covered⟩)

/-- The first range ends no later than that of a list that covers as much. -/
theorem Separated.last_le (hole : 1 ≤ gap) {other : CodepointRange} {others : List CodepointRange}
    (second : Separated gap (other :: others)) (starts : range.first = other.first)
    (within : ∀ u, Covers (range :: rest) u → Covers (other :: others) u) :
    range.last ≤ other.last := by
  apply Nat.le_of_not_lt
  intro longer
  have order := second.nonempty other (by simp)
  have covered : Covers (range :: rest) (other.last + 1) :=
    covers_of_mem List.mem_cons_self (by omega) longer
  exact second.uncovered hole List.mem_cons_self (within _ covered)

/-- With a hole between neighbours, ranges are known from the codepoints that they cover. -/
theorem Separated.eq_of_covers (hole : 1 ≤ gap) {other : List CodepointRange}
    (first : Separated gap ranges) (second : Separated gap other)
    (same : ∀ u, Covers ranges u ↔ Covers other u) : ranges = other := by
  induction ranges generalizing other with
  | nil =>
    cases other with
    | nil => rfl
    | cons head tail =>
      have order := second.nonempty head (by simp)
      obtain ⟨_, member, _⟩ := (same head.first).mpr (covers_of_mem (by simp) (Nat.le_refl _) order)
      contradiction
  | cons range rest ih =>
    have order := first.nonempty range (by simp)
    have start : Covers (range :: rest) range.first := covers_of_mem (by simp) (Nat.le_refl _) order
    cases other with
    | nil =>
      obtain ⟨_, member, _⟩ := (same range.first).mp start
      contradiction
    | cons head tail =>
      have headOrder := second.nonempty head (by simp)
      have headStart : Covers (head :: tail) head.first :=
        covers_of_mem (by simp) (Nat.le_refl _) headOrder
      have starts : range.first = head.first :=
        Nat.le_antisymm (first.first_le ((same _).mpr headStart)) (second.first_le ((same _).mp start))
      have ends : range.last = head.last :=
        Nat.le_antisymm (last_le hole second starts fun u => (same u).mp)
          (last_le hole first starts.symm fun u => (same u).mpr)
      have heads : range = head := by
        cases range
        cases head
        simp_all
      subst heads
      congr 1
      refine ih (separated_cons.mp first).2.2 (separated_cons.mp second).2.2 fun u => ?_
      rw [first.covers_rest_iff, second.covers_rest_iff, same]

end Canonical

end CodepointRange

end ShapingTables
