import ShapingTables.Proofs.BlockHandles

/-! Blocks of codepoints against the ranges that were inserted. A lookup answers with the
handle of the range that starts last at or before the codepoint, the earliest of those that
start there. Among disjoint ranges that is the only one which holds the codepoint, whatever
the order in which they came. -/
namespace ShapingTables.BlockTable

open RangeTable (ConsultedFirst StartsApart)

/-- What a table answers, in terms of the ranges inserted and the names given with them. The block
of a range is the handle of its name. -/
structure Located (table : BlockTable) (lines : List (CodepointRange × String)) : Prop where
  sorted : table.ranges.Pairwise fun left right => right.1.first ≤ left.1.first
  kept : (table.ranges.map fun entry => (entry.1, some entry.2)).Perm
    (lines.map fun line => (line.1, table.find? line.2))
  consulted : ∀ u place range name, ConsultedFirst lines u place (range, name) →
    range.contains u = true → table.find? name = some (table.blockOf u)
  otherwise : ∀ u, (∀ place range name, ConsultedFirst lines u place (range, name) →
    range.contains u = false) → table.blockOf u = .unnamed
  covered : StartsApart lines → ∀ u range name, (range, name) ∈ lines → range.contains u = true →
    table.find? name = some (table.blockOf u)
  uncovered : ∀ u, (∀ line ∈ lines, line.1.contains u = false) → table.blockOf u = .unnamed

/-- The handles that a codepoint has in two tables are handles of one name. They are equal where
the tables number their names alike, and lead back to one name where handles stand for names. -/
structure SameBlock (table other : BlockTable) (u : Nat) : Prop where
  name : ∃ name, table.find? name = some (table.blockOf u) ∧
    other.find? name = some (other.blockOf u)
  handle : (∀ name, table.find? name = other.find? name) → table.blockOf u = other.blockOf u
  readBack : table.names.size ≤ 65536 → other.names.size ≤ 65536 →
    table.name (table.blockOf u) = other.name (other.blockOf u)

variable {steps : List Step} {u : Nat} {block : Block}

theorem assigned_range (table : BlockTable) (line : CodepointRange × String) :
    (table.assigned line).1 = line.1 := rfl

theorem assigned_find? {line : CodepointRange × String} (inserted : line ∈ insertions steps) :
    some ((after steps).assigned line).2 = (after steps).find? line.2 := by
  obtain ⟨block, found⟩ := exists_find?_of_mem_insertions inserted
  rw [assigned, found, Option.getD_some]

theorem find?_ranges_iff : (after steps).ranges.find? u = some block ↔
    ∃ place range name, ConsultedFirst (insertions steps) u place (range, name) ∧
      range.contains u = true ∧ (after steps).find? name = some block := by
  have arranged := RangeTable.arranges_ofInsertions ((insertions steps).map (after steps).assigned)
  rw [ranges_after, arranged.find?_iff]
  constructor
  · rintro ⟨place, range, consulted, held⟩
    obtain ⟨first, consulted⟩ := RangeTable.exists_consulted_reverse_iff.mp ⟨place, consulted⟩
    obtain ⟨⟨_, name⟩, original, same⟩ :=
      (RangeTable.consultedFirst_map_iff (assigned_range _)).mp consulted
    obtain ⟨rfl, rfl⟩ := Prod.mk.inj same
    have found := assigned_find? (List.mem_of_getElem? original.here)
    exact ⟨first, _, name, original, held, found.symm⟩
  · rintro ⟨place, range, name, consulted, held, found⟩
    have own := assigned_find? (List.mem_of_getElem? consulted.here)
    rw [found, Option.some.injEq] at own
    obtain ⟨last, consulted⟩ := RangeTable.exists_consulted_reverse_iff.mpr
      ⟨place, (RangeTable.consultedFirst_map_iff (assigned_range _)).mpr ⟨_, consulted, rfl⟩⟩
    exact ⟨last, range, own ▸ consulted, held⟩

theorem located_after (steps : List Step) : (after steps).Located (insertions steps) := by
  have consulted : ∀ u place range name, ConsultedFirst (insertions steps) u place (range, name) →
      range.contains u = true → (after steps).find? name = some ((after steps).blockOf u) := by
    intro u place range name consulted held
    obtain ⟨block, found⟩ := exists_find?_of_mem_insertions (List.mem_of_getElem? consulted.here)
    rw [blockOf, find?_ranges_iff.mpr ⟨place, range, name, consulted, held, found⟩, found,
      Option.getD_some]
  have otherwise : ∀ u, (∀ place range name, ConsultedFirst (insertions steps) u place (range, name) →
      range.contains u = false) → (after steps).blockOf u = .unnamed := by
    intro u outside
    rw [blockOf]
    cases found : (after steps).ranges.find? u with
    | none => rfl
    | some block =>
      obtain ⟨place, range, name, consulted, held, _⟩ := find?_ranges_iff.mp found
      rw [outside place range name consulted] at held
      contradiction
  refine ⟨?_, ?_, consulted, otherwise, ?_, fun u outside => ?_⟩
  · rw [ranges_after]
    exact (RangeTable.arranges_ofInsertions _).descends
  · have perm := (RangeTable.ofInsertions_perm ((insertions steps).map (after steps).assigned)).map
      fun entry => (entry.1, some entry.2)
    rw [← ranges_after, List.map_map] at perm
    refine perm.trans (.of_eq (List.map_congr_left fun line inserted => ?_))
    exact Prod.ext rfl (assigned_find? inserted)
  · intro apart u range name inserted held
    obtain ⟨place, last⟩ := (apart.perm (List.reverse_perm _)).exists_consulted
      (List.mem_reverse.mpr inserted) held
    obtain ⟨first, earliest⟩ := RangeTable.exists_consulted_reverse_iff.mp ⟨place, last⟩
    exact consulted u first range name earliest held
  · exact otherwise u fun place range name consulted =>
      outside (range, name) (List.mem_of_getElem? consulted.here)

theorem SameBlock.of_name {table other : BlockTable} {name : String}
    (first : table.find? name = some (table.blockOf u))
    (second : other.find? name = some (other.blockOf u)) : SameBlock table other u := by
  refine ⟨⟨name, first, second⟩, fun alike => ?_, fun few fewToo => ?_⟩
  · rw [alike name, second] at first
    exact (Option.some.inj first).symm
  · rw [name_of_find? few first, name_of_find? fewToo second]

/-- Insertions keep every range in its order, and a lookup answers for the range consulted. Where
the ranges are disjoint that is the only one to hold the codepoint, and its block is the same in
whatever order they were inserted. -/
theorem after_located : (∀ steps, (after steps).Located (insertions steps)) ∧
    (∀ steps others, (insertions others).Perm (insertions steps) →
      StartsApart (insertions steps) → ∀ u, SameBlock (after steps) (after others) u) ∧
    ∀ lines : List (CodepointRange × String), (∀ line ∈ lines, line.1.first ≤ line.1.last) →
      (StartsApart lines ↔ RangeTable.Disjoint lines) := by
  refine ⟨located_after, fun steps others same apart u => ?_,
    fun lines => RangeTable.startsApart_iff_disjoint⟩
  have first := located_after steps
  have second := located_after others
  by_cases held : ∃ line ∈ insertions steps, line.1.contains u = true
  · obtain ⟨⟨range, name⟩, inserted, held⟩ := held
    exact .of_name (first.covered apart u range name inserted held)
      (second.covered (apart.perm same) u range name (same.mem_iff.mpr inserted) held)
  · have outside : ∀ line ∈ insertions steps, line.1.contains u = false := fun line inserted =>
      Bool.eq_false_iff.mpr fun own => held ⟨line, inserted, own⟩
    have none := first.uncovered u outside
    have noneToo := second.uncovered u fun line inserted => outside line (same.mem_iff.mp inserted)
    refine SameBlock.of_name (none ▸ find?_after_unnamed steps) ?_
    rw [noneToo, find?_after_unnamed]

/-- Three blocks, the last one first. -/
def shuffledSteps : List Step := [.insert ⟨0x0E00, 0x0E7F⟩ "Thai", .insert ⟨0, 0x7F⟩ "Basic Latin",
  .insert ⟨0x0900, 0x097F⟩ "Devanagari"]

/-- The same blocks in order, behind a name that is asked for before its range comes. -/
def ascendingSteps : List Step := [.intern "Devanagari", .insert ⟨0, 0x7F⟩ "Basic Latin",
  .insert ⟨0x0900, 0x097F⟩ "Devanagari", .insert ⟨0x0E00, 0x0E7F⟩ "Thai"]

theorem after_located_shuffledSteps :
    (after shuffledSteps).Located (insertions shuffledSteps) ∧
      (insertions ascendingSteps).Perm (insertions shuffledSteps) ∧
      StartsApart (insertions shuffledSteps) ∧
      RangeTable.Disjoint (insertions shuffledSteps) ∧
      (after shuffledSteps).blockOf 0x0E01 = ⟨1⟩ ∧ (after ascendingSteps).blockOf 0x0E01 = ⟨3⟩ ∧
      SameBlock (after shuffledSteps) (after ascendingSteps) 0x0E01 := by
  obtain ⟨located, same, disjoint_iff⟩ := after_located
  have perm : (insertions ascendingSteps).Perm (insertions shuffledSteps) := by decide
  have filled : ∀ line ∈ insertions shuffledSteps, line.1.first ≤ line.1.last := by decide
  have apart : StartsApart (insertions shuffledSteps) := by
    rw [StartsApart]
    decide
  refine ⟨located _, perm, apart, (disjoint_iff _ filled).mp apart, ?_, ?_,
    same _ _ perm apart 0x0E01⟩ <;> decide +kernel

end ShapingTables.BlockTable
