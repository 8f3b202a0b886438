import ShapingTables.Run
import ShapingTables.Proofs.Ranges

/-! The runs of a classified set against its entries. A codepoint lies in a run
exactly if its entry is not `other`, and the run has the category and the block of
that entry; runs ascend and do not overlap. -/
namespace ShapingTables

/-- Entries in strictly ascending order of their codepoints. -/
def EntriesAscend (entries : List (Nat × Category × Block)) : Prop :=
  entries.Pairwise fun left right => left.1 < right.1

theorem ClassifiedSet.entries_ascend (set : ClassifiedSet) : EntriesAscend set.entries.toList := by
  apply set.entries.ordered_keys_toList.imp
  intro left right order
  simpa [Nat.compare_eq_lt] using order

theorem ClassifiedSet.mem_entries (set : ClassifiedSet) (codepoint : Nat) (category : Category)
    (block : Block) : (codepoint, category, block) ∈ set.entries.toList ↔
      set.entries[codepoint]? = some (category, block) :=
  Std.TreeMap.mem_toList_iff_getElem?_eq_some

theorem ClassifiedSet.categoryOf_ne_other_iff (set : ClassifiedSet) (codepoint : Nat) :
    set.categoryOf codepoint ≠ .other ↔ ∃ category block,
      set.entries[codepoint]? = some (category, block) ∧ category.isOther = false := by
  rw [categoryOf]
  cases set.entries[codepoint]? with
  | none => simp
  | some entry => simp [Prod.ext_iff, eq_comm, Category.isOther]

namespace Run

/-- One of the runs stores this category and this block for the codepoint. -/
def Stores (runs : List Run) (codepoint : Nat) (category : Category) (block : Block) : Prop :=
  ∃ run ∈ runs, run.range.contains codepoint = true ∧ run.category = category ∧ run.block = block

def ranges (runs : List Run) : List CodepointRange := runs.map (·.range)

theorem stores_cons {run : Run} {rest : List Run} {codepoint : Nat} {category : Category}
    {block : Block} : Stores (run :: rest) codepoint category block ↔
      (run.range.contains codepoint = true ∧ run.category = category ∧ run.block = block) ∨
        Stores rest codepoint category block := by
  simp [Stores]

/-- Only the new codepoint is added, wherever it is put. -/
theorem stores_runCons (codepoint : Nat) (category : Category) (block : Block) (runs : List Run)
    (below : ∀ run ∈ runs, codepoint < run.range.first ∧ run.range.first ≤ run.range.last)
    (other : Nat) (found : Category) (place : Block) :
    Stores (cons codepoint category block runs) other found place ↔
      (other = codepoint ∧ found = category ∧ place = block) ∨ Stores runs other found place := by
  have alone : (⟨.single codepoint, category, block⟩ : Run).range.contains other = true ↔
      other = codepoint := by
    simp only [CodepointRange.single, CodepointRange.contains_iff]; omega
  cases runs with
  | nil => simp only [cons, stores_cons, alone, @eq_comm _ category, @eq_comm _ block]
  | cons run rest =>
    have near := below run List.mem_cons_self
    rw [cons]
    split
    · rename_i joined
      obtain ⟨next, rfl, rfl⟩ := joined
      have wider : (⟨codepoint, run.range.last⟩ : CodepointRange).contains other = true ↔
          other = codepoint ∨ run.range.contains other = true := by
        simp only [CodepointRange.contains_iff]; omega
      simp only [stores_cons, wider]
      constructor
      · rintro (⟨rfl | held, rfl, rfl⟩ | later)
        · exact .inl ⟨rfl, rfl, rfl⟩
        · exact .inr (.inl ⟨held, rfl, rfl⟩)
        · exact .inr (.inr later)
      · rintro (⟨rfl, rfl, rfl⟩ | ⟨held, rfl, rfl⟩ | later)
        · exact .inl ⟨.inl rfl, rfl, rfl⟩
        · exact .inl ⟨.inr held, rfl, rfl⟩
        · exact .inr later
    · rw [stores_cons, alone, @eq_comm _ category, @eq_comm _ block]

theorem runCons_ascending (codepoint : Nat) (category : Category) (block : Block) (runs : List Run)
    (below : ∀ run ∈ runs, codepoint < run.range.first)
    (valid : CodepointRange.Ascending (ranges runs)) :
    CodepointRange.Ascending (ranges (cons codepoint category block runs)) := by
  cases runs with
  | nil => simp [cons, ranges, CodepointRange.ascending_cons, CodepointRange.ascending_nil,
      CodepointRange.single]
  | cons run rest =>
    have near := below run List.mem_cons_self
    obtain ⟨own, before, later⟩ : run.range.first ≤ run.range.last ∧ _ :=
      CodepointRange.ascending_cons.mp valid
    rw [cons]
    split
    · exact CodepointRange.ascending_cons.mpr ⟨by simp only; omega, before, later⟩
    · refine CodepointRange.ascending_cons.mpr ⟨Nat.le_refl _, ?_, valid⟩
      intro next member
      obtain ⟨other, origin, rfl⟩ := List.mem_map.mp member
      exact below other origin

/-- What the runs of ascending entries store, and that they are in order. -/
theorem ofEntries_spec (entries : List (Nat × Category × Block)) (ascend : EntriesAscend entries) :
    CodepointRange.Ascending (ranges (ofEntries entries)) ∧
      ∀ codepoint category block, Stores (ofEntries entries) codepoint category block ↔
        (codepoint, category, block) ∈ entries ∧ category.isOther = false := by
  induction entries with
  | nil => exact ⟨CodepointRange.ascending_nil, by simp [ofEntries, Stores]⟩
  | cons entry rest ih =>
    obtain ⟨codepoint, category, block⟩ := entry
    obtain ⟨before, ascend⟩ := List.pairwise_cons.mp ascend
    obtain ⟨valid, stored⟩ := ih ascend
    have step : ofEntries ((codepoint, category, block) :: rest) =
      if category.isOther then ofEntries rest else cons codepoint category block (ofEntries rest) := rfl
    have below : ∀ run ∈ ofEntries rest,
        codepoint < run.range.first ∧ run.range.first ≤ run.range.last := by
      intro run member
      have order := valid.nonempty _ (List.mem_map_of_mem member)
      have start : Stores (ofEntries rest) run.range.first run.category run.block :=
        ⟨run, member, CodepointRange.contains_iff.mpr ⟨Nat.le_refl _, order⟩, rfl, rfl⟩
      exact ⟨before _ ((stored _ _ _).mp start).1, order⟩
    rw [step]
    split
    · rename_i other
      refine ⟨valid, fun u found place => ?_⟩
      rw [stored, List.mem_cons, Prod.mk.injEq, Prod.mk.injEq]
      constructor
      · exact fun ⟨member, kept⟩ => ⟨.inr member, kept⟩
      · rintro ⟨⟨rfl, rfl, rfl⟩ | member, kept⟩
        · simp [other] at kept
        · exact ⟨member, kept⟩
    · rename_i kept
      refine ⟨runCons_ascending _ _ _ _ (fun run member => (below run member).1) valid,
        fun u found place => ?_⟩
      rw [stores_runCons _ _ _ _ below, stored, List.mem_cons, Prod.mk.injEq, Prod.mk.injEq]
      constructor
      · rintro (⟨rfl, rfl, rfl⟩ | ⟨member, other⟩)
        · exact ⟨.inl ⟨rfl, rfl, rfl⟩, by simpa using kept⟩
        · exact ⟨.inr member, other⟩
      · rintro ⟨⟨rfl, rfl, rfl⟩ | member, other⟩
        · exact .inl ⟨rfl, rfl, rfl⟩
        · exact .inr ⟨member, other⟩

end Run

namespace ClassifiedSet

variable (set : ClassifiedSet)

theorem runs_ascending : CodepointRange.Ascending (Run.ranges set.runs) :=
  (Run.ofEntries_spec _ set.entries_ascend).1

theorem stores_runs (codepoint : Nat) (category : Category) (block : Block) :
    Run.Stores set.runs codepoint category block ↔
      set.entries[codepoint]? = some (category, block) ∧ category.isOther = false := by
  rw [← set.mem_entries]
  exact (Run.ofEntries_spec _ set.entries_ascend).2 codepoint category block

/-- The runs cover exactly the codepoints with a category other than `other`. -/
theorem covers_runs (codepoint : Nat) :
    CodepointRange.Covers (Run.ranges set.runs) codepoint ↔ set.categoryOf codepoint ≠ .other := by
  simp only [categoryOf_ne_other_iff, ← stores_runs]
  constructor
  · rintro ⟨_, member, held⟩
    obtain ⟨run, origin, rfl⟩ := List.mem_map.mp member
    exact ⟨run.category, run.block, run, origin, held, rfl, rfl⟩
  · rintro ⟨_, _, run, member, held, _, _⟩
    exact ⟨run.range, List.mem_map_of_mem member, held⟩

/-- Every codepoint of a run has an entry. -/
theorem mem_entries_of_runs {run : Run} (member : run ∈ set.runs) {codepoint : Nat}
    (held : run.range.contains codepoint = true) : codepoint ∈ set.entries := by
  have entry := (set.stores_runs codepoint run.category run.block).mp ⟨run, member, held, rfl, rfl⟩
  rw [Std.TreeMap.mem_iff_isSome_getElem?, entry.1]
  rfl

end ClassifiedSet

end ShapingTables
