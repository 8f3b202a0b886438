import Mathlib.Data.List.Chain
import ShapingTables.Proofs.Runs

/-! The runs of a classified set are as long as they can be: two that touch differ in
their category or their block. There is only one such list of runs for a set, so the runs
are known from what they store. -/
namespace ShapingTables

namespace Run

/-- Neighbours that touch differ in their category or in their block. -/
def Maximal (runs : List Run) : Prop :=
  runs.IsChain fun left right => left.range.last + 1 = right.range.first →
    left.category ≠ right.category ∨ left.block ≠ right.block

/-- Only the end of a run and its values matter to its neighbour behind. -/
theorem Maximal.widen {run : Run} {rest : List Run} (maximal : Maximal (run :: rest))
    (first : Nat) : Maximal ({ run with range := ⟨first, run.range.last⟩ } :: rest) := by
  cases rest with
  | nil => exact .singleton _
  | cons next rest => exact List.isChain_cons_cons.mpr (List.isChain_cons_cons.mp maximal)

/-- A codepoint that touches the first run either joins it or differs from it. -/
theorem runCons_maximal (codepoint : Nat) (category : Category) (block : Block) {runs : List Run}
    (maximal : Maximal runs) : Maximal (cons codepoint category block runs) := by
  cases runs with
  | nil => exact .singleton _
  | cons run rest =>
    rw [cons]
    split
    · exact maximal.widen codepoint
    · rename_i apart
      refine List.isChain_cons_cons.mpr ⟨fun touching => ?_, maximal⟩
      by_cases same : category = run.category
      · exact .inr fun sameBlock => apart ⟨touching, same, sameBlock⟩
      · exact .inl same

theorem ofEntries_maximal (entries : List (Nat × Category × Block)) :
    Maximal (ofEntries entries) := by
  induction entries with
  | nil => exact .nil
  | cons entry rest ih =>
    obtain ⟨codepoint, category, block⟩ := entry
    have step : ofEntries ((codepoint, category, block) :: rest) =
      if category.isOther then ofEntries rest else cons codepoint category block (ofEntries rest) := rfl
    rw [step]
    split
    · exact ih
    · exact runCons_maximal codepoint category block ih

section Unique

variable {run other : Run} {rest others : List Run} {u : Nat} {category : Category} {block : Block}

theorem ascending_runs_cons : CodepointRange.Ascending (ranges (run :: rest)) ↔
    run.range.first ≤ run.range.last ∧ (∀ next ∈ rest, run.range.last < next.range.first) ∧
      CodepointRange.Ascending (ranges rest) := by
  rw [ranges, List.map_cons, CodepointRange.ascending_cons, List.forall_mem_map]
  exact Iff.rfl

theorem Stores.first_le (ascending : CodepointRange.Ascending (ranges (run :: rest)))
    (stored : Stores (run :: rest) u category block) : run.range.first ≤ u := by
  obtain ⟨length, before, _⟩ := ascending_runs_cons.mp ascending
  obtain ⟨holder, member, held, _, _⟩ := stored
  have start := (CodepointRange.contains_iff.mp held).1
  rcases List.mem_cons.mp member with rfl | later
  · exact start
  · have behind := before holder later
    omega

/-- The runs behind the first one store what is stored behind its end. -/
theorem stores_rest_iff (ascending : CodepointRange.Ascending (ranges (run :: rest))) :
    Stores rest u category block ↔ run.range.last < u ∧ Stores (run :: rest) u category block := by
  obtain ⟨_, before, _⟩ := ascending_runs_cons.mp ascending
  rw [stores_cons, CodepointRange.contains_iff]
  constructor
  · rintro ⟨holder, later, held, values⟩
    have behind := before holder later
    have start := (CodepointRange.contains_iff.mp held).1
    exact ⟨by omega, .inr ⟨holder, later, held, values⟩⟩
  · rintro ⟨behind, ⟨⟨_, stop⟩, _⟩ | stored⟩
    · omega
    · exact stored

/-- Up to the end of the first run its values are the ones that are stored. -/
theorem Stores.values_first (ascending : CodepointRange.Ascending (ranges (run :: rest)))
    (stored : Stores (run :: rest) u category block) (within : u ≤ run.range.last) :
    run.category = category ∧ run.block = block := by
  rcases stores_cons.mp stored with ⟨_, values⟩ | later
  · exact values
  · have behind := ((stores_rest_iff ascending).mp later).1
    omega

theorem stores_first (ascending : CodepointRange.Ascending (ranges (run :: rest))) :
    Stores (run :: rest) run.range.first run.category run.block :=
  ⟨run, List.mem_cons_self, CodepointRange.contains_iff.mpr
    ⟨Nat.le_refl _, (ascending_runs_cons.mp ascending).1⟩, rfl, rfl⟩

/-- The values of the first run do not go on behind its end. -/
theorem Maximal.stops (maximal : Maximal (run :: rest))
    (ascending : CodepointRange.Ascending (ranges (run :: rest))) :
    ¬Stores (run :: rest) (run.range.last + 1) run.category run.block := by
  intro goesOn
  have stored := (stores_rest_iff ascending).mpr ⟨Nat.lt_succ_self _, goesOn⟩
  obtain ⟨_, before, later⟩ := ascending_runs_cons.mp ascending
  cases rest with
  | nil => simp [Stores] at stored
  | cons next rest =>
    have behind := before next List.mem_cons_self
    have start := stored.first_le later
    have length := (ascending_runs_cons.mp later).1
    -- The next run starts there, so it is the one that stores the values.
    obtain ⟨sameCategory, sameBlock⟩ := stored.values_first later (by omega)
    rcases (List.isChain_cons_cons.mp maximal).1 (by omega) with different | different
    · exact different sameCategory.symm
    · exact different sameBlock.symm

/-- The first run ends no later than that of maximal runs which store as much. -/
theorem Maximal.last_le (maximal : Maximal (other :: others))
    (ascending : CodepointRange.Ascending (ranges (other :: others)))
    (starts : run.range.first = other.range.first) (sameCategory : run.category = other.category)
    (sameBlock : run.block = other.block)
    (within : ∀ u category block, Stores (run :: rest) u category block →
      Stores (other :: others) u category block) : run.range.last ≤ other.range.last := by
  apply Nat.le_of_not_lt
  intro longer
  have length := (ascending_runs_cons.mp ascending).1
  have held : run.range.contains (other.range.last + 1) = true :=
    CodepointRange.contains_iff.mpr ⟨by omega, longer⟩
  exact maximal.stops ascending
    (within _ _ _ ⟨run, List.mem_cons_self, held, sameCategory, sameBlock⟩)

/-- Maximal runs that store the same values are the same. -/
theorem Maximal.eq_of_stores {runs others : List Run} (maximal : Maximal runs)
    (otherMaximal : Maximal others) (ascending : CodepointRange.Ascending (ranges runs))
    (otherAscending : CodepointRange.Ascending (ranges others))
    (same : ∀ u category block, Stores runs u category block ↔ Stores others u category block) :
    runs = others := by
  induction runs generalizing others with
  | nil =>
    cases others with
    | nil => rfl
    | cons head tail => simpa [Stores] using (same _ _ _).mpr (stores_first otherAscending)
  | cons run rest ih =>
    cases others with
    | nil => simpa [Stores] using (same _ _ _).mp (stores_first ascending)
    | cons head tail =>
      have start := (same _ _ _).mp (stores_first ascending)
      have headStart := (same _ _ _).mpr (stores_first otherAscending)
      have starts : run.range.first = head.range.first :=
        Nat.le_antisymm (headStart.first_le ascending) (start.first_le otherAscending)
      have length := (ascending_runs_cons.mp otherAscending).1
      obtain ⟨sameCategory, sameBlock⟩ := start.values_first otherAscending (by omega)
      have ends : run.range.last = head.range.last := Nat.le_antisymm
        (otherMaximal.last_le otherAscending starts sameCategory.symm sameBlock.symm
          fun u category block => (same u category block).mp)
        (maximal.last_le ascending starts.symm sameCategory sameBlock
          fun u category block => (same u category block).mpr)
      have heads : run = head := by
        obtain ⟨⟨_, _⟩, _, _⟩ := run
        obtain ⟨⟨_, _⟩, _, _⟩ := head
        simp_all
      subst heads
      congr 1
      refine ih maximal.of_cons otherMaximal.of_cons (ascending_runs_cons.mp ascending).2.2
        (ascending_runs_cons.mp otherAscending).2.2 fun u category block => ?_
      rw [stores_rest_iff ascending, stores_rest_iff otherAscending, same]

end Unique

end Run

namespace ClassifiedSet

variable {set : ClassifiedSet} {runs : List Run}

/-- The runs hold the codepoints of the set that are not `other`, each with the values that
the set has for it, and none of them could be longer. -/
structure CutInto (set : ClassifiedSet) (runs : List Run) : Prop where
  ascending : CodepointRange.Ascending (Run.ranges runs)
  covers : ∀ u, (∃ run ∈ runs, run.range.contains u = true) ↔ set.categoryOf u ≠ .other
  stored : ∀ run ∈ runs, ∀ u, run.range.contains u = true →
    set.entries[u]? = some (run.category, run.block)
  maximal : Run.Maximal runs

/-- What is stored by runs that a set is cut into. -/
theorem CutInto.stores_iff (cut : set.CutInto runs) (u : Nat) (category : Category) (block : Block) :
    Run.Stores runs u category block ↔
      set.entries[u]? = some (category, block) ∧ category.isOther = false := by
  constructor
  · rintro ⟨run, member, held, rfl, rfl⟩
    have entry := cut.stored run member u held
    have shaped := (cut.covers u).mp ⟨run, member, held⟩
    obtain ⟨category, block, found, kept⟩ := (set.categoryOf_ne_other_iff u).mp shaped
    obtain ⟨rfl, rfl⟩ := Prod.mk.inj (Option.some.inj (entry.symm.trans found))
    exact ⟨entry, kept⟩
  · rintro ⟨entry, kept⟩
    have shaped := (set.categoryOf_ne_other_iff u).mpr ⟨category, block, entry, kept⟩
    obtain ⟨run, member, held⟩ := (cut.covers u).mpr shaped
    have values := (cut.stored run member u held).symm.trans entry
    obtain ⟨rfl, rfl⟩ := Prod.mk.inj (Option.some.inj values)
    exact ⟨run, member, held, rfl, rfl⟩

theorem cutInto_runs (set : ClassifiedSet) : set.CutInto set.runs := by
  refine ⟨set.runs_ascending, fun u => ?_, fun run member u held => ?_,
    Run.ofEntries_maximal set.entries.toList⟩
  · rw [← set.covers_runs, CodepointRange.Covers, Run.ranges]
    simp
  · exact ((set.stores_runs u run.category run.block).mp ⟨run, member, held, rfl, rfl⟩).1

/-- A set is cut into runs in exactly one way. -/
theorem cutInto_iff (set : ClassifiedSet) (runs : List Run) : set.CutInto runs ↔ runs = set.runs := by
  constructor
  · intro cut
    refine cut.maximal.eq_of_stores (Run.ofEntries_maximal _) cut.ascending set.runs_ascending ?_
    intro u category block
    rw [cut.stores_iff, set.stores_runs]
  · rintro rfl
    exact set.cutInto_runs

end ClassifiedSet

end ShapingTables
