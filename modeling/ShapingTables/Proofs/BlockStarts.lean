import ShapingTables.Proofs.Lookup
import ShapingTables.Proofs.MaximalRuns

/-! Where named blocks begin. A codepoint of a named block begins it unless the closest
codepoint below in a named block has the same one; those without a category and those
outside every block do not come in between. -/
namespace ShapingTables

/-- Of the codepoints with a named block, `v` is the last one below `u`. -/
structure LastBelow (named : Nat → Block → Prop) (v u : Nat) (previous : Block) : Prop where
  stored : named v previous
  below : v < u
  last : ∀ w block, named w block → w < u → w ≤ v

/-- The codepoint has a category and a block with a name. -/
def ClassifiedSet.Named (set : ClassifiedSet) (codepoint : Nat) (block : Block) : Prop :=
  ∃ category, set.entries[codepoint]? = some (category, block) ∧ category.isOther = false ∧
    block ≠ .unnamed

namespace Run

/-- The runs store a block with a name for the codepoint. -/
def Named (runs : List Run) (codepoint : Nat) (block : Block) : Prop :=
  block ≠ .unnamed ∧ ∃ category, Stores runs codepoint category block

/-- The block of the last named codepoint below `u`, or `previous` if there is none. -/
def BlockBelow (runs : List Run) (previous : Block) (u : Nat) (block : Block) : Prop :=
  (∃ v, LastBelow (Named runs) v u block) ∨
    (block = previous ∧ ∀ v other, Named runs v other → u ≤ v)

section Cons

variable {run : Run} {rest : List Run} {u : Nat} {block : Block}

theorem named_cons : Named (run :: rest) u block ↔
    (run.block ≠ .unnamed ∧ run.range.contains u = true ∧ run.block = block) ∨
      Named rest u block := by
  simp only [Named, stores_cons]
  constructor
  · rintro ⟨named, category, ⟨held, _, rfl⟩ | stored⟩
    · exact .inl ⟨named, held, rfl⟩
    · exact .inr ⟨named, category, stored⟩
  · rintro (⟨named, held, rfl⟩ | ⟨named, category, stored⟩)
    · exact ⟨named, run.category, .inl ⟨held, rfl, rfl⟩⟩
    · exact ⟨named, category, .inr stored⟩

/-- A run outside every block adds no named codepoint. -/
theorem named_cons_unnamed (unnamed : run.block = .unnamed) :
    Named (run :: rest) = Named rest := by
  funext u block
  simp [named_cons, unnamed]

variable (ascending : CodepointRange.Ascending (ranges (run :: rest)))
include ascending

theorem Named.behind (named : Named rest u block) : run.range.last < u := by
  obtain ⟨_, category, stored⟩ := named
  exact ((stores_rest_iff ascending).mp stored).1

/-- In a named run only the first codepoint has a block below it that need not be its own. -/
theorem blockBelow_within (named : run.block ≠ .unnamed) (held : run.range.contains u = true)
    (previous : Block) : BlockBelow (run :: rest) previous u run.block ↔
      run.range.first < u ∨ run.block = previous := by
  obtain ⟨start, stop⟩ := CodepointRange.contains_iff.mp held
  have lowest {v : Nat} {other : Block} (stored : Named (run :: rest) v other) :
      run.range.first ≤ v := by
    obtain ⟨_, category, stored⟩ := stored
    exact stored.first_le ascending
  constructor
  · rintro (⟨v, closest⟩ | ⟨same, _⟩)
    · have order := lowest closest.stored
      have below := closest.below
      exact .inl (by omega)
    · exact .inr same
  · intro cases
    by_cases inner : run.range.first < u
    · have before : run.range.contains (u - 1) = true :=
        CodepointRange.contains_iff.mpr ⟨by omega, by omega⟩
      refine .inl ⟨u - 1, named_cons.mpr (.inl ⟨named, before, rfl⟩), by omega, ?_⟩
      intro w block _ below
      omega
    · refine .inr ⟨cases.resolve_left inner, fun v other stored => ?_⟩
      have order := lowest stored
      omega

/-- Behind a named run its block is the one that is seen from below the others. -/
theorem blockBelow_behind (named : run.block ≠ .unnamed) (behind : run.range.last < u)
    (previous : Block) : BlockBelow (run :: rest) previous u block ↔
      BlockBelow rest run.block u block := by
  have length := (ascending_runs_cons.mp ascending).1
  have ends : Named (run :: rest) run.range.last run.block :=
    named_cons.mpr (.inl ⟨named, CodepointRange.contains_iff.mpr ⟨length, Nat.le_refl _⟩, rfl⟩)
  constructor
  · rintro (⟨v, closest⟩ | ⟨_, none⟩)
    · rcases named_cons.mp closest.stored with ⟨_, held, rfl⟩ | later
      · -- No codepoint of the rest lies below, or it would be closer.
        refine .inr ⟨rfl, fun w other stored => ?_⟩
        have stop := (CodepointRange.contains_iff.mp held).2
        have beyond := stored.behind ascending
        apply Nat.le_of_not_lt
        intro below
        have closer := closest.last w other (named_cons.mpr (.inr stored)) below
        omega
      · exact .inl ⟨v, later, closest.below, fun w other stored =>
          closest.last w other (named_cons.mpr (.inr stored))⟩
    · have absurd := none _ _ ends
      omega
  · rintro (⟨v, closest⟩ | ⟨rfl, none⟩)
    · have beyond := closest.stored.behind ascending
      refine .inl ⟨v, named_cons.mpr (.inr closest.stored), closest.below, fun w other stored => ?_⟩
      rcases named_cons.mp stored with ⟨_, held, _⟩ | later
      · have stop := (CodepointRange.contains_iff.mp held).2
        omega
      · exact closest.last w other later
    · refine .inl ⟨run.range.last, ends, behind, fun w other stored below => ?_⟩
      rcases named_cons.mp stored with ⟨_, held, _⟩ | later
      · exact (CodepointRange.contains_iff.mp held).2
      · have above := none w other later
        omega

end Cons

end Run

namespace DispatchTable

open Run (Named BlockBelow)

/-- Blocks begin at the first codepoints of runs, in the order of the runs. -/
theorem sublist_firsts (nameOf : Block → String) (previous : Block) (runs : List Run) :
    ((blockStartsAfter nameOf previous runs).map (·.1)).Sublist (runs.map (·.range.first)) := by
  induction runs generalizing previous with
  | nil => exact .slnil
  | cons run rest ih =>
    rw [blockStartsAfter]
    split
    · exact (ih run.block).cons_cons _
    · exact (ih previous).cons _

/-- What is listed behind a run of the block `previous`: the named codepoints with another
block below them. -/
theorem mem_blockStartsAfter (nameOf : Block → String) (previous : Block) (runs : List Run)
    (ascending : CodepointRange.Ascending (Run.ranges runs)) (u : Nat) (name : String) :
    (u, name) ∈ blockStartsAfter nameOf previous runs ↔
      ∃ block, Named runs u block ∧ name = nameOf block ∧ ¬BlockBelow runs previous u block := by
  induction runs generalizing previous with
  | nil => simp [blockStartsAfter, Named, Run.Stores]
  | cons run rest ih =>
    obtain ⟨length, _, later⟩ := Run.ascending_runs_cons.mp ascending
    by_cases unnamed : run.block = .unnamed
    · rw [blockStartsAfter, if_neg (by simp [unnamed]), ih previous later]
      simp only [BlockBelow, Run.named_cons_unnamed unnamed]
    · -- What begins behind the run is what begins behind a run of its block.
      have behind : (u, name) ∈ blockStartsAfter nameOf run.block rest ↔ ∃ block,
          Named rest u block ∧ name = nameOf block ∧
            ¬BlockBelow (run :: rest) previous u block := by
        rw [ih run.block later]
        refine exists_congr fun block => and_congr_right fun named => ?_
        rw [Run.blockBelow_behind ascending unnamed (named.behind ascending)]
      have within : (∃ block, (run.block ≠ .unnamed ∧ run.range.contains u = true ∧
          run.block = block) ∧ name = nameOf block ∧
            ¬BlockBelow (run :: rest) previous u block) ↔
          run.block ≠ previous ∧ u = run.range.first ∧ name = nameOf run.block := by
        constructor
        · rintro ⟨_, ⟨_, held, rfl⟩, rfl, new⟩
          rw [Run.blockBelow_within ascending unnamed held, not_or] at new
          have start := (CodepointRange.contains_iff.mp held).1
          exact ⟨new.2, by omega, rfl⟩
        · rintro ⟨new, rfl, rfl⟩
          have held : run.range.contains run.range.first = true :=
            CodepointRange.contains_iff.mpr ⟨Nat.le_refl _, length⟩
          refine ⟨_, ⟨unnamed, held, rfl⟩, rfl, ?_⟩
          rw [Run.blockBelow_within ascending unnamed held]
          simp [new]
      simp only [Run.named_cons, or_and_right, exists_or, within, ← behind]
      by_cases same : run.block = previous
      · subst same
        simp [blockStartsAfter]
      · simp [blockStartsAfter, unnamed, same]

variable {set : ClassifiedSet} {layout : Layout}

theorem named_runs (set : ClassifiedSet) : Named set.runs = set.Named := by
  funext u block
  simp only [Named, ClassifiedSet.Named, set.stores_runs, eq_iff_iff]
  constructor
  · rintro ⟨named, category, entry, kept⟩
    exact ⟨category, entry, kept, named⟩
  · rintro ⟨category, entry, kept, named⟩
    exact ⟨named, category, entry, kept⟩

theorem blockStarts_ascend (set : ClassifiedSet) (layout : Layout) :
    ((pack set layout).blockStarts.map (·.1)).Pairwise (· < ·) := by
  refine List.Pairwise.sublist (sublist_firsts set.blocks.name .unnamed set.runs) ?_
  have ascending := set.runs_ascending
  refine List.pairwise_map.mpr ((List.pairwise_map.mp ascending.apart).imp_of_mem ?_)
  intro run next member _ apart
  have length := ascending.nonempty _ (List.mem_map_of_mem member)
  omega

/-- The listed codepoints are the named ones whose block is not that of the last named
codepoint below. -/
theorem mem_blockStarts (u : Nat) (name : String) :
    (u, name) ∈ (pack set layout).blockStarts ↔ ∃ block, set.Named u block ∧
      name = set.blocks.name block ∧ ∀ v previous, LastBelow set.Named v u previous →
        block ≠ previous := by
  have starts := mem_blockStartsAfter set.blocks.name .unnamed set.runs set.runs_ascending u name
  rw [named_runs] at starts
  refine starts.trans (exists_congr fun block => and_congr_right fun named => ?_)
  refine and_congr_right fun _ => ?_
  obtain ⟨_, _, _, name⟩ := named
  simp only [BlockBelow, named_runs]
  constructor
  · rintro new v _ closest rfl
    exact new (.inl ⟨v, closest⟩)
  · rintro new (⟨v, closest⟩ | ⟨unnamed, _⟩)
    · exact new v block closest rfl
    · exact name unnamed

end DispatchTable

end ShapingTables
