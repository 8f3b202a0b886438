import ShapingTables.Listing.MatcherListing
import ShapingTables.Proofs.CanonicalTries
import ShapingTables.Proofs.ScriptTables
import ShapingTables.Proofs.ScriptTries

/-! Matchers are the same in whatever order anything was done. The list of sequences may
be permuted and the tries may be kept in any order before they are sorted: each trie has
one shape for its sequences, and each script of a trie has a place of its own. -/
namespace ShapingTables

namespace ScriptTable

/-- Every script of a codepoint has a place in the order. -/
def Complete (table : ScriptTable) : Prop :=
  ∀ u script, table.scriptOf? u = some script → script ∈ table.scripts

theorem complete_ofEntries (entries : List (CodepointRange × String)) :
    (ofEntries entries).Complete := by
  intro u script found
  rw [scriptOf?, ofEntries_ranges, RangeTable.find?_ofList_iff] at found
  obtain ⟨place, range, consulted, _⟩ := found
  exact mem_ofEntries.mpr ⟨(range, script), List.mem_of_getElem? consulted.here, rfl⟩

theorem complete_ofText {text : String} {table : ScriptTable} (read : ofText text = .ok table) :
    table.Complete := by
  obtain ⟨rows, _, rfl⟩ := ofText_eq_ok read
  exact complete_ofEntries _

theorem exists_orderOf? {table : ScriptTable} {script : String} (listed : script ∈ table.scripts) :
    ∃ place, table.orderOf? script = some place := by
  apply Option.ne_none_iff_exists'.mp
  rw [orderOf?, ne_eq, List.idxOf?_eq_none_iff, not_not]
  exact listed

theorem orderOf?_injective {table : ScriptTable} {one other : String} {place : Nat}
    (first : table.orderOf? one = some place) (second : table.orderOf? other = some place) :
    one = other := by
  obtain ⟨_, rfl, _⟩ := List.idxOf?_eq_some_iff.mp first
  obtain ⟨_, rfl, _⟩ := List.idxOf?_eq_some_iff.mp second
  rfl

/-- One script has an earlier place than the other. -/
def Precedes (table : ScriptTable) (one other : String) : Prop :=
  ∃ i j, table.orderOf? one = some i ∧ table.orderOf? other = some j ∧ i < j

end ScriptTable

namespace ScriptMatchers

open ProhibitedSequence (mem_ofScript)

/-- Each trie also has the shape that its sequences determine. -/
structure Settled (scripts : ScriptTable) (sequences : List ProhibitedSequence)
    (tries : List SequenceTrie) : Prop extends Grouped scripts sequences tries where
  canonical : ∀ trie ∈ tries, trie.Canonical

variable {scripts : ScriptTable} {sequences others : List ProhibitedSequence}
  {tries otherTries : List SequenceTrie}

theorem settled_nil (scripts : ScriptTable) : Settled scripts [] [] :=
  ⟨grouped_nil scripts, by simp⟩

/-- What an addition does if it succeeds. -/
theorem add_eq_ok {sequence : ProhibitedSequence} {larger : List SequenceTrie}
    (added : add scripts tries sequence = .ok larger) :
    ∃ script, sequence.script? scripts = some script ∧
      larger = putTrie ((trieOf script tries).insert sequence.codepoints).1 tries := by
  rw [add, ← ProhibitedSequence.script?] at added
  split at added
  · rename_i script own
    rw [insertFor_eq] at added
    split at added
    · exact ⟨script, own, (Except.ok.inj added).symm⟩
    · contradiction
  · contradiction

theorem trieOf_canonical (canonical : ∀ trie ∈ tries, trie.Canonical) (script : String) :
    (trieOf script tries).Canonical := by
  rw [trieOf]
  cases found : tries.find? (·.script = script) with
  | some trie => exact canonical trie (List.mem_of_find?_eq_some found)
  | none => exact SequenceTrie.empty_canonical script

theorem add_settled (settled : Settled scripts sequences tries) {sequence : ProhibitedSequence}
    {larger : List SequenceTrie} (added : add scripts tries sequence = .ok larger) :
    Settled scripts (sequences ++ [sequence]) larger := by
  refine ⟨add_grouped settled.toGrouped added, ?_⟩
  obtain ⟨script, _, rfl⟩ := add_eq_ok added
  intro trie member
  rcases (mem_putTrie settled.distinct).mp member with rfl | ⟨kept, _⟩
  · exact SequenceTrie.insert_canonical (trieOf_records settled.toGrouped script)
      (trieOf_canonical settled.canonical script) sequence.codepoints
  · exact settled.canonical trie kept

theorem foldlM_settled (settled : Settled scripts sequences tries)
    (rest : List ProhibitedSequence) {all : List SequenceTrie}
    (built : rest.foldlM (add scripts) tries = .ok all) :
    Settled scripts (sequences ++ rest) all := by
  induction rest generalizing sequences tries with
  | nil =>
    cases built
    rwa [List.append_nil]
  | cons sequence rest ih =>
    rw [List.foldlM_cons] at built
    cases step : add scripts tries sequence with
    | error fault =>
      rw [step] at built
      contradiction
    | ok larger =>
      rw [step] at built
      have later := ih (add_settled settled step) built
      rwa [List.append_assoc] at later

/-- Every trie for some sequences is a trie for the same sequences in another order. -/
theorem Settled.mem_of_mem (settled : Settled scripts sequences tries)
    (other : Settled scripts others otherTries)
    (same : ∀ sequence, sequence ∈ sequences ↔ sequence ∈ others) {trie : SequenceTrie}
    (member : trie ∈ tries) : trie ∈ otherTries := by
  obtain ⟨sequence, origin, own⟩ :=
    (settled.listed trie.script).mp (List.mem_map.mpr ⟨trie, member, rfl⟩)
  obtain ⟨twin, present, script⟩ :=
    List.mem_map.mp ((other.listed trie.script).mpr ⟨sequence, (same sequence).mp origin, own⟩)
  have stored : ∀ codepoints,
      codepoints ∈ ProhibitedSequence.ofScript scripts trie.script sequences ↔
        codepoints ∈ ProhibitedSequence.ofScript scripts twin.script others := by
    intro codepoints
    simp only [mem_ofScript, same, script]
  rwa [SequenceTrie.eq_of_records (settled.records trie member) (other.records twin present)
    (settled.canonical trie member) (other.canonical twin present) script.symm stored]

theorem Settled.perm (settled : Settled scripts sequences tries)
    (other : Settled scripts others otherTries)
    (same : ∀ sequence, sequence ∈ sequences ↔ sequence ∈ others) : tries.Perm otherTries := by
  rw [List.perm_ext_iff_of_nodup (settled.distinct.of_map _) (other.distinct.of_map _)]
  exact fun trie => ⟨settled.mem_of_mem other same,
    other.mem_of_mem settled fun sequence => (same sequence).symm⟩

theorem inOrder_trans (one two three : SequenceTrie) (first : inOrder scripts one two = true)
    (second : inOrder scripts two three = true) : inOrder scripts one three = true := by
  simp only [inOrder] at first second ⊢
  cases head : scripts.orderOf? one.script with
  | none => rfl
  | some i =>
    cases middle : scripts.orderOf? two.script with
    | none => simp [head, middle] at first
    | some j =>
      cases last : scripts.orderOf? three.script with
      | none => simp [middle, last] at second
      | some k =>
        simp only [head, middle, last, decide_eq_true_eq] at first second ⊢
        exact Nat.le_trans first second

theorem inOrder_total (one other : SequenceTrie) :
    (inOrder scripts one other || inOrder scripts other one) = true := by
  simp only [inOrder]
  cases scripts.orderOf? one.script with
  | none => rfl
  | some i =>
    cases scripts.orderOf? other.script with
    | none => rfl
    | some j => simpa using Nat.le_total i j

/-- The script of every trie has a place. -/
theorem Settled.exists_place (settled : Settled scripts sequences tries)
    (complete : scripts.Complete) {trie : SequenceTrie} (member : trie ∈ tries) :
    ∃ place, scripts.orderOf? trie.script = some place := by
  obtain ⟨sequence, _, own⟩ :=
    (settled.listed trie.script).mp (List.mem_map.mpr ⟨trie, member, rfl⟩)
  exact ScriptTable.exists_orderOf? (complete _ _ own)

/-- No two tries have the same place. -/
theorem Settled.inOrder_antisymm (settled : Settled scripts sequences tries)
    (complete : scripts.Complete) {one other : SequenceTrie} (first : one ∈ tries)
    (second : other ∈ tries) (below : inOrder scripts one other = true)
    (above : inOrder scripts other one = true) : one = other := by
  obtain ⟨i, place⟩ := settled.exists_place complete first
  obtain ⟨j, otherPlace⟩ := settled.exists_place complete second
  simp only [inOrder, place, otherPlace, decide_eq_true_eq] at below above
  obtain rfl := Nat.le_antisymm below above
  exact List.inj_on_of_nodup_map settled.distinct first second
    (ScriptTable.orderOf?_injective place otherPlace)

/-- Sorting undoes whatever order the tries were in. -/
theorem Settled.sort_eq (settled : Settled scripts sequences tries)
    (complete : scripts.Complete) {one other : List SequenceTrie} (first : one.Perm tries)
    (second : other.Perm tries) :
    one.mergeSort (inOrder scripts) = other.mergeSort (inOrder scripts) := by
  have oneSorted := (List.mergeSort_perm one (inOrder scripts)).trans first
  have otherSorted := (List.mergeSort_perm other (inOrder scripts)).trans second
  apply List.Perm.eq_of_pairwise _ (List.pairwise_mergeSort inOrder_trans inOrder_total one)
    (List.pairwise_mergeSort inOrder_trans inOrder_total other)
    (oneSorted.trans otherSorted.symm)
  intro a b here there
  exact settled.inOrder_antisymm complete (oneSorted.mem_iff.mp here) (otherSorted.mem_iff.mp there)

/-- Sorted tries have scripts of their own at ascending places. -/
theorem Settled.scripts_sorted (settled : Settled scripts sequences tries)
    (complete : scripts.Complete) {order : List SequenceTrie} (any : order.Perm tries) :
    ((order.mergeSort (inOrder scripts)).map (·.script)).Nodup ∧
      ((order.mergeSort (inOrder scripts)).map (·.script)).Pairwise scripts.Precedes := by
  have sorted := (List.mergeSort_perm order (inOrder scripts)).trans any
  have distinct : ((order.mergeSort (inOrder scripts)).map (·.script)).Nodup :=
    (sorted.map _).nodup_iff.mpr settled.distinct
  refine ⟨distinct, List.pairwise_map.mpr ?_⟩
  refine ((List.pairwise_mergeSort inOrder_trans inOrder_total order).and
    (List.pairwise_map.mp distinct)).imp_of_mem ?_
  rintro one other first second ⟨below, different⟩
  obtain ⟨i, place⟩ := settled.exists_place complete (sorted.mem_iff.mp first)
  obtain ⟨j, otherPlace⟩ := settled.exists_place complete (sorted.mem_iff.mp second)
  simp only [inOrder, place, otherPlace, decide_eq_true_eq] at below
  refine ⟨i, j, place, otherPlace, Nat.lt_of_le_of_ne below ?_⟩
  rintro rfl
  exact different (ScriptTable.orderOf?_injective place otherPlace)

/-- The matchers where the tries come out of their collection in some other order. -/
def ofSequencesIn (iterate : List SequenceTrie → List SequenceTrie) (scripts : ScriptTable)
    (sequences : List ProhibitedSequence) : Except Fault ScriptMatchers :=
  (sequences.foldlM (add scripts) []).map fun tries =>
    ⟨(iterate tries).mergeSort (inOrder scripts)⟩

theorem ofSequencesIn_id (scripts : ScriptTable) (sequences : List ProhibitedSequence) :
    ofSequencesIn id scripts sequences = ofSequences scripts sequences := rfl

theorem ofSequencesIn_eq_ok {iterate : List SequenceTrie → List SequenceTrie}
    {matchers : ScriptMatchers} (built : ofSequencesIn iterate scripts sequences = .ok matchers) :
    ∃ tries, Settled scripts sequences tries ∧
      matchers = ⟨(iterate tries).mergeSort (inOrder scripts)⟩ := by
  rw [ofSequencesIn] at built
  cases run : sequences.foldlM (add scripts) [] with
  | error fault =>
    rw [run] at built
    contradiction
  | ok tries =>
    rw [run] at built
    cases built
    exact ⟨tries, foldlM_settled (settled_nil scripts) sequences run, rfl⟩

/-- Whether a build succeeds depends on which sequences there are and on nothing else. -/
theorem exists_ofSequencesIn_iff (iterate : List SequenceTrie → List SequenceTrie)
    (filled : ∀ sequence ∈ sequences, sequence.codepoints ≠ []) :
    (∃ matchers, ofSequencesIn iterate scripts sequences = .ok matchers) ↔
      (∀ sequence ∈ sequences, (sequence.script? scripts).isSome = true) ∧
      ∀ one ∈ sequences, ∀ other ∈ sequences,
        one.codepoints <+: other.codepoints → one.codepoints = other.codepoints := by
  rw [← no_fault_iff, ← exists_ofSequences_iff filled, ofSequencesIn, ofSequences]
  cases sequences.foldlM (add scripts) [] <;> simp [Except.map]

/-- What does not change between two builds from the same sequences. -/
structure Reproducible (scripts : ScriptTable) (sequences : List ProhibitedSequence) : Prop where
  ordered : ∀ matchers, ofSequences scripts sequences = .ok matchers →
    matchers.scripts.Nodup ∧ matchers.scripts.Pairwise scripts.Precedes
  same : ∀ others, sequences.Perm others → ∀ iterate iterateOther : List SequenceTrie → _,
    (∀ tries, (iterate tries).Perm tries) → (∀ tries, (iterateOther tries).Perm tries) →
    (ofSequencesIn iterate scripts sequences).toOption =
        (ofSequencesIn iterateOther scripts others).toOption ∧
      (ofSequencesIn iterate scripts sequences).toOption.map (MatcherListing.ofMatchers · |>.text) =
        (ofSequencesIn iterateOther scripts others).toOption.map
          (MatcherListing.ofMatchers · |>.text)

/-- With the scripts of a text, the same sequences in any order give the same matchers in
script order, however the tries are kept meanwhile, or no matchers in any order. -/
theorem ofSequences_reproducible (text : String) (scripts : ScriptTable)
    (read : ScriptTable.ofText text = .ok scripts) (sequences : List ProhibitedSequence)
    (filled : ∀ sequence ∈ sequences, sequence.codepoints ≠ []) :
    Reproducible scripts sequences := by
  have complete := ScriptTable.complete_ofText read
  refine ⟨?_, ?_⟩
  · intro matchers built
    rw [← ofSequencesIn_id] at built
    obtain ⟨tries, settled, rfl⟩ := ofSequencesIn_eq_ok built
    exact settled.scripts_sorted complete (.refl tries)
  · intro others perm iterate iterateOther order otherOrder
    have equal : (ofSequencesIn iterate scripts sequences).toOption =
        (ofSequencesIn iterateOther scripts others).toOption := by
      have filledOthers : ∀ sequence ∈ others, sequence.codepoints ≠ [] :=
        fun sequence member => filled sequence (perm.mem_iff.mpr member)
      have alike : (∃ matchers, ofSequencesIn iterate scripts sequences = .ok matchers) ↔
          ∃ matchers, ofSequencesIn iterateOther scripts others = .ok matchers := by
        rw [exists_ofSequencesIn_iff iterate filled,
          exists_ofSequencesIn_iff iterateOther filledOthers]
        simp only [perm.mem_iff]
      cases first : ofSequencesIn iterate scripts sequences with
      | error fault =>
        cases second : ofSequencesIn iterateOther scripts others with
        | error other => rfl
        | ok matchers =>
          obtain ⟨found, built⟩ := alike.mpr ⟨matchers, second⟩
          rw [first] at built
          contradiction
      | ok matchers =>
        obtain ⟨found, second⟩ := alike.mp ⟨matchers, first⟩
        obtain ⟨tries, settled, rfl⟩ := ofSequencesIn_eq_ok first
        obtain ⟨otherTries, otherSettled, rfl⟩ := ofSequencesIn_eq_ok second
        have shuffled := settled.perm otherSettled fun sequence => perm.mem_iff
        rw [second, settled.sort_eq complete (order tries)
          ((otherOrder otherTries).trans shuffled.symm)]
    exact ⟨equal, by rw [equal]⟩

def ascendingLines : String := "1A20..1A5E ; Tai_Tham\n1B00..1B4B ; Balinese\n"

def ascendingScripts : ScriptTable where
  scripts := ["Tai_Tham", "Balinese"]
  ranges := [(⟨0x1B00, 0x1B4B⟩, "Balinese"), (⟨0x1A20, 0x1A5E⟩, "Tai_Tham")]

theorem ofText_ascendingLines : ScriptTable.ofText ascendingLines = .ok ascendingScripts := by
  have rows : DataFile.rows .plain ascendingLines = .ok [⟨1, ⟨0x1A20, 0x1A5E⟩, ["Tai_Tham"]⟩,
      ⟨2, ⟨0x1B00, 0x1B4B⟩, ["Balinese"]⟩] := rfl
  rw [ScriptTable.ofText, rows]
  exact congrArg Except.ok (ScriptTable.ofEntries_ascending (by decide) (by decide))

/-- The later script comes first, and two sequences share their first codepoint. -/
def balineseFirst : List ProhibitedSequence := [
  ⟨1, [0x1B05, 0x1B35]⟩, ⟨2, [0x1A4B, 0x1A63]⟩, ⟨3, [0x1B05, 0x1B36]⟩]

theorem ofSequences_reproducible_balineseFirst :
    ScriptTable.ofText ascendingLines = .ok ascendingScripts ∧
      (∀ sequence ∈ balineseFirst, sequence.codepoints ≠ []) ∧
      ∃ matchers, ofSequences ascendingScripts balineseFirst = .ok matchers ∧
        ofSequencesIn List.reverse ascendingScripts balineseFirst.reverse = .ok matchers ∧
        matchers.scripts.Pairwise ascendingScripts.Precedes := by
  have filled : ∀ sequence ∈ balineseFirst, sequence.codepoints ≠ [] := by decide
  have reproducible := ofSequences_reproducible ascendingLines ascendingScripts
    ofText_ascendingLines balineseFirst filled
  obtain ⟨matchers, built⟩ := (exists_ofSequencesIn_iff id filled).mpr
    (by decide : (∀ sequence ∈ balineseFirst,
      (sequence.script? ascendingScripts).isSome = true) ∧ _)
  have same := (reproducible.same balineseFirst.reverse (List.reverse_perm _).symm id List.reverse
    (fun _ => .refl _) List.reverse_perm).1
  refine ⟨ofText_ascendingLines, filled, matchers, built, ?_, (reproducible.ordered _ built).2⟩
  cases other : ofSequencesIn List.reverse ascendingScripts balineseFirst.reverse with
  | error fault =>
    rw [built, other] at same
    contradiction
  | ok found =>
    rw [built, other] at same
    rw [Option.some.inj same]

end ScriptMatchers

end ShapingTables
