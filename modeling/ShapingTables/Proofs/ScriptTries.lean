import Mathlib.Data.List.Nodup
import ShapingTables.Prohibition.Matchers
import ShapingTables.Proofs.StoredSequences

/-! The tries of all scripts and the list of sequences they are built from. Each
trie stores the sequences of its own script, so two sequences of which one begins
the other always meet in one trie, and the first sequence at fault stops the build. -/
namespace ShapingTables

namespace ProhibitedSequence

/-- A sequence belongs to the script of its first codepoint. -/
def script? (scripts : ScriptTable) (sequence : ProhibitedSequence) : Option String :=
  scripts.scriptOf? (sequence.codepoints.headD 0)

/-- The codepoints of the sequences of one script. -/
def ofScript (scripts : ScriptTable) (script : String) (sequences : List ProhibitedSequence) :
    List (List Nat) :=
  (sequences.filter fun sequence => sequence.script? scripts = some script).map (·.codepoints)

theorem mem_ofScript {scripts : ScriptTable} {script : String}
    {sequences : List ProhibitedSequence} {codepoints : List Nat} :
    codepoints ∈ ofScript scripts script sequences ↔ ∃ sequence ∈ sequences,
      sequence.script? scripts = some script ∧ sequence.codepoints = codepoints := by
  simp [ofScript, and_assoc]

theorem ofScript_append (scripts : ScriptTable) (script : String)
    (front rest : List ProhibitedSequence) : ofScript scripts script (front ++ rest) =
      ofScript scripts script front ++ ofScript scripts script rest := by
  simp [ofScript]

/-- One of two different sequences begins the other. -/
def Conflicts (one other : ProhibitedSequence) : Prop :=
  one.codepoints ≠ other.codepoints ∧ PrefixRelated one.codepoints other.codepoints

/-- What is wrong with a sequence that stands behind others. -/
inductive FaultBehind (scripts : ScriptTable) (earlier : List ProhibitedSequence)
    (sequence : ProhibitedSequence) : Fault → Prop
  | unscripted : sequence.script? scripts = none →
      FaultBehind scripts earlier sequence (.unscriptedSequence sequence.codepoints)
  | conflicting : sequence.script? scripts = some script → other ∈ earlier →
      Conflicts other sequence →
      FaultBehind scripts earlier sequence (.conflictingSequence script sequence.codepoints)

/-- What is wrong with the sequence at a place of a list. -/
def FaultAt (scripts : ScriptTable) (sequences : List ProhibitedSequence) (place : Nat)
    (fault : Fault) : Prop :=
  ∃ sequence, sequences[place]? = some sequence ∧
    FaultBehind scripts (sequences.take place) sequence fault

theorem Conflicts.symm {one other : ProhibitedSequence} (conflict : one.Conflicts other) :
    other.Conflicts one :=
  ⟨conflict.1.symm, conflict.2.symm⟩

/-- Sequences of which one begins the other have one first codepoint. -/
theorem Conflicts.script?_eq {one other : ProhibitedSequence} (conflict : one.Conflicts other)
    (filled : one.codepoints ≠ []) (filledToo : other.codepoints ≠ []) (scripts : ScriptTable) :
    one.script? scripts = other.script? scripts := by
  have heads : one.codepoints.headD 0 = other.codepoints.headD 0 := by
    rcases conflict.2 with ⟨rest, begins⟩ | ⟨rest, begins⟩
    · rw [← begins]
      cases written : one.codepoints with
      | nil => exact absurd written filled
      | cons => rfl
    · rw [← begins]
      cases written : other.codepoints with
      | nil => exact absurd written filledToo
      | cons => rfl
  rw [script?, script?, heads]

end ProhibitedSequence

namespace ScriptMatchers

open ProhibitedSequence (FaultBehind FaultAt ofScript mem_ofScript ofScript_append)

/-- The trie of a script, an empty one where there is none. -/
def trieOf (script : String) (tries : List SequenceTrie) : SequenceTrie :=
  (tries.find? (·.script = script)).getD (.empty script)

theorem trieOf_script (script : String) (tries : List SequenceTrie) :
    (trieOf script tries).script = script := by
  rw [trieOf]
  cases found : tries.find? (·.script = script) with
  | none => rfl
  | some trie => simpa using List.find?_some found

/-- The trie takes the place of the one of its script, or the last place. -/
def putTrie (trie : SequenceTrie) : List SequenceTrie → List SequenceTrie
  | [] => [trie]
  | head :: rest => if head.script = trie.script then trie :: rest else head :: putTrie trie rest

theorem putTrie_scripts (trie : SequenceTrie) (tries : List SequenceTrie) :
    (putTrie trie tries).map (·.script) =
      if trie.script ∈ tries.map (·.script) then tries.map (·.script)
      else tries.map (·.script) ++ [trie.script] := by
  induction tries with
  | nil => rfl
  | cons head rest ih =>
    rw [putTrie]
    by_cases same : head.script = trie.script
    · simp [same]
    · rw [if_neg same, List.map_cons, ih]
      by_cases later : trie.script ∈ rest.map (·.script)
      · simp [later]
      · simp [later, Ne.symm same]

theorem mem_scripts_putTrie {trie : SequenceTrie} {tries : List SequenceTrie} {script : String} :
    script ∈ (putTrie trie tries).map (·.script) ↔
      script = trie.script ∨ script ∈ tries.map (·.script) := by
  rw [putTrie_scripts]
  split
  · rename_i present
    exact ⟨.inr, fun either => either.elim (fun same => same ▸ present) id⟩
  · rw [List.mem_append, List.mem_singleton, or_comm]

theorem nodup_putTrie {trie : SequenceTrie} {tries : List SequenceTrie}
    (distinct : (tries.map (·.script)).Nodup) : ((putTrie trie tries).map (·.script)).Nodup := by
  rw [putTrie_scripts]
  split
  · exact distinct
  · rename_i fresh
    rw [← List.concat_eq_append]
    exact distinct.concat fresh

theorem mem_putTrie {trie other : SequenceTrie} {tries : List SequenceTrie}
    (distinct : (tries.map (·.script)).Nodup) :
    other ∈ putTrie trie tries ↔ other = trie ∨ other ∈ tries ∧ other.script ≠ trie.script := by
  induction tries with
  | nil => simp [putTrie]
  | cons head rest ih =>
    obtain ⟨fresh, distinct⟩ := List.nodup_cons.mp distinct
    rw [putTrie]
    by_cases same : head.script = trie.script
    · have apart : other ∈ rest → other.script ≠ trie.script := by
        intro member equal
        exact fresh (List.mem_map.mpr ⟨other, member, equal.trans same.symm⟩)
      rw [if_pos same, List.mem_cons, List.mem_cons]
      constructor
      · exact Or.imp_right fun member => ⟨.inr member, apart member⟩
      · rintro (equal | ⟨rfl | member, different⟩)
        · exact .inl equal
        · exact absurd same different
        · exact .inr member
    · rw [if_neg same, List.mem_cons, List.mem_cons, ih distinct]
      constructor
      · rintro (rfl | equal | ⟨member, different⟩)
        · exact .inr ⟨.inl rfl, same⟩
        · exact .inl equal
        · exact .inr ⟨.inr member, different⟩
      · rintro (equal | ⟨equal | member, different⟩)
        · exact .inr (.inl equal)
        · exact .inl equal
        · exact .inr (.inr ⟨member, different⟩)

/-- A sequence goes into the trie of its script or is refused by it. -/
theorem insertFor_eq (script : String) (sequence : List Nat) (tries : List SequenceTrie) :
    insertFor script sequence tries =
      if ((trieOf script tries).insert sequence).2 then
        .ok (putTrie ((trieOf script tries).insert sequence).1 tries)
      else .error (.conflictingSequence script sequence) := by
  have grown (trie : SequenceTrie) (rest : List SequenceTrie) :
      insertFor.grown script sequence trie rest =
        if (trie.insert sequence).2 then .ok ((trie.insert sequence).1 :: rest)
        else .error (.conflictingSequence script sequence) := by
    rw [insertFor.grown]
    split
    · rename_i larger inserted
      rw [inserted, if_pos rfl]
    · rename_i same refused
      rw [refused, if_neg Bool.false_ne_true]
  induction tries with
  | nil => exact grown _ _
  | cons head rest ih =>
    rw [insertFor]
    by_cases here : head.script = script
    · have found : trieOf script (head :: rest) = head := by simp [trieOf, here]
      rw [if_pos here, grown, found, putTrie, SequenceTrie.insert_script, if_pos rfl]
    · have found : trieOf script (head :: rest) = trieOf script rest := by simp [trieOf, here]
      rw [if_neg here, ih, found, putTrie, SequenceTrie.insert_script, trieOf_script, if_neg here]
      split <;> rfl

/-- Each script with sequences has one trie, which stores exactly these. -/
structure Grouped (scripts : ScriptTable) (sequences : List ProhibitedSequence)
    (tries : List SequenceTrie) : Prop where
  distinct : (tries.map (·.script)).Nodup
  records : ∀ trie ∈ tries, trie.Records (ofScript scripts trie.script sequences)
  listed : ∀ script, script ∈ tries.map (·.script) ↔
    ∃ sequence ∈ sequences, sequence.script? scripts = some script

theorem grouped_nil (scripts : ScriptTable) : Grouped scripts [] [] := by
  constructor <;> simp

variable {scripts : ScriptTable} {earlier : List ProhibitedSequence} {tries : List SequenceTrie}

theorem trieOf_records (grouped : Grouped scripts earlier tries) (script : String) :
    (trieOf script tries).Records (ofScript scripts script earlier) := by
  rw [trieOf]
  cases found : tries.find? (·.script = script) with
  | some trie =>
    have same : trie.script = script := by simpa using List.find?_some found
    exact same ▸ grouped.records trie (List.mem_of_find?_eq_some found)
  | none =>
    have none : ofScript scripts script earlier = [] := by
      apply List.eq_nil_iff_forall_not_mem.mpr
      intro codepoints member
      obtain ⟨sequence, origin, own, _⟩ := mem_ofScript.mp member
      obtain ⟨trie, present, same⟩ :=
        List.mem_map.mp ((grouped.listed script).mpr ⟨sequence, origin, own⟩)
      simpa [same] using List.find?_eq_none.mp found trie present
    rw [none]
    exact SequenceTrie.records_empty script

/-- The trie of a script refuses a sequence exactly if an earlier one conflicts with it. -/
theorem refused_iff (grouped : Grouped scripts earlier tries)
    (filled : ∀ other ∈ earlier, other.codepoints ≠ []) {sequence : ProhibitedSequence}
    (full : sequence.codepoints ≠ []) {script : String}
    (own : sequence.script? scripts = some script) :
    ((trieOf script tries).insert sequence.codepoints).2 = false ↔
      ∃ other ∈ earlier, other.Conflicts sequence := by
  have records := trieOf_records grouped script
  rw [← Bool.not_eq_true, SequenceTrie.insert_accepts records]
  constructor
  · intro refused
    apply Classical.byContradiction
    intro free
    by_cases known : sequence.codepoints ∈ ofScript scripts script earlier
    · exact refused ⟨full, .inl known⟩
    · refine refused ⟨full, .inr fun codepoints stored related => ?_⟩
      obtain ⟨other, member, _, rfl⟩ := mem_ofScript.mp stored
      exact free ⟨other, member, fun equal => known (equal ▸ stored), related⟩
  · rintro ⟨other, member, conflict⟩ ⟨_, accepted⟩
    have same := conflict.script?_eq (filled other member) full scripts
    have stored : other.codepoints ∈ ofScript scripts script earlier :=
      mem_ofScript.mpr ⟨other, member, same.trans own, rfl⟩
    rcases accepted with known | free
    · rcases conflict.2 with begins | begins
      · exact conflict.1 (SequenceTrie.records_prefixFree records stored known begins)
      · exact conflict.1 (SequenceTrie.records_prefixFree records known stored begins).symm
    · exact free _ stored conflict.2

theorem add_eq_error_iff (grouped : Grouped scripts earlier tries)
    (filled : ∀ other ∈ earlier, other.codepoints ≠ []) {sequence : ProhibitedSequence}
    (full : sequence.codepoints ≠ []) (fault : Fault) :
    add scripts tries sequence = .error fault ↔ FaultBehind scripts earlier sequence fault := by
  rw [add, ← ProhibitedSequence.script?]
  cases own : sequence.script? scripts with
  | none =>
    constructor
    · rintro ⟨⟩
      exact .unscripted own
    · rintro (_ | ⟨scripted, _, _⟩)
      · rfl
      · rw [own] at scripted
        contradiction
  | some script =>
    have refused := refused_iff grouped filled full own
    simp only [insertFor_eq]
    constructor
    · intro stopped
      split at stopped
      · contradiction
      · rename_i unaccepted
        obtain ⟨other, member, conflict⟩ := refused.mp (Bool.eq_false_iff.mpr unaccepted)
        cases stopped
        exact .conflicting own member conflict
    · rintro (unscripted | ⟨scripted, member, conflict⟩)
      · rw [own] at unscripted
        contradiction
      · rw [own] at scripted
        cases scripted
        rw [if_neg (Bool.eq_false_iff.mp (refused.mpr ⟨_, member, conflict⟩))]

/-- A trie that has taken a sequence in takes its place among the others. -/
theorem putTrie_grouped (grouped : Grouped scripts earlier tries) {sequence : ProhibitedSequence}
    {script : String} (own : sequence.script? scripts = some script) {grown : SequenceTrie}
    (named : grown.script = script)
    (records : grown.Records (ofScript scripts script earlier ++ [sequence.codepoints])) :
    Grouped scripts (earlier ++ [sequence]) (putTrie grown tries) := by
  refine ⟨nodup_putTrie grouped.distinct, ?_, ?_⟩
  · intro trie member
    rw [ofScript_append]
    rcases (mem_putTrie grouped.distinct).mp member with rfl | ⟨member, other⟩
    · have taken : ofScript scripts trie.script [sequence] = [sequence.codepoints] := by
        simp [ofScript, own, named]
      rwa [taken, named]
    · have passed : ofScript scripts trie.script [sequence] = [] := by
        simp [ofScript, own, ← named, Ne.symm other]
      rw [passed, List.append_nil]
      exact grouped.records trie member
  · intro other
    rw [mem_scripts_putTrie, grouped.listed, named]
    constructor
    · rintro (rfl | ⟨before, member, owned⟩)
      · exact ⟨sequence, by simp, own⟩
      · exact ⟨before, List.mem_append_left _ member, owned⟩
    · rintro ⟨one, member, owned⟩
      rcases List.mem_append.mp member with before | last
      · exact .inr ⟨one, before, owned⟩
      · rw [List.mem_singleton.mp last, own] at owned
        exact .inl (Option.some.inj owned).symm

/-- A sequence that is accepted joins the sequences of its script. -/
theorem add_grouped (grouped : Grouped scripts earlier tries) {sequence : ProhibitedSequence}
    {larger : List SequenceTrie} (added : add scripts tries sequence = .ok larger) :
    Grouped scripts (earlier ++ [sequence]) larger := by
  rw [add] at added
  split at added
  · rename_i script own
    rw [insertFor_eq] at added
    split at added
    · rename_i accepted
      cases added
      refine putTrie_grouped grouped own ?_ ?_
      · rw [SequenceTrie.insert_script, trieOf_script]
      · have records := SequenceTrie.insert_records (trieOf_records grouped script)
          sequence.codepoints
        rwa [if_pos accepted] at records
    · contradiction
  · contradiction

/-- The first sequence at fault from a place on. -/
def FirstFault (scripts : ScriptTable) (sequences : List ProhibitedSequence) (start : Nat)
    (fault : Fault) : Prop :=
  ∃ place, start ≤ place ∧ FaultAt scripts sequences place fault ∧
    ∀ before, start ≤ before → before < place → ∀ other, ¬FaultAt scripts sequences before other

theorem firstFault_step {sequences : List ProhibitedSequence} {start : Nat}
    (none : ∀ other, ¬FaultAt scripts sequences start other) (fault : Fault) :
    FirstFault scripts sequences start fault ↔ FirstFault scripts sequences (start + 1) fault := by
  constructor
  · rintro ⟨place, after, here, least⟩
    rcases Nat.eq_or_lt_of_le after with rfl | later
    · exact absurd here (none fault)
    · exact ⟨place, later, here, fun before from_ => least before (Nat.le_of_succ_le from_)⟩
  · rintro ⟨place, after, here, least⟩
    refine ⟨place, Nat.le_of_succ_le after, here, fun before from_ earlier => ?_⟩
    rcases Nat.eq_or_lt_of_le from_ with rfl | later
    · exact none
    · exact least before later earlier

/-- The search for the first fault from a place at which there is one. -/
theorem firstFault_here {sequences : List ProhibitedSequence} {start : Nat} {found : Fault}
    (here : FaultAt scripts sequences start found) (fault : Fault) :
    FirstFault scripts sequences start fault ↔ FaultAt scripts sequences start fault := by
  constructor
  · rintro ⟨place, after, other, least⟩
    rcases Nat.eq_or_lt_of_le after with rfl | later
    · exact other
    · exact absurd here (least start (Nat.le_refl _) later found)
  · intro fault
    exact ⟨start, Nat.le_refl _, fault, fun before from_ earlier => by omega⟩

theorem faultAt_behind (earlier rest : List ProhibitedSequence) (sequence : ProhibitedSequence)
    (fault : Fault) : FaultAt scripts (earlier ++ sequence :: rest) earlier.length fault ↔
      FaultBehind scripts earlier sequence fault := by
  simp [FaultAt]

/-- The build stops at the first sequence at fault, and only there. -/
theorem foldlM_add (grouped : Grouped scripts earlier tries) (rest : List ProhibitedSequence)
    (filled : ∀ sequence ∈ earlier ++ rest, sequence.codepoints ≠ []) :
    (∀ fault, rest.foldlM (add scripts) tries = .error fault ↔
      FirstFault scripts (earlier ++ rest) earlier.length fault) ∧
    ∀ all, rest.foldlM (add scripts) tries = .ok all → Grouped scripts (earlier ++ rest) all := by
  induction rest generalizing earlier tries with
  | nil =>
    refine ⟨fun fault => ?_, fun all built => ?_⟩
    · constructor
      · rintro ⟨⟩
      · rintro ⟨place, after, ⟨sequence, found, _⟩, _⟩
        rw [List.append_nil, List.getElem?_eq_none after] at found
        contradiction
    · cases built
      rwa [List.append_nil]
  | cons sequence rest ih =>
    have before : ∀ other ∈ earlier, other.codepoints ≠ [] :=
      fun other member => filled other (List.mem_append_left _ member)
    have full : sequence.codepoints ≠ [] := filled sequence (by simp)
    have stops := add_eq_error_iff grouped before full
    rw [List.foldlM_cons]
    cases step : add scripts tries sequence with
    | error found =>
      rw [step] at stops
      have here := (faultAt_behind earlier rest sequence found).mpr ((stops found).mp rfl)
      refine ⟨fun fault => ?_, fun all built => by contradiction⟩
      rw [firstFault_here here, faultAt_behind, ← stops]
      rfl
    | ok larger =>
      rw [step] at stops
      have none : ∀ other, ¬FaultAt scripts (earlier ++ sequence :: rest) earlier.length other := by
        intro other fault
        have := (stops other).mpr ((faultAt_behind earlier rest sequence other).mp fault)
        contradiction
      have later := ih (add_grouped grouped step) (by simpa using filled)
      rw [List.append_assoc, List.singleton_append, List.length_append,
        List.length_singleton] at later
      refine ⟨fun fault => ?_, later.2⟩
      rw [firstFault_step none, ← later.1]
      rfl

/-- Where every script has one trie, the last trie of a script is the only one. -/
theorem find?_eq_some_iff {matchers : ScriptMatchers} (distinct : matchers.scripts.Nodup)
    (script : String) (trie : SequenceTrie) :
    matchers.find? script = some trie ↔ trie ∈ matchers.tries ∧ trie.script = script := by
  rw [find?]
  constructor
  · intro found
    exact ⟨List.mem_reverse.mp (List.mem_of_find?_eq_some found), by simpa using List.find?_some found⟩
  · rintro ⟨member, own⟩
    cases found : matchers.tries.reverse.find? (·.script == script) with
    | none =>
      have missed := List.find?_eq_none.mp found trie (List.mem_reverse.mpr member)
      exact absurd own (by simpa using missed)
    | some other =>
      have known := List.mem_reverse.mp (List.mem_of_find?_eq_some found)
      have same : other.script = script := by simpa using List.find?_some found
      rw [List.inj_on_of_nodup_map distinct known member (same.trans own.symm)]

theorem scripts_sorted_nodup {sequences : List ProhibitedSequence}
    (grouped : Grouped scripts sequences tries) :
    (ScriptMatchers.mk (tries.mergeSort (inOrder scripts))).scripts.Nodup :=
  ((List.mergeSort_perm tries (inOrder scripts)).map _).nodup_iff.mpr grouped.distinct

/-- Sorting the tries does not change which of them a script has. -/
theorem find?_sorted {sequences : List ProhibitedSequence}
    (grouped : Grouped scripts sequences tries) (script : String) (trie : SequenceTrie) :
    (ScriptMatchers.mk (tries.mergeSort (inOrder scripts))).find? script = some trie ↔
      trie ∈ tries ∧ trie.script = script := by
  rw [find?_eq_some_iff (scripts_sorted_nodup grouped), List.mem_mergeSort]

/-- Where anything is at fault there is a first fault. -/
theorem exists_firstFault {sequences : List ProhibitedSequence} {place : Nat} {fault : Fault}
    (here : FaultAt scripts sequences place fault) :
    ∃ found, FirstFault scripts sequences 0 found := by
  induction place using Nat.strongRecOn generalizing fault with
  | ind place ih =>
    by_cases earlier : ∃ before, before < place ∧ ∃ other, FaultAt scripts sequences before other
    · obtain ⟨before, less, other, there⟩ := earlier
      exact ih before less there
    · exact ⟨fault, place, Nat.zero_le _, here,
        fun before _ less other there => earlier ⟨before, less, other, there⟩⟩

/-- Nothing is at fault where every sequence has a script and none begins another one. -/
theorem no_fault_iff (sequences : List ProhibitedSequence) :
    (∀ place fault, ¬FaultAt scripts sequences place fault) ↔
      (∀ sequence ∈ sequences, (sequence.script? scripts).isSome = true) ∧
      ∀ one ∈ sequences, ∀ other ∈ sequences,
        one.codepoints <+: other.codepoints → one.codepoints = other.codepoints := by
  constructor
  · intro none
    have scripted : ∀ sequence ∈ sequences, (sequence.script? scripts).isSome = true := by
      intro sequence member
      obtain ⟨place, found⟩ := List.mem_iff_getElem?.mp member
      rw [Option.isSome_iff_ne_none]
      intro unscripted
      exact none place _ ⟨sequence, found, .unscripted unscripted⟩
    have apart : ∀ (i j : Nat) (one other : ProhibitedSequence), i < j →
        sequences[i]? = some one → sequences[j]? = some other → ¬one.Conflicts other := by
      intro i j one other before first second conflict
      obtain ⟨script, own⟩ :=
        Option.isSome_iff_exists.mp (scripted other (List.mem_of_getElem? second))
      have earlier : one ∈ sequences.take j := by
        refine List.mem_iff_getElem?.mpr ⟨i, ?_⟩
        rw [List.getElem?_take_of_lt before, first]
      exact none j _ ⟨other, second, .conflicting own earlier conflict⟩
    refine ⟨scripted, fun one first other second begins => ?_⟩
    apply Classical.byContradiction
    intro different
    have conflict : one.Conflicts other := ⟨different, .inl begins⟩
    obtain ⟨i, first⟩ := List.mem_iff_getElem?.mp first
    obtain ⟨j, second⟩ := List.mem_iff_getElem?.mp second
    rcases Nat.lt_trichotomy i j with before | rfl | behind
    · exact apart i j one other before first second conflict
    · rw [first] at second
      exact different (congrArg _ (Option.some.inj second))
    · exact apart j i other one behind second first conflict.symm
  · rintro ⟨scripted, free⟩ place fault ⟨sequence, found, unscripted | ⟨_, earlier, conflict⟩⟩
    · have own := scripted sequence (List.mem_of_getElem? found)
      rw [unscripted] at own
      contradiction
    · have first := List.mem_of_mem_take earlier
      have second := List.mem_of_getElem? found
      rcases conflict.2 with begins | begins
      · exact conflict.1 (free _ first _ second begins)
      · exact conflict.1 (free _ second _ first begins).symm

section

variable {sequences : List ProhibitedSequence}
  (filled : ∀ sequence ∈ sequences, sequence.codepoints ≠ [])
include filled

theorem ofSequences_eq_error_iff (fault : Fault) :
    ofSequences scripts sequences = .error fault ↔ FirstFault scripts sequences 0 fault := by
  have stops := (foldlM_add (grouped_nil scripts) sequences filled).1 fault
  rw [List.nil_append, List.length_nil] at stops
  rw [← stops, ofSequences]
  cases sequences.foldlM (add scripts) [] with
  | error found => simp [Except.map]
  | ok tries => simp [Except.map]

theorem ofSequences_eq_ok {matchers : ScriptMatchers}
    (built : ofSequences scripts sequences = .ok matchers) :
    ∃ tries, Grouped scripts sequences tries ∧ matchers = ⟨tries.mergeSort (inOrder scripts)⟩ := by
  have builds := (foldlM_add (grouped_nil scripts) sequences filled).2
  rw [ofSequences] at built
  cases run : sequences.foldlM (add scripts) [] with
  | error found =>
    rw [run] at built
    contradiction
  | ok tries =>
    rw [run] at built
    cases built
    exact ⟨tries, builds tries run, rfl⟩

theorem exists_ofSequences_iff : (∃ matchers, ofSequences scripts sequences = .ok matchers) ↔
    ∀ place fault, ¬FaultAt scripts sequences place fault := by
  constructor
  · rintro ⟨matchers, built⟩ place fault here
    obtain ⟨found, first⟩ := exists_firstFault here
    have stopped := (ofSequences_eq_error_iff filled found).mpr first
    rw [built] at stopped
    contradiction
  · intro none
    cases built : ofSequences scripts sequences with
    | ok matchers => exact ⟨matchers, rfl⟩
    | error fault =>
      obtain ⟨place, _, here, _⟩ := (ofSequences_eq_error_iff filled fault).mp built
      exact absurd here (none place fault)

end

/-- What building the matchers comes to. It fails on the first sequence that has no script
or stands in a proper prefix relation with an earlier one; otherwise each script of a
sequence has a trie that matches the sequences of the script, and no other script has one. -/
structure Compiled (scripts : ScriptTable) (sequences : List ProhibitedSequence)
    (result : Except Fault ScriptMatchers) : Prop where
  succeeds : (∃ matchers, result = .ok matchers) ↔
    (∀ sequence ∈ sequences, (sequence.script? scripts).isSome = true) ∧
    ∀ one ∈ sequences, ∀ other ∈ sequences,
      one.codepoints <+: other.codepoints → one.codepoints = other.codepoints
  fails : ∀ fault, result = .error fault ↔ ∃ place, FaultAt scripts sequences place fault ∧
    ∀ before < place, ∀ other, ¬FaultAt scripts sequences before other
  present : ∀ matchers, result = .ok matchers → ∀ script,
    (∃ trie, matchers.find? script = some trie) ↔
      ∃ sequence ∈ sequences, sequence.script? scripts = some script
  matched : ∀ matchers, result = .ok matchers → ∀ script trie,
    matchers.find? script = some trie → trie.script = script ∧
      ∀ glyphs length, trie.matchLength? glyphs = some length ↔ ∃ sequence ∈ sequences,
        sequence.script? scripts = some script ∧ sequence.codepoints <+: glyphs ∧
        sequence.codepoints.length = length
  untouched : ∀ matchers, result = .ok matchers → ∀ script,
    (∀ sequence ∈ sequences, sequence.script? scripts ≠ some script) →
      ∀ buffer, matchers.fix script buffer = (buffer, false)

/-- Every list of sequences that are not empty is compiled so, whatever the scripts are. -/
theorem ofSequences_compiled (scripts : ScriptTable) (sequences : List ProhibitedSequence)
    (filled : ∀ sequence ∈ sequences, sequence.codepoints ≠ []) :
    Compiled scripts sequences (ofSequences scripts sequences) := by
  refine ⟨(exists_ofSequences_iff filled).trans (no_fault_iff sequences), ?_, ?_, ?_, ?_⟩
  · intro fault
    rw [ofSequences_eq_error_iff filled, FirstFault]
    simp
  all_goals
    intro matchers built script
    obtain ⟨tries, grouped, rfl⟩ := ofSequences_eq_ok filled built
    have found := find?_sorted grouped script
    have listed := grouped.listed script
  · rw [← listed, List.mem_map]
    simp only [found]
  · intro trie held
    obtain ⟨member, own⟩ := (found trie).mp held
    refine ⟨own, fun glyphs length => ?_⟩
    rw [SequenceTrie.matchLength?_records (grouped.records trie member), own]
    simp only [mem_ofScript]
    constructor
    · rintro ⟨codepoints, ⟨sequence, origin, owned, rfl⟩, begins, size⟩
      exact ⟨sequence, origin, owned, begins, size⟩
    · rintro ⟨sequence, origin, owned, begins, size⟩
      exact ⟨sequence.codepoints, ⟨sequence, origin, owned, rfl⟩, begins, size⟩
  · intro unused buffer
    have none : (ScriptMatchers.mk (tries.mergeSort (inOrder scripts))).find? script = none := by
      apply Option.eq_none_iff_forall_ne_some.mpr
      intro trie held
      obtain ⟨member, own⟩ := (found trie).mp held
      obtain ⟨sequence, origin, owned⟩ := listed.mp (List.mem_map.mpr ⟨trie, member, own⟩)
      exact unused sequence origin owned
    rw [fix, none]

def twoScripts : ScriptTable :=
  ⟨["Devanagari", "Tamil"], [(⟨0x0B80, 0x0BFF⟩, "Tamil"), (⟨0x0900, 0x0950⟩, "Devanagari")]⟩

/-- Sequences of both scripts, one of them twice. -/
def mixedSequences : List ProhibitedSequence := [
  ⟨1, [0x0B85, 0x0BC2]⟩, ⟨2, [0x0905, 0x0946]⟩, ⟨3, [0x0905, 0x0945]⟩, ⟨4, [0x0905, 0x0946]⟩]

theorem ofSequences_compiled_mixedSequences :
    (∀ sequence ∈ mixedSequences, sequence.codepoints ≠ []) ∧
      ∃ matchers, ofSequences twoScripts mixedSequences = .ok matchers ∧
        (∃ trie, matchers.find? "Tamil" = some trie ∧
          trie.matchLength? [0x0B85, 0x0BC2, 0x0BCD] = some 2) ∧
        matchers.fix "Bengali" (.ofCodepoints [0x0905, 0x0946]) =
          (.ofCodepoints [0x0905, 0x0946], false) := by
  have filled : ∀ sequence ∈ mixedSequences, sequence.codepoints ≠ [] := by decide
  have compiled := ofSequences_compiled twoScripts mixedSequences filled
  obtain ⟨matchers, built⟩ := compiled.succeeds.mpr (by decide)
  obtain ⟨trie, found⟩ := (compiled.present matchers built "Tamil").mpr (by decide)
  refine ⟨filled, matchers, built, ⟨trie, found, ?_⟩, ?_⟩
  · exact ((compiled.matched matchers built "Tamil" trie found).2 _ 2).mpr (by decide)
  · exact compiled.untouched matchers built "Bengali" (by decide) _

end ScriptMatchers

end ShapingTables
