import ShapingTables.Build
import ShapingTables.Proofs.MatcherOrder
import ShapingTables.Proofs.SequenceLines

/-! The values in the tries of built matchers. They are those of the listed sequences. Only the
first value of a sequence is known to be a codepoint, since it has a script; what is listed
behind it is not held against the end of the codespace. -/
namespace ShapingTables

mutual

/-- The values of the chains and the labels of the branches below a node. -/
def TrieNode.values : TrieNode → List Nat
  | .chain rest => rest
  | .branch children => children.values

def Children.values : Children → List Nat
  | .nil => []
  | .cons label child others => label :: (child.values ++ others.values)

end

mutual

/-- A node has the values of its sequences. -/
theorem TrieNode.mem_values : ∀ (node : TrieNode) (_ : node.Valid) (value : Nat),
    value ∈ node.values ↔ ∃ sequence ∈ node.sequences, value ∈ sequence
  | .chain rest, _, value => by simp [TrieNode.values, TrieNode.sequences]
  | .branch children, valid, value => Children.mem_values children valid.2 value

theorem Children.mem_values : ∀ (children : Children) (_ : children.Valid) (value : Nat),
    value ∈ children.values ↔ ∃ sequence ∈ children.sequences, value ∈ sequence
  | .nil, _, value => by simp [Children.values, Children.sequences]
  | .cons label child others, valid, value => by
    have below := TrieNode.mem_values child valid.1 value
    have later := Children.mem_values others valid.2.2 value
    obtain ⟨held, stored⟩ := TrieNode.exists_holds child valid.1
    have listed := (TrieNode.mem_sequences child valid.1 held).mpr stored
    simp only [Children.values, Children.sequences, List.mem_cons, List.mem_append, List.mem_map,
      below, later]
    constructor
    · rintro (rfl | ⟨sequence, member, inside⟩ | ⟨sequence, member, inside⟩)
      · exact ⟨value :: held, .inl ⟨held, listed, rfl⟩, List.mem_cons_self⟩
      · exact ⟨label :: sequence, .inl ⟨sequence, member, rfl⟩, List.mem_cons_of_mem _ inside⟩
      · exact ⟨sequence, .inr member, inside⟩
    · rintro ⟨_, ⟨sequence, member, rfl⟩ | member, inside⟩
      · rcases List.mem_cons.mp inside with rfl | inside
        · exact .inl rfl
        · exact .inr (.inl ⟨sequence, member, inside⟩)
      · exact .inr (.inr ⟨_, member, inside⟩)

end

namespace ScriptMatchers

open ProhibitedSequence (mem_ofScript)

/-- A chain or a branch of some trie has the value. -/
def Stores (matchers : ScriptMatchers) (value : Nat) : Prop :=
  ∃ trie ∈ matchers.tries, ∃ root, trie.root? = some root ∧ value ∈ root.values

variable {scripts : ScriptTable} {sequences : List ProhibitedSequence} {matchers : ScriptMatchers}

section Built

variable (filled : ∀ sequence ∈ sequences, sequence.codepoints ≠ [])
  (built : ofSequences scripts sequences = .ok matchers)
include filled built

theorem exists_script {sequence : ProhibitedSequence} (member : sequence ∈ sequences) :
    ∃ script, sequence.script? scripts = some script := by
  have sound := ((exists_ofSequences_iff filled).trans (no_fault_iff sequences)).mp ⟨_, built⟩
  exact Option.isSome_iff_exists.mp (sound.1 sequence member)

/-- Built matchers store the values of the sequences and no others. -/
theorem stores_iff (value : Nat) :
    matchers.Stores value ↔ ∃ sequence ∈ sequences, value ∈ sequence.codepoints := by
  have scripted {sequence} (member : sequence ∈ sequences) := exists_script filled built member
  obtain ⟨tries, grouped, rfl⟩ := ofSequences_eq_ok filled built
  constructor
  · rintro ⟨trie, member, root, found, inside⟩
    have records := grouped.records trie (List.mem_mergeSort.mp member)
    have valid := records.valid root found
    obtain ⟨codepoints, listed, inside⟩ := (TrieNode.mem_values root valid value).mp inside
    have held := (TrieNode.mem_sequences root valid codepoints).mp listed
    obtain ⟨sequence, origin, _, rfl⟩ :=
      mem_ofScript.mp ((records.holds codepoints).mpr ⟨root, found, held⟩)
    exact ⟨sequence, origin, inside⟩
  · rintro ⟨sequence, member, inside⟩
    obtain ⟨script, own⟩ := scripted member
    obtain ⟨trie, present, rfl⟩ :=
      List.mem_map.mp ((grouped.listed script).mpr ⟨sequence, member, own⟩)
    have records := grouped.records trie present
    obtain ⟨root, found, held⟩ :=
      (records.holds sequence.codepoints).mp (mem_ofScript.mpr ⟨sequence, member, own, rfl⟩)
    have valid := records.valid root found
    refine ⟨trie, List.mem_mergeSort.mpr present, root, found, ?_⟩
    exact (TrieNode.mem_values root valid value).mpr
      ⟨_, (TrieNode.mem_sequences root valid _).mpr held, inside⟩

end Built

end ScriptMatchers

/-- Only codepoints have a script. -/
theorem ScriptTable.le_maxCodepoint {text : String} {table : ScriptTable}
    (read : ofText text = .ok table) {u : Nat} {script : String}
    (found : table.scriptOf? u = some script) : u ≤ maxCodepoint := by
  obtain ⟨rows, lines, rfl⟩ := ofText_eq_ok read
  rw [scriptOf?, ofEntries_ranges, RangeTable.find?_ofList_iff] at found
  obtain ⟨place, range, consulted, held⟩ := found
  obtain ⟨row, member, same⟩ := List.mem_map.mp (List.mem_of_getElem? consulted.here)
  obtain ⟨rfl, _⟩ := Prod.mk.inj same
  have bounds := DataFile.range_of_rows lines member
  have stop := (CodepointRange.contains_iff.mp held).2
  omega

/-- Every sequence that is read has at least two numbers, of at most six digits each. -/
theorem ProhibitedSequence.codepoints_of_ofText {text : String}
    {sequences : List ProhibitedSequence} (read : ofText text = .ok sequences)
    {sequence : ProhibitedSequence} (member : sequence ∈ sequences) :
    2 ≤ sequence.codepoints.length ∧ ∀ codepoint ∈ sequence.codepoints, codepoint < 0x1000000 := by
  obtain ⟨well, rfl⟩ := (readLines_eq_ok_iff 1 _ sequences).mp read
  obtain ⟨line, present, own⟩ := listedIn_of_mem_listed member
  have good := well line present
  rw [listedIn] at own
  split at own
  · contradiction
  · rename_i filled
    rw [← Option.some.inj own, List.length_map, List.forall_mem_map]
    exact ⟨good.length.resolve_left filled, fun word member => (good.numerals word member).value_lt⟩

namespace ScriptMatchers

variable {scripts : ScriptTable} {sequences : List ProhibitedSequence} {matchers : ScriptMatchers}

theorem ofSource_eq {source : Source} (first : source.read .scripts ScriptTable.ofText = .ok scripts)
    (second : source.read .invalidClusters ProhibitedSequence.ofText = .ok sequences) :
    ofSource source = ofSequences scripts sequences := by
  rw [ofSource, first, second]
  rfl

/-- Tries that are in order already stay where they are. -/
theorem ofSequences_sorted {tries : List SequenceTrie}
    (folded : sequences.foldlM (add scripts) [] = .ok tries)
    (sorted : tries.Pairwise fun one other => inOrder scripts one other) :
    ofSequences scripts sequences = .ok ⟨tries⟩ := by
  rw [ofSequences, folded, Except.map, List.mergeSort_of_pairwise sorted]

/-- What matchers are built from: scripts of codepoints and sequences of small numbers. -/
theorem ofSource_reads {source : Source} (built : ofSource source = .ok matchers) :
    ∃ scripts sequences,
      source.read .invalidClusters ProhibitedSequence.ofText = .ok sequences ∧
      ofSequences scripts sequences = .ok matchers ∧
      (∀ sequence ∈ sequences, 2 ≤ sequence.codepoints.length ∧
        ∀ codepoint ∈ sequence.codepoints, codepoint < 0x1000000) ∧
      ∀ u script, scripts.scriptOf? u = some script → u ≤ maxCodepoint := by
  rw [ofSource] at built
  obtain ⟨scripts, table, built⟩ := bind_eq_ok built
  obtain ⟨sequences, read, built⟩ := bind_eq_ok built
  obtain ⟨_, _, parsed⟩ := Source.read_eq_ok read
  obtain ⟨_, _, table⟩ := Source.read_eq_ok table
  exact ⟨scripts, sequences, read, built,
    fun sequence member => ProhibitedSequence.codepoints_of_ofText parsed member,
    fun u script found => ScriptTable.le_maxCodepoint table found⟩

/-- Built matchers store the values that the list of sequences holds, all of them of at most six
digits. The first one of each sequence lies in the codespace; one beyond it is stored exactly
if it is listed behind a first one. -/
theorem stores_ofSource (source : Source) (matchers : ScriptMatchers)
    (built : ofSource source = .ok matchers) :
    ∃ sequences, source.read .invalidClusters ProhibitedSequence.ofText = .ok sequences ∧
      (∀ value, matchers.Stores value ↔ ∃ sequence ∈ sequences, value ∈ sequence.codepoints) ∧
      (∀ value, matchers.Stores value → value < 0x1000000) ∧
      (∀ sequence ∈ sequences, ∃ first rest,
        sequence.codepoints = first :: rest ∧ first ≤ maxCodepoint) ∧
      ∀ value, maxCodepoint < value →
        (matchers.Stores value ↔ ∃ sequence ∈ sequences, value ∈ sequence.codepoints.tail) := by
  obtain ⟨scripts, sequences, read, built, small, inside⟩ := ofSource_reads built
  have filled : ∀ sequence ∈ sequences, sequence.codepoints ≠ [] := by
    intro sequence member none
    have length := (small sequence member).1
    simp [none] at length
  have stores := stores_iff filled built
  have firsts : ∀ sequence ∈ sequences, ∃ first rest,
      sequence.codepoints = first :: rest ∧ first ≤ maxCodepoint := by
    intro sequence member
    obtain ⟨script, own⟩ := exists_script filled built member
    obtain ⟨first, rest, codepoints⟩ := List.exists_cons_of_ne_nil (filled sequence member)
    rw [ProhibitedSequence.script?, codepoints] at own
    exact ⟨first, rest, codepoints, inside first script own⟩
  refine ⟨sequences, read, stores, fun value held => ?_, firsts, fun value beyond => ?_⟩
  · obtain ⟨sequence, member, listed⟩ := (stores value).mp held
    exact (small sequence member).2 value listed
  · rw [stores]
    refine exists_congr fun sequence => and_congr_right fun member => ?_
    obtain ⟨first, rest, codepoints, bound⟩ := firsts sequence member
    have other : value ≠ first := by omega
    simp [codepoints, other]

/-- A sequence whose second number lies beyond the codespace. -/
def beyondSource : Source := .ofTexts fun
  | .scripts => some "0900..097F ; Devanagari\n"
  | .invalidClusters => some "0905 110000\n"
  | _ => none

def beyondScripts : ScriptTable := ⟨["Devanagari"], [(⟨0x900, 0x97F⟩, "Devanagari")]⟩

def beyondMatchers : ScriptMatchers := ⟨[⟨"Devanagari", some (.chain [0x905, 0x110000])⟩]⟩

theorem ofSource_beyondSource : ofSource beyondSource = .ok beyondMatchers := by
  have rows : DataFile.rows .plain "0900..097F ; Devanagari\n" =
      .ok [⟨1, ⟨0x900, 0x97F⟩, ["Devanagari"]⟩] := rfl
  have table : ScriptTable.ofText "0900..097F ; Devanagari\n" = .ok beyondScripts := by
    rw [ScriptTable.ofText, rows]
    exact congrArg Except.ok (ScriptTable.ofEntries_ascending (by decide) (by decide))
  have scripts : beyondSource.read .scripts ScriptTable.ofText = .ok beyondScripts :=
    congrArg (·.mapError (SourceFile.located .scripts)) table
  have sequences : beyondSource.read .invalidClusters ProhibitedSequence.ofText =
      .ok [⟨1, [0x905, 0x110000]⟩] := rfl
  rw [ofSource_eq scripts sequences]
  exact ofSequences_sorted rfl (by decide)

theorem stores_ofSource_beyondSource :
    ofSource beyondSource = .ok beyondMatchers ∧
      ∃ sequences, beyondSource.read .invalidClusters ProhibitedSequence.ofText = .ok sequences ∧
        (∀ value, beyondMatchers.Stores value ↔
          ∃ sequence ∈ sequences, value ∈ sequence.codepoints) ∧
        (beyondMatchers.Stores 0x110000 ↔
          ∃ sequence ∈ sequences, 0x110000 ∈ sequence.codepoints.tail) := by
  obtain ⟨sequences, read, stores, _, _, behind⟩ := stores_ofSource _ _ ofSource_beyondSource
  exact ⟨ofSource_beyondSource, sequences, read, stores, behind 0x110000 (by decide)⟩

/-- A value that is no codepoint reaches the matchers. -/
theorem ofSource_beyondCodespace : ∃ matchers value, ofSource beyondSource = .ok matchers ∧
    matchers.Stores value ∧ maxCodepoint < value := by
  refine ⟨beyondMatchers, 0x110000, ofSource_beyondSource, ?_, by decide⟩
  exact ⟨_, List.mem_singleton_self _, _, rfl, by decide⟩

end ScriptMatchers

end ShapingTables
