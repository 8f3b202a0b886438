import ShapingTables.Proofs.Entries
import ShapingTables.Proofs.Listing.MatcherText
import ShapingTables.Proofs.TrieValues

/-! Whether the functions of generated matchers can be told apart by their names. The name of a
script's function keeps letters and digits only, so two scripts may share one; then the file
defines a function twice, and nothing that the one name could mean serves both scripts. -/
namespace ShapingTables

open Generated

mutual

/-- A node consists of words if its sequences do. -/
theorem TrieNode.ofWords_of_holds (node : TrieNode) (valid : node.Valid)
    (words : ∀ sequence, node.Holds sequence → ∀ codepoint ∈ sequence, codepoint < wordSize) :
    node.OfWords := by
  match node with
  | .chain rest => exact words rest (TrieNode.holds_chain.mpr rfl)
  | .branch children => exact Children.ofWords_of_holds children valid.2 words

theorem Children.ofWords_of_holds (children : Children) (valid : children.Valid)
    (words : ∀ sequence, (TrieNode.branch children).Holds sequence →
      ∀ codepoint ∈ sequence, codepoint < wordSize) : children.OfWords := by
  match children with
  | .nil => trivial
  | .cons label child others =>
    have here : ∀ rest, child.Holds rest → ∀ codepoint ∈ label :: rest, codepoint < wordSize :=
      fun rest held => words _ ((Children.holds_here label child others rest).mpr held)
    have later : ∀ sequence, (TrieNode.branch others).Holds sequence →
        ∀ codepoint ∈ sequence, codepoint < wordSize := by
      intro sequence held
      obtain ⟨first, rest, node, rfl, found, _⟩ := TrieNode.holds_branch.mp held
      have below := valid.2.1 _ (Children.mem_toList_of_find? found)
      exact words _ ((Children.holds_later (Nat.ne_of_lt below) child others rest).mpr held)
    obtain ⟨sequence, stored⟩ := TrieNode.exists_holds child valid.1
    refine ⟨here sequence stored label List.mem_cons_self, ?_, valid.2.1, ?_⟩
    · exact TrieNode.ofWords_of_holds child valid.1 fun rest held codepoint member =>
        here rest held codepoint (List.mem_cons_of_mem _ member)
    · exact Children.ofWords_of_holds others valid.2.2 later

end

theorem SequenceTrie.Records.ofWords {trie : SequenceTrie} {stored : List (List Nat)}
    (records : trie.Records stored)
    (words : ∀ sequence ∈ stored, ∀ codepoint ∈ sequence, codepoint < wordSize) {root : TrieNode}
    (found : trie.root? = some root) : root.OfWords :=
  TrieNode.ofWords_of_holds root (records.valid root found) fun sequence held =>
    words sequence ((records.holds sequence).mpr ⟨root, found, held⟩)

namespace ScriptMatchers

variable {scripts : ScriptTable} {sequences : List ProhibitedSequence} {matchers : ScriptMatchers}

/-- The tries of built matchers consist of words. -/
def OfWords (matchers : ScriptMatchers) : Prop :=
  ∀ trie ∈ matchers.tries, ∀ root, trie.root? = some root → root.OfWords

theorem ofSource_eq_ok {source : Source} (built : ofSource source = .ok matchers) :
    ∃ scripts sequences, ofSequences scripts sequences = .ok matchers ∧
      ∀ sequence ∈ sequences, sequence.codepoints ≠ [] ∧
        ∀ codepoint ∈ sequence.codepoints, codepoint < wordSize := by
  obtain ⟨scripts, sequences, _, built, small, _⟩ := ofSource_reads built
  refine ⟨scripts, sequences, built, fun sequence member => ?_⟩
  obtain ⟨length, digits⟩ := small sequence member
  refine ⟨fun none => ?_, fun codepoint inside => ?_⟩
  · simp [none] at length
  · exact Nat.lt_trans (digits codepoint inside) (by decide)

theorem Grouped.ofWords {tries : List SequenceTrie} (grouped : Grouped scripts sequences tries)
    (words : ∀ sequence ∈ sequences, ∀ codepoint ∈ sequence.codepoints, codepoint < wordSize) :
    (ScriptMatchers.mk (tries.mergeSort (inOrder scripts))).OfWords := by
  intro trie member root found
  have records := grouped.records trie (List.mem_mergeSort.mp member)
  refine records.ofWords (fun codepoints listed => ?_) found
  obtain ⟨sequence, origin, _, rfl⟩ := ProhibitedSequence.mem_ofScript.mp listed
  exact words sequence origin

theorem ofWords_ofSource {source : Source} (built : ofSource source = .ok matchers) :
    matchers.OfWords := by
  obtain ⟨scripts, sequences, built, words⟩ := ofSource_eq_ok built
  obtain ⟨tries, grouped, rfl⟩ :=
    ofSequences_eq_ok (fun sequence member => (words sequence member).1) built
  exact grouped.ofWords fun sequence member => (words sequence member).2

/-- The sequences of one script mean nothing to another one. -/
theorem Grouped.matchLength?_other {tries : List SequenceTrie}
    (grouped : Grouped scripts sequences tries) {one other : SequenceTrie} (first : one ∈ tries)
    (second : other ∈ tries) {glyphs : List Nat} {length otherLength : Nat}
    (matched : one.matchLength? glyphs = some length)
    (matchedToo : other.matchLength? glyphs = some otherLength) : one.script = other.script := by
  have owner {trie : SequenceTrie} (member : trie ∈ tries) {length : Nat}
      (matched : trie.matchLength? glyphs = some length) :
      scripts.scriptOf? (glyphs.headD 0) = some trie.script := by
    have records := grouped.records trie member
    obtain ⟨codepoints, stored, begins, _⟩ :=
      (SequenceTrie.matchLength?_records records glyphs length).mp matched
    obtain ⟨sequence, _, own, rfl⟩ := ProhibitedSequence.mem_ofScript.mp stored
    obtain ⟨rest, rfl⟩ := begins
    rw [ProhibitedSequence.script?] at own
    cases written : sequence.codepoints with
    | nil =>
      rw [written] at stored
      exact absurd stored records.nonempty
    | cons first others =>
      rw [written] at own
      exact own
  exact Option.some.inj ((owner first matched).symm.trans (owner second matchedToo))

end ScriptMatchers

namespace MatcherListing

open ScriptMatchers (OfWords find?_eq_some_iff)

variable {matchers : ScriptMatchers}

theorem readable_ofMatchers (words : matchers.OfWords) : (ofMatchers matchers).Readable where
  functions function member := by
    obtain ⟨trie, origin, rfl⟩ := List.mem_map.mp member
    refine ⟨isName_functionName trie.script, fun body found => ?_⟩
    obtain ⟨root, present, rfl⟩ := Option.map_eq_some_iff.mp found
    exact TrieNode.OfWords.ofNode root (words trie origin root present) 0
  cases entry member := by
    obtain ⟨script, _, rfl⟩ := List.mem_map.mp member
    exact isName_functionName script

theorem names_file (matchers : ScriptMatchers) :
    (ofMatchers matchers).file.functions.map (·.1) = matchers.scripts.map functionName := by
  simp only [file, ofMatchers, ScriptMatchers.scripts, List.map_map]
  rfl

theorem distinct_file (matchers : ScriptMatchers) :
    (ofMatchers matchers).file.Distinct ↔ (matchers.scripts.map functionName).Nodup := by
  rw [MatcherFile.Distinct, names_file]

theorem lookup_cases (distinct : matchers.scripts.Nodup) (script : String) :
    (ofMatchers matchers).cases.lookup script =
      if script ∈ matchers.scripts then some (functionName script) else none := by
  have keys : ((ofMatchers matchers).cases.map (·.1)) = matchers.scripts := by
    simp [ofMatchers, Function.comp_def]
  split
  · rename_i listed
    rw [lookup_eq_some_iff (keys ▸ distinct)]
    exact List.mem_map_of_mem listed
  · rename_i unlisted
    apply Option.eq_none_iff_forall_ne_some.mpr
    intro called found
    have entry := (lookup_eq_some_iff (keys ▸ distinct) script called).mp found
    exact unlisted (keys ▸ List.mem_map_of_mem entry)

theorem cases_defined (matchers : ScriptMatchers) : ∀ entry ∈ (ofMatchers matchers).cases,
    entry.2 ∈ (ofMatchers matchers).functions.map (·.1) := by
  intro entry member
  obtain ⟨script, listed, rfl⟩ := List.mem_map.mp member
  obtain ⟨trie, origin, rfl⟩ := List.mem_map.mp listed
  exact List.mem_map_of_mem (List.mem_map_of_mem origin)

/-- Where the names are distinct and every case has its function, the file that is read selects as
the listing does. -/
theorem prohibitedRun_file {listing : MatcherListing} (distinct : listing.file.Distinct)
    (defined : ∀ entry ∈ listing.cases, entry.2 ∈ listing.functions.map (·.1))
    (script : String) (glyphs : List Nat) :
    listing.file.prohibitedRun script glyphs = .ok (listing.run? script glyphs) := by
  have names : listing.file.functions.map (·.1) = listing.functions.map (·.1) := by
    simp only [file, List.map_map]
    rfl
  have cases : listing.file.cases = listing.cases := rfl
  rw [MatcherFile.prohibitedRun, if_pos distinct, cases, run?]
  cases found : listing.cases.lookup script with
  | none => rfl
  | some called =>
    obtain ⟨front, rest, split, _⟩ := List.lookup_eq_some_iff.mp found
    obtain ⟨⟨own, measured⟩, member, same⟩ :=
      List.mem_map.mp (defined (script, called) (by simp [split]))
    obtain rfl : own = called := same
    have listed : listing.functions.lookup own = some measured :=
      (lookup_eq_some_iff (names ▸ distinct) own measured).mpr member
    have read : listing.file.functions.lookup own =
        some ((measured.map (·.code)).getD (.answer none)) := by
      have changed := lookup_map_snd (fun measured => (measured.map (·.code)).getD (.answer none))
        listing.functions own
      rw [listed] at changed
      exact changed
    simp only [read, listed, Option.getD_some, Option.bind_some]
    cases measured with
    | none => rfl
    | some body => exact body.eval_code glyphs

/-- With names of their own the listed functions answer what the tries answer. -/
theorem run?_ofMatchers (words : matchers.OfWords)
    (distinct : (matchers.scripts.map functionName).Nodup) (script : String) (glyphs : List Nat) :
    (ofMatchers matchers).run? script glyphs =
      (matchers.find? script).bind (·.matchLength? glyphs) := by
  have scripts : matchers.scripts.Nodup := distinct.of_map _
  rw [run?, lookup_cases scripts]
  cases found : matchers.find? script with
  | none =>
    have unlisted : script ∉ matchers.scripts := by
      intro listed
      obtain ⟨trie, member, own⟩ := List.mem_map.mp listed
      have other := (find?_eq_some_iff scripts script trie).mpr ⟨member, own⟩
      rw [found] at other
      contradiction
    rw [if_neg unlisted]
    rfl
  | some trie =>
    obtain ⟨member, rfl⟩ := (find?_eq_some_iff scripts script trie).mp found
    have names : (ofMatchers matchers).functions.map (·.1) = matchers.scripts.map functionName := by
      simp only [ofMatchers, ScriptMatchers.scripts, List.map_map]
      rfl
    have body : (ofMatchers matchers).functions.lookup (functionName trie.script) =
        some (trie.root?.map (MatchExpression.ofNode 0)) :=
      (lookup_eq_some_iff (names ▸ distinct) _ _).mpr (List.mem_map_of_mem member)
    have listed : trie.script ∈ matchers.scripts := List.mem_map_of_mem member
    rw [if_pos listed, Option.bind_some, body, Option.getD_some,
      Option.bind_some, SequenceTrie.matchLength?]
    cases present : trie.root? with
    | none => rfl
    | some root =>
      have answers := MatchExpression.eval_ofNode root (words trie member root present) 0 glyphs
        (Nat.zero_le _)
      simpa using answers

/-- Whatever the names of functions mean, the selection is right for all scripts only if no two of
them have one name. -/
theorem distinct_of_meaning {scripts : ScriptTable} {sequences : List ProhibitedSequence}
    (built : ScriptMatchers.ofSequences scripts sequences = .ok matchers)
    (filled : ∀ sequence ∈ sequences, sequence.codepoints ≠ [])
    {meaning : String → List Nat → Option Nat}
    (right : ∀ script glyphs, ((ofMatchers matchers).cases.lookup script).bind (meaning · glyphs) =
      (matchers.find? script).bind (·.matchLength? glyphs)) :
    (matchers.scripts.map functionName).Nodup := by
  obtain ⟨tries, grouped, rfl⟩ := ScriptMatchers.ofSequences_eq_ok filled built
  have distinct := ScriptMatchers.scripts_sorted_nodup grouped
  have answers {trie : SequenceTrie} (member : trie ∈ tries) (glyphs : List Nat) :
      meaning (functionName trie.script) glyphs = trie.matchLength? glyphs := by
    have listed : trie.script ∈ (ScriptMatchers.mk (tries.mergeSort
        (ScriptMatchers.inOrder scripts))).scripts :=
      List.mem_map_of_mem (List.mem_mergeSort.mpr member)
    have own := right trie.script glyphs
    rwa [lookup_cases distinct, if_pos listed,
      (ScriptMatchers.find?_sorted grouped trie.script trie).mpr ⟨member, rfl⟩] at own
  refine distinct.map_on ?_
  intro script listed otherScript listedToo same
  obtain ⟨one, first, rfl⟩ := List.mem_map.mp listed
  obtain ⟨other, second, rfl⟩ := List.mem_map.mp listedToo
  rw [List.mem_mergeSort] at first second
  -- Every script with a trie has a sequence, and with one meaning for both names the other trie
  -- would match it too.
  obtain ⟨sequence, origin, own⟩ := (grouped.listed one.script).mp (List.mem_map_of_mem first)
  have matched : one.matchLength? sequence.codepoints = some sequence.codepoints.length :=
    (SequenceTrie.matchLength?_records (grouped.records one first) _ _).mpr
      ⟨_, ProhibitedSequence.mem_ofScript.mpr ⟨sequence, origin, own, rfl⟩, List.prefix_rfl, rfl⟩
  have matchedToo := matched
  rw [← answers first, same, answers second] at matchedToo
  exact grouped.matchLength?_other first second matched matchedToo

/-- If two scripts have one function name, whatever it means is wrong for some script. -/
theorem exists_wrong {source : Source} (built : ScriptMatchers.ofSource source = .ok matchers)
    (shared : ¬(matchers.scripts.map functionName).Nodup)
    (meaning : String → List Nat → Option Nat) :
    ∃ script glyphs, ((ofMatchers matchers).cases.lookup script).bind (meaning · glyphs) ≠
      (matchers.find? script).bind (·.matchLength? glyphs) := by
  obtain ⟨scripts, sequences, built, words⟩ := ScriptMatchers.ofSource_eq_ok built
  by_contra never
  have right : ∀ script glyphs, ((ofMatchers matchers).cases.lookup script).bind (meaning · glyphs) =
      (matchers.find? script).bind (·.matchLength? glyphs) := by
    intro script glyphs
    by_contra wrong
    exact never ⟨script, glyphs, wrong⟩
  exact shared (distinct_of_meaning built (fun sequence member => (words sequence member).1) right)

/-- A generated file has a function under the name of each script with sequences. It selects as
the matchers do exactly if these names are distinct, and if they are not, no choice of what they
mean makes the selection right. -/
theorem prohibitedRun_ofSource (source : Source) (matchers : ScriptMatchers)
    (built : ScriptMatchers.ofSource source = .ok matchers) :
    ∃ file, MatcherFile.read? (ofMatchers matchers).text = some file ∧
      file.functions.map (·.1) = matchers.scripts.map functionName ∧
      file.cases = matchers.scripts.map (fun script => (script, functionName script)) ∧
      ((matchers.scripts.map functionName).Nodup ↔ ∀ script glyphs,
        file.prohibitedRun script glyphs =
          .ok ((matchers.find? script).bind (·.matchLength? glyphs))) ∧
      (¬(matchers.scripts.map functionName).Nodup → ∀ meaning : String → List Nat → Option Nat,
        ∃ script glyphs, (file.cases.lookup script).bind (meaning · glyphs) ≠
          (matchers.find? script).bind (·.matchLength? glyphs)) := by
  have words := ScriptMatchers.ofWords_ofSource built
  refine ⟨_, read?_text (readable_ofMatchers words), names_file matchers, rfl, ⟨?_, ?_⟩,
    exists_wrong built⟩
  · intro distinct script glyphs
    rw [prohibitedRun_file ((distinct_file matchers).mpr distinct) (cases_defined matchers),
      run?_ofMatchers words distinct]
  · intro right
    by_contra shared
    have silent := right "" []
    rw [MatcherFile.prohibitedRun, if_neg ((distinct_file matchers).not.mpr shared)] at silent
    contradiction

/-- Two scripts and one sequence of each. -/
def balineseSource : Source := .ofTexts fun
  | .scripts => some "1A20..1A5E ; Tai_Tham\n1B00..1B4B ; Balinese\n"
  | .invalidClusters => some "1A4B 1A63\n1B05 1B35\n"
  | _ => none

def balineseMatchers : ScriptMatchers :=
  ⟨[⟨"Tai_Tham", some (.chain [0x1A4B, 0x1A63])⟩, ⟨"Balinese", some (.chain [0x1B05, 0x1B35])⟩]⟩

theorem ofSource_balineseSource : ScriptMatchers.ofSource balineseSource = .ok balineseMatchers := by
  have scripts : balineseSource.read .scripts ScriptTable.ofText =
      .ok ScriptMatchers.ascendingScripts :=
    congrArg (·.mapError (SourceFile.located .scripts)) ScriptMatchers.ofText_ascendingLines
  have sequences : balineseSource.read .invalidClusters ProhibitedSequence.ofText =
      .ok [⟨1, [0x1A4B, 0x1A63]⟩, ⟨2, [0x1B05, 0x1B35]⟩] := rfl
  rw [ScriptMatchers.ofSource_eq scripts sequences]
  exact ScriptMatchers.ofSequences_sorted rfl (by decide)

theorem prohibitedRun_balineseSource :
    ScriptMatchers.ofSource balineseSource = .ok balineseMatchers ∧
      ∃ file, MatcherFile.read? (ofMatchers balineseMatchers).text = some file ∧
        file.functions.map (·.1) = ["match_tai_tham", "match_balinese"] ∧
        file.prohibitedRun "Balinese" [0x1B05, 0x1B35, 0x1B05] = .ok (some 2) ∧
        file.prohibitedRun "Tai_Tham" [0x1B05, 0x1B35] = .ok none ∧
        file.prohibitedRun "Balinese " [0x1B05, 0x1B35] = .ok none := by
  obtain ⟨file, read, names, _, right, _⟩ :=
    prohibitedRun_ofSource _ _ ofSource_balineseSource
  have runs := right.mp (by decide)
  refine ⟨ofSource_balineseSource, file, read, names, ?_, ?_, ?_⟩
  all_goals
    rw [runs]
    rfl

/-- Two scripts that differ in the mark between their words. -/
def taiLeSource : Source := .ofTexts fun
  | .scripts => some "1950..1974 ; Tai_Le\n1A20..1A5E ; Tai-Le\n"
  | .invalidClusters => some "1950 1963\n1A20 1A63\n"
  | _ => none

def taiLeScripts : ScriptTable where
  scripts := ["Tai_Le", "Tai-Le"]
  ranges := [(⟨0x1A20, 0x1A5E⟩, "Tai-Le"), (⟨0x1950, 0x1974⟩, "Tai_Le")]

def taiLeSequences : List ProhibitedSequence := [⟨1, [0x1950, 0x1963]⟩, ⟨2, [0x1A20, 0x1A63]⟩]

def taiLeMatchers : ScriptMatchers :=
  ⟨[⟨"Tai_Le", some (.chain [0x1950, 0x1963])⟩, ⟨"Tai-Le", some (.chain [0x1A20, 0x1A63])⟩]⟩

theorem ofSequences_taiLe :
    ScriptMatchers.ofSequences taiLeScripts taiLeSequences = .ok taiLeMatchers :=
  ScriptMatchers.ofSequences_sorted rfl (by decide)

theorem ofSource_taiLeSource : ScriptMatchers.ofSource taiLeSource = .ok taiLeMatchers := by
  have table : ScriptTable.ofText "1950..1974 ; Tai_Le\n1A20..1A5E ; Tai-Le\n" =
      .ok taiLeScripts := by
    have rows : DataFile.rows .plain "1950..1974 ; Tai_Le\n1A20..1A5E ; Tai-Le\n" =
        .ok [⟨1, ⟨0x1950, 0x1974⟩, ["Tai_Le"]⟩, ⟨2, ⟨0x1A20, 0x1A5E⟩, ["Tai-Le"]⟩] := rfl
    rw [ScriptTable.ofText, rows]
    exact congrArg Except.ok (ScriptTable.ofEntries_ascending (by decide) (by decide))
  have scripts : taiLeSource.read .scripts ScriptTable.ofText = .ok taiLeScripts :=
    congrArg (·.mapError (SourceFile.located .scripts)) table
  have sequences : taiLeSource.read .invalidClusters ProhibitedSequence.ofText =
      .ok taiLeSequences := rfl
  rw [ScriptMatchers.ofSource_eq scripts sequences, ofSequences_taiLe]

/-- The file for these scripts defines one function twice, and whatever its name means one of the
scripts is served wrongly. -/
theorem functionName_taiLe : ∃ matchers file, ScriptMatchers.ofSource taiLeSource = .ok matchers ∧
    MatcherFile.read? (ofMatchers matchers).text = some file ∧
    file.functions.map (·.1) = ["match_tai_le", "match_tai_le"] ∧
    file.cases = [("Tai_Le", "match_tai_le"), ("Tai-Le", "match_tai_le")] ∧
    ∀ meaning : String → List Nat → Option Nat, ∃ script glyphs,
      (file.cases.lookup script).bind (meaning · glyphs) ≠
        (matchers.find? script).bind (·.matchLength? glyphs) := by
  have words := ScriptMatchers.ofWords_ofSource ofSource_taiLeSource
  exact ⟨taiLeMatchers, _, ofSource_taiLeSource, read?_text (readable_ofMatchers words), by decide,
    by decide, exists_wrong ofSource_taiLeSource (by decide)⟩

end MatcherListing

end ShapingTables
