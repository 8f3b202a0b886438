import Mathlib.Data.Finset.Option
import Mathlib.Data.Finset.Sort
import Mathlib.Data.Finset.Union
import Mathlib.Data.List.Lex
import Mathlib.Order.Lattice.Nat
import ShapingTables.Proofs.CanonicalTries

/-! The shape that a set of sequences gives to its trie, said without any insertion: a
single sequence is a chain, several are a branch on their first codepoints. Whatever the
history of insertions, the trie has the shape of the sequences that were accepted. -/
namespace ShapingTables

/-- The codepoints that the sequences begin with, in ascending order. -/
def firstsOf (sequences : Finset (List Nat)) : List Nat :=
  (sequences.biUnion fun sequence => sequence.head?.toFinset).sort (· ≤ ·)

/-- What follows a first codepoint in the sequences that begin with it. -/
def restsOf (first : Nat) (sequences : Finset (List Nat)) : Finset (List Nat) :=
  (sequences.filter (·.head? = some first)).image List.tail

theorem mem_firstsOf {first : Nat} {sequences : Finset (List Nat)} :
    first ∈ firstsOf sequences ↔ ∃ rest, first :: rest ∈ sequences := by
  simp only [firstsOf, Finset.mem_sort, Finset.mem_biUnion, Option.mem_toFinset, Option.mem_def]
  constructor
  · rintro ⟨sequence, member, begins⟩
    exact ⟨sequence.tail, List.cons_head?_tail begins ▸ member⟩
  · rintro ⟨rest, member⟩
    exact ⟨first :: rest, member, rfl⟩

theorem mem_restsOf {first : Nat} {sequences : Finset (List Nat)} {rest : List Nat} :
    rest ∈ restsOf first sequences ↔ first :: rest ∈ sequences := by
  simp only [restsOf, Finset.mem_image, Finset.mem_filter]
  constructor
  · rintro ⟨sequence, ⟨member, begins⟩, rfl⟩
    rwa [List.cons_head?_tail begins]
  · exact fun member => ⟨first :: rest, ⟨member, rfl⟩, rfl⟩

/-- The longest of the sequences loses its first codepoint. -/
theorem sup_restsOf_lt {first : Nat} {sequences : Finset (List Nat)}
    (begins : first ∈ firstsOf sequences) :
    (restsOf first sequences).sup List.length < sequences.sup List.length := by
  have longer : ∀ rest, first :: rest ∈ sequences → rest.length < sequences.sup List.length :=
    fun rest member => Nat.lt_of_succ_le (Finset.le_sup (f := List.length) member)
  obtain ⟨rest, member⟩ := mem_firstsOf.mp begins
  rw [Finset.sup_lt_iff (Nat.zero_lt_of_lt (longer rest member))]
  exact fun other present => longer other (mem_restsOf.mp present)

def Children.ofList (entries : List (Nat × TrieNode)) : Children :=
  entries.foldr (fun entry others => .cons entry.1 entry.2 others) .nil

theorem Children.ofList_toList (children : Children) : ofList children.toList = children := by
  induction children using listInduction with
  | nil => rfl
  | cons label child others ih => rw [toList, ofList, List.foldr_cons, ← ofList, ih]

/-- The node of a set of sequences. -/
def TrieNode.normal (sequences : Finset (List Nat)) : TrieNode :=
  match sequences.sort (· ≤ ·) with
  | [sequence] => .chain sequence
  | _ => .branch (.ofList ((firstsOf sequences).attach.map fun first =>
      (first.val, normal (restsOf first.val sequences))))
termination_by sequences.sup List.length
decreasing_by exact sup_restsOf_lt first.property

theorem TrieNode.normal_singleton (sequence : List Nat) : normal {sequence} = .chain sequence := by
  rw [normal, Finset.sort_singleton]

theorem TrieNode.normal_several {sequences : Finset (List Nat)} (several : 1 < sequences.card) :
    normal sequences = .branch (.ofList ((firstsOf sequences).map fun first =>
      (first, normal (restsOf first sequences)))) := by
  rw [normal]
  split
  · rename_i single
    rw [← Finset.length_sort (· ≤ ·), single] at several
    exact absurd several (Nat.lt_irrefl 1)
  · simp only [List.map_attach_eq_pmap, List.pmap_eq_map]

namespace Children

variable {children : Children} {label : Nat} {child : TrieNode}

theorem labels_ascend (valid : children.Valid) :
    (children.toList.map (·.1)).Pairwise (· < ·) := by
  induction children using listInduction with
  | nil => exact .nil
  | cons label child others ih =>
    obtain ⟨_, below, later⟩ := valid
    exact List.pairwise_cons.mpr ⟨List.forall_mem_map.mpr below, ih later⟩

theorem find?_of_mem (valid : children.Valid) (member : (label, child) ∈ children.toList) :
    children.find? label = some child := by
  induction children using listInduction with
  | nil => simp [toList] at member
  | cons other node others ih =>
    obtain ⟨_, below, later⟩ := valid
    rw [find?]
    rcases List.mem_cons.mp member with same | behind
    · cases same
      rw [if_pos rfl]
    · have less : other < label := below _ behind
      rw [if_neg (Nat.ne_of_lt less), ih later behind]

theorem holds_entry (valid : children.Valid) {entry : Nat × TrieNode}
    (member : entry ∈ children.toList) (rest : List Nat) :
    TrieNode.Holds (entry.1 :: rest) (.branch children) ↔ entry.2.Holds rest := by
  simp [TrieNode.Holds, find?_of_mem valid member]

/-- The labels of a branch are what its sequences begin with. -/
theorem firstsOf_eq (valid : children.Valid) {sequences : Finset (List Nat)}
    (same : ∀ sequence, sequence ∈ sequences ↔ TrieNode.Holds sequence (.branch children)) :
    firstsOf sequences = children.toList.map (·.1) := by
  have ascend := labels_ascend valid
  rw [firstsOf, ← (List.toFinset_sort (· ≤ ·) (ascend.imp Nat.ne_of_lt)).mpr
    (ascend.imp Nat.le_of_lt)]
  congr 1
  ext label
  rw [← Finset.mem_sort (· ≤ ·), ← firstsOf, mem_firstsOf, List.mem_toFinset, List.mem_map]
  simp only [same]
  constructor
  · rintro ⟨rest, child, found, _⟩
    exact ⟨(label, child), mem_toList_of_find? found, rfl⟩
  · rintro ⟨⟨_, child⟩, member, rfl⟩
    have found := find?_of_mem valid member
    obtain ⟨rest, held⟩ := child.exists_holds (find?_valid valid found)
    exact ⟨rest, child, found, held⟩

end Children

mutual

/-- A canonical node is that of the sequences it stores. -/
theorem TrieNode.normal_eq : ∀ (node : TrieNode) (_ : node.Valid) (_ : node.Canonical)
    (sequences : Finset (List Nat)) (_ : ∀ sequence, sequence ∈ sequences ↔ node.Holds sequence),
    TrieNode.normal sequences = node
  | .chain rest, _, _, sequences, same => by
    have single : sequences = {rest} := by
      ext sequence
      rw [same, TrieNode.holds_chain, Finset.mem_singleton]
    rw [single, TrieNode.normal_singleton]
  | .branch children, valid, canonical, sequences, same => by
    obtain ⟨⟨one, other, different, oneHeld, otherHeld⟩, below⟩ := canonical
    have several : 1 < sequences.card := Finset.one_lt_card.mpr
      ⟨one, (same one).mpr oneHeld, other, (same other).mpr otherHeld, different⟩
    rw [TrieNode.normal_several several, Children.firstsOf_eq valid.2 same, List.map_map]
    have entries : children.toList.map ((fun first =>
        (first, TrieNode.normal (restsOf first sequences))) ∘ (·.1)) = children.toList.map id := by
      refine List.map_congr_left fun entry member => Prod.ext rfl ?_
      refine Children.normal_eq children valid.2 below entry member _ fun rest => ?_
      rw [mem_restsOf, same, Children.holds_entry valid.2 member]
    rw [entries, List.map_id, Children.ofList_toList]

theorem Children.normal_eq : ∀ (children : Children) (_ : children.Valid) (_ : children.Canonical),
    ∀ entry ∈ children.toList, ∀ sequences : Finset (List Nat),
      (∀ sequence, sequence ∈ sequences ↔ entry.2.Holds sequence) →
      TrieNode.normal sequences = entry.2
  | .nil, _, _, entry, member => by simp [Children.toList] at member
  | .cons label child others, valid, canonical, entry, member => by
    rcases List.mem_cons.mp member with rfl | later
    · exact TrieNode.normal_eq child valid.1 canonical.1
    · exact Children.normal_eq others valid.2.2 canonical.2 entry later

end

namespace SequenceTrie

/-- The trie of a set of sequences. -/
def normal (script : String) (sequences : Finset (List Nat)) : SequenceTrie :=
  ⟨script, if sequences = ∅ then none else some (.normal sequences)⟩

/-- A canonical trie is that of the sequences it stores. -/
theorem normal_eq {trie : SequenceTrie} {stored : List (List Nat)} (records : trie.Records stored)
    (canonical : trie.Canonical) : normal trie.script stored.toFinset = trie := by
  obtain ⟨script, root?⟩ := trie
  cases root? with
  | none => simp [normal, records_none records rfl]
  | some root =>
    have held : ∀ sequence, sequence ∈ stored.toFinset ↔ root.Holds sequence := by
      intro sequence
      rw [List.mem_toFinset, records.holds, Holds]
      simp
    obtain ⟨sequence, present⟩ := root.exists_holds (records.valid root rfl)
    have filled : stored.toFinset ≠ ∅ := Finset.ne_empty_of_mem ((held sequence).mpr present)
    rw [normal, if_neg filled,
      TrieNode.normal_eq root (records.valid root rfl) (canonical root rfl) _ held]

theorem foldl_attempt_canonical (attempts : List (List Nat))
    (state : SequenceTrie × List (List Nat)) (records : state.1.Records state.2)
    (canonical : state.1.Canonical) :
    (attempts.foldl attempt state).1.Canonical ∧
      (attempts.foldl attempt state).1.script = state.1.script := by
  induction attempts generalizing state with
  | nil => exact ⟨canonical, rfl⟩
  | cons sequence rest ih =>
    have later := ih (attempt state sequence) (insert_records records sequence)
      (insert_canonical records canonical sequence)
    exact ⟨later.1, later.2.trans (insert_script state.1 sequence)⟩

/-- After any history the trie is that of the accepted sequences. -/
theorem afterAttempts_eq (script : String) (attempts : List (List Nat)) :
    (afterAttempts script attempts).1 = normal script (afterAttempts script attempts).2.toFinset ∧
      (afterAttempts script attempts).1.Canonical := by
  obtain ⟨canonical, sameScript⟩ :=
    foldl_attempt_canonical attempts (empty script, []) (records_empty script)
      (empty_canonical script)
  have shape := normal_eq (afterAttempts_records script attempts) canonical
  rw [afterAttempts, sameScript] at shape
  exact ⟨shape.symm, canonical⟩

/-- Sequences that could all be stored together. -/
structure Storable (sequences : List (List Nat)) : Prop where
  nonempty : [] ∉ sequences
  prefixFree : ∀ one ∈ sequences, ∀ other ∈ sequences, one <+: other → one = other

/-- None of them is refused, wherever it stands. -/
theorem Storable.foldl_attempt {all : List (List Nat)} (storable : Storable all)
    (attempts : List (List Nat)) (listed : ∀ sequence ∈ attempts, sequence ∈ all)
    (state : SequenceTrie × List (List Nat)) (records : state.1.Records state.2)
    (known : ∀ sequence ∈ state.2, sequence ∈ all) :
    (attempts.foldl attempt state).2 = state.2 ++ attempts := by
  induction attempts generalizing state with
  | nil => rw [List.foldl_nil, List.append_nil]
  | cons sequence rest ih =>
    obtain ⟨own, others⟩ := List.forall_mem_cons.mp listed
    have accepted : (state.1.insert sequence).2 = true := by
      refine (insert_accepts records sequence).mpr ⟨fun none => storable.nonempty (none ▸ own), ?_⟩
      by_cases present : sequence ∈ state.2
      · exact .inl present
      · refine .inr fun other member => ?_
        rintro (begins | begins)
        · exact present (storable.prefixFree other (known other member) sequence own begins ▸ member)
        · exact present (storable.prefixFree sequence own other (known other member) begins ▸ member)
    have step : (attempt state sequence).2 = state.2 ++ [sequence] := by
      rw [attempt, if_pos accepted]
    have knownStill : ∀ other ∈ (attempt state sequence).2, other ∈ all := by
      rw [step]
      exact List.forall_mem_append.mpr ⟨known, by simpa using own⟩
    have later := ih others (attempt state sequence) (insert_records records sequence) knownStill
    rw [List.foldl_cons, later, step, List.append_assoc, List.singleton_append]

theorem Storable.afterAttempts_eq {attempts : List (List Nat)} (storable : Storable attempts)
    (script : String) : (afterAttempts script attempts).1 = normal script attempts.toFinset := by
  rw [(SequenceTrie.afterAttempts_eq script attempts).1, afterAttempts,
    storable.foldl_attempt attempts (fun _ => id) _ (records_empty script) (by simp),
    List.nil_append]

/-- The trie depends on which sequences were accepted and on nothing else, and below every branch
there are at least two of them. -/
theorem afterAttempts_normal (script : String) (attempts : List (List Nat)) :
    (afterAttempts script attempts).1 = normal script (afterAttempts script attempts).2.toFinset ∧
      (afterAttempts script attempts).1.Canonical ∧
      ∀ others, Storable attempts → attempts.toFinset = others.toFinset →
        (afterAttempts script attempts).1 = (afterAttempts script others).1 := by
  obtain ⟨shape, canonical⟩ := afterAttempts_eq script attempts
  refine ⟨shape, canonical, fun others storable same => ?_⟩
  have listed : ∀ sequence, sequence ∈ attempts ↔ sequence ∈ others := by
    intro sequence
    rw [← List.mem_toFinset, same, List.mem_toFinset]
  have storableToo : Storable others := by
    refine ⟨fun member => storable.nonempty ((listed _).mpr member), ?_⟩
    intro one first other second
    exact storable.prefixFree one ((listed _).mpr first) other ((listed _).mpr second)
  rw [storable.afterAttempts_eq, storableToo.afterAttempts_eq, same]

/-- Two of the sequences share their first codepoint. -/
def sharedVowel : List (List Nat) := [[0x0905, 0x0946], [0x0909, 0x0941], [0x0905, 0x0945]]

def sharedVowelAgain : List (List Nat) :=
  [[0x0905, 0x0945], [0x0905, 0x0946], [0x0905, 0x0945], [0x0909, 0x0941]]

theorem afterAttempts_normal_sharedVowel :
    Storable sharedVowel ∧ sharedVowel.toFinset = sharedVowelAgain.toFinset ∧
      (afterAttempts "Devanagari" sharedVowel).1 =
        (afterAttempts "Devanagari" sharedVowelAgain).1 ∧
      (normal "Devanagari" sharedVowel.toFinset).root? = some (.branch
        (.cons 0x0905 (.branch (.cons 0x0945 .leaf (.cons 0x0946 .leaf .nil)))
          (.cons 0x0909 (.chain [0x0941]) .nil))) := by
  have storable : Storable sharedVowel := ⟨by decide, by decide⟩
  have same : sharedVowel.toFinset = sharedVowelAgain.toFinset := by decide
  obtain ⟨shape, _, orders⟩ := afterAttempts_normal "Devanagari" sharedVowel
  have accepted : (afterAttempts "Devanagari" sharedVowel).2 = sharedVowel := by decide
  rw [accepted] at shape
  exact ⟨storable, same, orders sharedVowelAgain storable same, shape ▸ by decide⟩

end SequenceTrie

end ShapingTables
