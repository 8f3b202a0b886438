import ShapingTables.Proofs.StoredSequences

/-! A refused insertion changes nothing. A chain is split before the sequence goes down into
the branch, so a refusal further down would leave the split behind; but sequences that are
not related can always be stored together, and a branch only puts back the child it took. -/
namespace ShapingTables

mutual

/-- Labels ascend in every branch, at every depth. A branch may be empty. -/
def TrieNode.Ordered : TrieNode → Prop
  | .chain _ => True
  | .branch children => children.Ordered

def Children.Ordered : Children → Prop
  | .nil => True
  | .cons label child others =>
    child.Ordered ∧ (∀ entry ∈ others.toList, label < entry.1) ∧ others.Ordered

end

namespace Children

variable {children : Children} {label : Nat} {child : TrieNode}

theorem find?_ordered (ordered : children.Ordered) (found : children.find? label = some child) :
    child.Ordered := by
  induction children using listInduction with
  | nil => simp [find?] at found
  | cons other node others ih =>
    rw [find?] at found
    split at found
    · exact Option.some.inj found ▸ ordered.1
    · exact ih ordered.2.2 found

/-- A child that is put back where it was found leaves the children as they were. -/
theorem put_found (ordered : children.Ordered) (found : children.find? label = some child) :
    children.put label child = children := by
  induction children using listInduction with
  | nil => simp [find?] at found
  | cons other node others ih =>
    obtain ⟨_, below, later⟩ := ordered
    rw [find?] at found
    rw [put]
    split at found
    · rename_i same
      rw [if_neg (by omega), if_pos same, ← Option.some.inj found]
    · -- The label is found behind this one, so it is greater.
      have less := below _ (mem_toList_of_find? found)
      rw [if_pos less, ih later found]

end Children

namespace TrieNode

/-- Sequences of which neither begins the other are stored together. -/
theorem insert_unrelated {stored sequence : List Nat} (unrelated : ¬PrefixRelated stored sequence) :
    (insert sequence (.chain stored)).2 = true := by
  rw [(insert_spec sequence (.chain stored) trivial).accepts]
  refine .inr fun other held => ?_
  rwa [holds_chain.mp held]

/-- An insertion into a chain that is refused is refused before the chain is split. -/
theorem insert_chain_refused {stored sequence : List Nat}
    (refused : (insert sequence (.chain stored)).2 = false) :
    (insert sequence (.chain stored)).1 = .chain stored := by
  cases sequence with
  | nil => rfl
  | cons first rest =>
    have related : PrefixRelated stored (first :: rest) := by
      apply Classical.not_not.mp
      intro unrelated
      rw [insert_unrelated unrelated] at refused
      contradiction
    rw [insert]
    split
    · rfl
    · rw [if_pos (by simpa [PrefixRelated] using related)]

theorem insert_refused (sequence : List Nat) {node : TrieNode} (ordered : node.Ordered)
    (refused : (insert sequence node).2 = false) : (insert sequence node).1 = node := by
  induction sequence generalizing node with
  | nil => rfl
  | cons first rest ih =>
    cases node with
    | chain stored => exact insert_chain_refused refused
    | branch children =>
      rw [insert, Children.grow] at refused ⊢
      cases found : children.find? first with
      | none => simp [found] at refused
      | some child =>
        simp only [found] at refused ⊢
        rw [ih (Children.find?_ordered ordered found) refused, Children.put_found ordered found]

end TrieNode

namespace SequenceTrie

def Ordered (trie : SequenceTrie) : Prop := ∀ root, trie.root? = some root → root.Ordered

theorem insert_refused {trie : SequenceTrie} (ordered : trie.Ordered) {sequence : List Nat}
    (refused : (trie.insert sequence).2 = false) : (trie.insert sequence).1 = trie := by
  rw [insert] at refused ⊢
  split
  · rfl
  · rename_i filled
    rw [if_neg filled] at refused
    cases found : trie.root? with
    | none => simp [found] at refused
    | some root =>
      simp only [found] at refused ⊢
      rw [TrieNode.insert_refused sequence (ordered root found) refused, ← found]

/-- What is refused leaves everything as it was, below any node and in any trie, and a chain that
has become a branch stores the new sequence. -/
theorem refused_unchanged :
    (∀ node : TrieNode, node.Ordered → ∀ sequence, (node.insert sequence).2 = false →
      (node.insert sequence).1 = node) ∧
    (∀ stored sequence children, (TrieNode.insert sequence (.chain stored)).1 = .branch children →
      (TrieNode.insert sequence (.chain stored)).2 = true) ∧
    ∀ trie : SequenceTrie, trie.Ordered → ∀ sequence, (trie.insert sequence).2 = false →
      (trie.insert sequence).1 = trie := by
  refine ⟨fun node ordered sequence => TrieNode.insert_refused sequence ordered, ?_,
    fun trie ordered sequence => insert_refused ordered⟩
  intro stored sequence children branched
  cases accepted : (TrieNode.insert sequence (.chain stored)).2 with
  | true => rfl
  | false =>
    rw [TrieNode.insert_chain_refused accepted] at branched
    contradiction

def vowelNode : TrieNode :=
  .branch (.cons 0x0905 (.branch (.cons 0x0945 .leaf (.cons 0x0946 .leaf .nil)))
    (.cons 0x0909 (.chain [0x0941]) .nil))

theorem refused_unchanged_vowelNode :
    vowelNode.Ordered ∧ (vowelNode.insert [0x0905]).2 = false ∧
      (vowelNode.insert [0x0905]).1 = vowelNode ∧
      (vowelNode.insert [0x0909, 0x0941, 0x0945]).2 = false ∧
      (vowelNode.insert [0x0909, 0x0941, 0x0945]).1 = vowelNode ∧
      ((⟨"Devanagari", some vowelNode⟩ : SequenceTrie).insert []).2 = false ∧
      ((⟨"Devanagari", some vowelNode⟩ : SequenceTrie).insert []).1 =
        ⟨"Devanagari", some vowelNode⟩ := by
  have ordered : vowelNode.Ordered := by
    simp [vowelNode, TrieNode.Ordered, Children.Ordered, Children.toList, TrieNode.leaf]
  have trieOrdered : (⟨"Devanagari", some vowelNode⟩ : SequenceTrie).Ordered := by
    rintro root ⟨⟩
    exact ordered
  obtain ⟨nodes, _, tries⟩ := refused_unchanged
  exact ⟨ordered, by decide, nodes vowelNode ordered _ (by decide), by decide,
    nodes vowelNode ordered _ (by decide), by decide, tries _ trieOrdered _ (by decide)⟩

end SequenceTrie

end ShapingTables
