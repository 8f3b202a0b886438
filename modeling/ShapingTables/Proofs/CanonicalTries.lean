import ShapingTables.Proofs.StoredSequences

/-! One shape for each set of sequences. A branch stands only where at least two
sequences are stored below it, and insertions keep it so; a node is then determined by
what it stores, in whatever order that was inserted. -/
namespace ShapingTables

mutual

/-- Two sequences are stored below every branch, at every depth. -/
def TrieNode.Canonical : TrieNode → Prop
  | .chain _ => True
  | .branch children =>
    (∃ one other, one ≠ other ∧ TrieNode.Holds one (.branch children) ∧
      TrieNode.Holds other (.branch children)) ∧ children.Canonical

def Children.Canonical : Children → Prop
  | .nil => True
  | .cons _ child others => child.Canonical ∧ others.Canonical

end

namespace Children

theorem find?_canonical {children : Children} (canonical : children.Canonical) {label : Nat}
    {child : TrieNode} (found : children.find? label = some child) : child.Canonical := by
  induction children using listInduction with
  | nil => simp [find?] at found
  | cons other node others ih =>
    rw [find?] at found
    split at found
    · exact Option.some.inj found ▸ canonical.1
    · exact ih canonical.2 found

theorem put_canonical {children : Children} (canonical : children.Canonical) {node : TrieNode}
    (fresh : node.Canonical) (codepoint : Nat) : (children.put codepoint node).Canonical := by
  induction children using listInduction with
  | nil => exact ⟨fresh, trivial⟩
  | cons other child others ih =>
    rw [put]
    split
    · exact ⟨canonical.1, ih canonical.2⟩
    · split
      · exact ⟨fresh, canonical.2⟩
      · exact ⟨fresh, canonical⟩

/-- Below the first codepoint of a new sequence only canonical nodes are put. -/
theorem grow_canonical {children : Children} (valid : children.Valid)
    (canonical : children.Canonical) (first : Nat) (rest : List Nat)
    (below : ∀ child : TrieNode, child.Valid → child.Canonical →
      (TrieNode.insert rest child).1.Canonical) :
    ∃ larger, (children.grow first (.chain rest) (TrieNode.insert rest)).1 = .branch larger ∧
      larger.Canonical := by
  rw [grow]
  split
  · rename_i child found
    have kept := below child (find?_valid valid found) (find?_canonical canonical found)
    exact ⟨_, rfl, put_canonical canonical kept first⟩
  · exact ⟨_, rfl, put_canonical canonical (by trivial) first⟩

theorem holds_here (label : Nat) (child : TrieNode) (others : Children) (rest : List Nat) :
    TrieNode.Holds (label :: rest) (.branch (.cons label child others)) ↔ child.Holds rest := by
  simp [TrieNode.Holds, find?]

theorem holds_later {label first : Nat} (different : label ≠ first) (child : TrieNode)
    (others : Children) (rest : List Nat) :
    TrieNode.Holds (first :: rest) (.branch (.cons label child others)) ↔
      TrieNode.Holds (first :: rest) (.branch others) := by
  simp [TrieNode.Holds, find?, different]

/-- Labels ascend, so the first one is the least that a stored sequence begins with. -/
theorem label_le {label first : Nat} {child : TrieNode} {others : Children} {rest : List Nat}
    (valid : (Children.cons label child others).Valid)
    (held : TrieNode.Holds (first :: rest) (.branch (.cons label child others))) :
    label ≤ first := by
  by_cases same : label = first
  · exact Nat.le_of_eq same
  · obtain ⟨node, found, _⟩ := (holds_later same child others rest).mp held
    exact Nat.le_of_lt (valid.2.1 _ (mem_toList_of_find? found))

theorem label_absent {label : Nat} {child : TrieNode} {others : Children}
    (valid : (Children.cons label child others).Valid) (rest : List Nat) :
    ¬TrieNode.Holds (label :: rest) (.branch others) := by
  rintro ⟨node, found, _⟩
  exact Nat.lt_irrefl _ (valid.2.1 _ (mem_toList_of_find? found))

end Children

namespace TrieNode

/-- What a branch has stored it still stores after an insertion. -/
theorem insert_canonical (sequence : List Nat) (node : TrieNode) (valid : node.Valid)
    (canonical : node.Canonical) : (insert sequence node).1.Canonical := by
  induction sequence generalizing node with
  | nil => exact canonical
  | cons first rest ih =>
    have spec := insert_spec (first :: rest) node valid
    cases node with
    | branch children =>
      obtain ⟨⟨one, other, different, oneHeld, otherHeld⟩, below⟩ := canonical
      obtain ⟨larger, grown, later⟩ := Children.grow_canonical valid.2 below first rest ih
      have result : (insert (first :: rest) (.branch children)).1 = .branch larger := grown
      have holds := spec.holds
      rw [result] at holds ⊢
      exact ⟨⟨one, other, different, (holds one).mpr (.inl oneHeld),
        (holds other).mpr (.inl otherHeld)⟩, later⟩
    | chain stored =>
      rw [insert] at spec ⊢
      split
      · trivial
      · rename_i distinct
        split
        · trivial
        · rename_i unrelated
          rw [if_neg distinct, if_neg unrelated] at spec
          cases stored with
          | nil => simp at unrelated
          | cons head tail =>
            have splitValid : (split (head :: tail)).Valid := by
              simp [split, Children.Valid, TrieNode.Valid, Children.toList]
            obtain ⟨larger, grown, later⟩ := Children.grow_canonical splitValid
              (⟨trivial, trivial⟩ : (split (head :: tail)).Canonical) first rest ih
            have accepted : ((split (head :: tail)).grow first (.chain rest) (insert rest)).2 =
                true := by
              rw [spec.accepts]
              refine .inr fun other held related => ?_
              rw [holds_chain.mp held] at related
              simp [PrefixRelated] at related unrelated
              tauto
            have holds := spec.holds
            rw [grown] at holds ⊢
            refine ⟨⟨head :: tail, first :: rest, distinct, ?_, ?_⟩, later⟩
            · exact (holds _).mpr (.inl (by simp))
            · exact (holds _).mpr (.inr ⟨accepted, rfl⟩)

end TrieNode

mutual

/-- Canonical nodes that store the same are the same. -/
theorem TrieNode.eq_of_holds (one other : TrieNode) (validOne : one.Valid)
    (validOther : other.Valid) (canonicalOne : one.Canonical) (canonicalOther : other.Canonical)
    (same : ∀ sequence, one.Holds sequence ↔ other.Holds sequence) : one = other := by
  match one, other with
  | .chain rest, .chain others => rw [TrieNode.holds_chain.mp ((same rest).mp (by simp))]
  | .chain rest, .branch children =>
    obtain ⟨first, second, different, firstHeld, secondHeld⟩ := canonicalOther.1
    have firstEq := TrieNode.holds_chain.mp ((same first).mpr firstHeld)
    have secondEq := TrieNode.holds_chain.mp ((same second).mpr secondHeld)
    exact absurd (firstEq.trans secondEq.symm) different
  | .branch children, .chain rest =>
    obtain ⟨first, second, different, firstHeld, secondHeld⟩ := canonicalOne.1
    have firstEq := TrieNode.holds_chain.mp ((same first).mp firstHeld)
    have secondEq := TrieNode.holds_chain.mp ((same second).mp secondHeld)
    exact absurd (firstEq.trans secondEq.symm) different
  | .branch children, .branch others =>
    rw [Children.eq_of_holds children others validOne.2 validOther.2 canonicalOne.2
      canonicalOther.2 same]

theorem Children.eq_of_holds (one other : Children) (validOne : one.Valid)
    (validOther : other.Valid) (canonicalOne : one.Canonical) (canonicalOther : other.Canonical)
    (same : ∀ sequence, TrieNode.Holds sequence (.branch one) ↔
      TrieNode.Holds sequence (.branch other)) : one = other := by
  match one, other with
  | .nil, .nil => rfl
  | .nil, .cons label child others =>
    obtain ⟨rest, held⟩ := TrieNode.exists_holds child validOther.1
    have stored := (same _).mpr ((Children.holds_here label child others rest).mpr held)
    simp [TrieNode.Holds, Children.find?] at stored
  | .cons label child others, .nil =>
    obtain ⟨rest, held⟩ := TrieNode.exists_holds child validOne.1
    have stored := (same _).mp ((Children.holds_here label child others rest).mpr held)
    simp [TrieNode.Holds, Children.find?] at stored
  | .cons label child later, .cons otherLabel otherChild otherLater =>
    obtain ⟨rest, held⟩ := TrieNode.exists_holds child validOne.1
    obtain ⟨otherRest, otherHeld⟩ := TrieNode.exists_holds otherChild validOther.1
    have below := Children.label_le validOther ((same _).mp ((Children.holds_here label child later rest).mpr held))
    have above := Children.label_le validOne
      ((same _).mpr ((Children.holds_here otherLabel otherChild otherLater otherRest).mpr otherHeld))
    obtain rfl := Nat.le_antisymm above below
    have sameChild : ∀ sequence, child.Holds sequence ↔ otherChild.Holds sequence := by
      intro sequence
      rw [← Children.holds_here label child later, ← Children.holds_here label otherChild otherLater, same]
    have sameLater : ∀ sequence, TrieNode.Holds sequence (.branch later) ↔
        TrieNode.Holds sequence (.branch otherLater) := by
      intro sequence
      cases sequence with
      | nil => exact Iff.rfl
      | cons first rest =>
        by_cases here : label = first
        · subst here
          exact iff_of_false (Children.label_absent validOne rest) (Children.label_absent validOther rest)
        · rw [← Children.holds_later here child later, same,
            Children.holds_later here otherChild otherLater]
    rw [TrieNode.eq_of_holds child otherChild validOne.1 validOther.1 canonicalOne.1
        canonicalOther.1 sameChild,
      Children.eq_of_holds later otherLater validOne.2.2 validOther.2.2 canonicalOne.2
        canonicalOther.2 sameLater]

end

namespace SequenceTrie

def Canonical (trie : SequenceTrie) : Prop := ∀ root, trie.root? = some root → root.Canonical

theorem empty_canonical (script : String) : (empty script).Canonical := by
  simp [Canonical, empty]

theorem insert_canonical {trie : SequenceTrie} {stored : List (List Nat)}
    (records : trie.Records stored) (canonical : trie.Canonical) (sequence : List Nat) :
    (trie.insert sequence).1.Canonical := by
  rw [insert]
  split
  · exact canonical
  · split
    · rename_i root found
      rintro grown ⟨⟩
      exact TrieNode.insert_canonical sequence root (records.valid root found)
        (canonical root found)
    · rintro grown ⟨⟩
      trivial

/-- Canonical tries of one script that store the same sequences are the same. -/
theorem eq_of_records {one other : SequenceTrie} {stored others : List (List Nat)}
    (records : one.Records stored) (otherRecords : other.Records others)
    (canonical : one.Canonical) (otherCanonical : other.Canonical)
    (script : one.script = other.script)
    (same : ∀ sequence, sequence ∈ stored ↔ sequence ∈ others) : one = other := by
  have held : ∀ sequence, one.Holds sequence ↔ other.Holds sequence := by
    intro sequence
    rw [← records.holds, ← otherRecords.holds, same]
  obtain ⟨script, root?⟩ := one
  obtain ⟨_, otherRoot?⟩ := other
  cases script
  cases root? with
  | none =>
    cases otherRoot? with
    | none => rfl
    | some root =>
      obtain ⟨sequence, stored⟩ := TrieNode.exists_holds root (otherRecords.valid root rfl)
      obtain ⟨_, absent, _⟩ := (held sequence).mpr ⟨root, rfl, stored⟩
      contradiction
  | some root =>
    cases otherRoot? with
    | none =>
      obtain ⟨sequence, stored⟩ := TrieNode.exists_holds root (records.valid root rfl)
      obtain ⟨_, absent, _⟩ := (held sequence).mp ⟨root, rfl, stored⟩
      contradiction
    | some otherRoot =>
      have equal := TrieNode.eq_of_holds root otherRoot (records.valid root rfl)
        (otherRecords.valid otherRoot rfl) (canonical root rfl) (otherCanonical otherRoot rfl)
        (by simpa [Holds] using held)
      rw [equal]

end SequenceTrie

end ShapingTables
