import ShapingTables.Prohibition.Trie
import Mathlib.Data.Finset.Card

/-! The sequences that a trie stores, and how a history of insertions determines
them. A sequence is refused exactly if it is empty or stands in a proper prefix
relation with a stored one, so the stored sequences are always prefix-free. -/
namespace ShapingTables

/-- One of the two sequences begins the other. -/
def PrefixRelated (one other : List Nat) : Prop := one <+: other ∨ other <+: one

theorem prefixRelated_cons {first head : Nat} {rest tail : List Nat} :
    PrefixRelated (head :: tail) (first :: rest) ↔ head = first ∧ PrefixRelated tail rest := by
  simp only [PrefixRelated, List.cons_prefix_cons, @eq_comm _ first head]
  exact and_or_left.symm

namespace Children

/-- Induction on the list of children alone, whatever is below them. -/
theorem listInduction {motive : Children → Prop} (nil : motive .nil)
    (cons : ∀ label child others, motive others → motive (.cons label child others)) :
    ∀ children, motive children
  | .nil => nil
  | .cons label child others => cons label child others (listInduction nil cons others)

theorem find?_put (codepoint : Nat) (node : TrieNode) (children : Children) (label : Nat) :
    (children.put codepoint node).find? label =
      if codepoint = label then some node else children.find? label := by
  induction children using listInduction with
  | nil => simp [put, find?]
  | cons other child others ih =>
    rw [put]
    split
    · rename_i below
      by_cases here : other = label
      · subst here
        simp [find?, show ¬codepoint = other by omega]
      · simp [find?, here, ih]
    · split
      · rename_i same
        subst same
        simp only [find?]
        split <;> rfl
      · rfl

theorem mem_put {codepoint : Nat} {node : TrieNode} {children : Children}
    {entry : Nat × TrieNode} (member : entry ∈ (children.put codepoint node).toList) :
    entry = (codepoint, node) ∨ entry ∈ children.toList := by
  induction children using listInduction with
  | nil => simpa [put, toList] using member
  | cons other child others ih =>
    rw [put] at member
    split at member
    · rcases List.mem_cons.mp member with rfl | member
      · exact .inr List.mem_cons_self
      · exact (ih member).imp_right (List.mem_cons_of_mem _)
    · split at member
      · rename_i same
        subst same
        exact (List.mem_cons.mp member).imp_right (List.mem_cons_of_mem _)
      · exact List.mem_cons.mp member

end Children

mutual

/-- Every branch has a child, and its labels ascend. -/
def TrieNode.Valid : TrieNode → Prop
  | .chain _ => True
  | .branch children => children ≠ .nil ∧ children.Valid

def Children.Valid : Children → Prop
  | .nil => True
  | .cons label child others =>
    child.Valid ∧ (∀ entry ∈ others.toList, label < entry.1) ∧ others.Valid

end

namespace Children

theorem find?_valid {children : Children} (valid : children.Valid) {label : Nat} {child : TrieNode}
    (found : children.find? label = some child) : child.Valid := by
  induction children using listInduction with
  | nil => simp [find?] at found
  | cons other node others ih =>
    simp only [Valid] at valid
    rw [find?] at found
    split at found
    · exact Option.some.inj found ▸ valid.1
    · exact ih valid.2.2 found

theorem put_valid {children : Children} (valid : children.Valid) {node : TrieNode}
    (fresh : node.Valid) (codepoint : Nat) : (children.put codepoint node).Valid := by
  induction children using listInduction with
  | nil => simpa [put, Valid, toList] using fresh
  | cons other child others ih =>
    simp only [Valid] at valid
    obtain ⟨own, below, later⟩ := valid
    rw [put]
    split
    · rename_i less
      refine ⟨own, ?_, ih later⟩
      intro entry member
      rcases mem_put member with rfl | member
      · exact less
      · exact below entry member
    · split
      · exact ⟨fresh, below, later⟩
      · rename_i notLess different
        refine ⟨fresh, ?_, own, below, later⟩
        intro entry member
        rcases List.mem_cons.mp member with rfl | member
        · simp only; omega
        · have := below entry member
          omega

theorem put_ne_nil (children : Children) (codepoint : Nat) (node : TrieNode) :
    children.put codepoint node ≠ .nil := by
  cases children with
  | nil => simp [put]
  | cons other child others =>
    rw [put]
    split
    · simp
    · split <;> simp

theorem mem_toList_of_find? {children : Children} {label : Nat} {child : TrieNode}
    (found : children.find? label = some child) : (label, child) ∈ children.toList := by
  induction children using listInduction with
  | nil => simp [find?] at found
  | cons other node others ih =>
    rw [find?] at found
    split at found
    · rename_i same
      rw [← same, ← Option.some.inj found]
      exact List.mem_cons_self
    · exact List.mem_cons_of_mem _ (ih found)

end Children

namespace TrieNode

/-- The sequence is stored below the node. -/
def Holds : List Nat → TrieNode → Prop
  | sequence, .chain rest => sequence = rest
  | [], .branch _ => False
  | first :: rest, .branch children =>
    ∃ child, children.find? first = some child ∧ Holds rest child

@[simp] theorem holds_chain {rest sequence : List Nat} :
    Holds sequence (.chain rest) ↔ sequence = rest := by
  cases sequence <;> simp [Holds]

theorem holds_branch {children : Children} {sequence : List Nat} :
    Holds sequence (.branch children) ↔ ∃ first rest child,
      sequence = first :: rest ∧ children.find? first = some child ∧ Holds rest child := by
  cases sequence with
  | nil => simp [Holds]
  | cons first rest => simp [Holds]

/-- A chain and the branch that it is split into store the same sequence. -/
theorem holds_split (first : Nat) (rest sequence : List Nat) :
    Holds sequence (.branch (split (first :: rest))) ↔ sequence = first :: rest := by
  cases sequence with
  | nil => simp [Holds]
  | cons head tail =>
    by_cases same : first = head
    · simp [Holds, split, Children.find?, same]
    · simp [Holds, split, Children.find?, same, Ne.symm same]

/-- Something is stored below every node. -/
theorem exists_holds (node : TrieNode) (valid : node.Valid) : ∃ sequence, node.Holds sequence := by
  cases node with
  | chain rest => exact ⟨rest, by simp⟩
  | branch children =>
    cases children with
    | nil => exact absurd rfl valid.1
    | cons label child others =>
      obtain ⟨sequence, held⟩ := exists_holds child valid.2.1
      exact ⟨label :: sequence, child, by simp [Children.find?], held⟩

/-- No stored sequence begins another one. -/
theorem holds_prefixFree {node : TrieNode} {one other : List Nat} (first : node.Holds one)
    (second : node.Holds other) (begins : one <+: other) : one = other := by
  induction one generalizing node other with
  | nil =>
    cases node with
    | chain rest => exact (holds_chain.mp first).trans (holds_chain.mp second).symm
    | branch children => exact first.elim
  | cons head tail ih =>
    cases node with
    | chain rest => exact (holds_chain.mp first).trans (holds_chain.mp second).symm
    | branch children =>
      obtain ⟨start, rest, child, rfl, found, held⟩ := holds_branch.mp second
      obtain ⟨rfl, shorter⟩ := List.cons_prefix_cons.mp begins
      obtain ⟨same, foundSame, heldSame⟩ := first
      have : same = child := Option.some.inj (foundSame.symm.trans found)
      subst this
      rw [ih heldSame held shorter]

/-- What an insertion below a node does: the node stays valid, it stores the new
sequence if that was accepted and what it stored before, and the new sequence is
accepted if it is stored already or related to no stored one. -/
structure InsertSpec (sequence : List Nat) (node : TrieNode) (result : TrieNode × Bool) : Prop where
  valid : result.1.Valid
  holds : ∀ other, result.1.Holds other ↔
    node.Holds other ∨ (result.2 = true ∧ other = sequence)
  accepts : result.2 = true ↔
    node.Holds sequence ∨ ∀ other, node.Holds other → ¬PrefixRelated other sequence

theorem holds_put (children : Children) (first : Nat) (node : TrieNode) (head : Nat)
    (tail : List Nat) : (TrieNode.branch (children.put first node)).Holds (head :: tail) ↔
      if first = head then node.Holds tail else (TrieNode.branch children).Holds (head :: tail) := by
  simp only [Holds, Children.find?_put]
  split <;> simp

theorem grow_spec (children : Children) (first : Nat) (rest : List Nat)
    (valid : children.Valid)
    (below : ∀ child, child.Valid → InsertSpec rest child (insert rest child)) :
    InsertSpec (first :: rest) (.branch children)
      (children.grow first (.chain rest) (insert rest)) := by
  rw [Children.grow]
  split
  · rename_i child found
    have spec := below child (Children.find?_valid valid found)
    refine ⟨⟨Children.put_ne_nil _ _ _, Children.put_valid valid spec.valid _⟩, ?_, ?_⟩
    · intro other
      cases other with
      | nil => simp [Holds]
      | cons head tail =>
        rw [holds_put]
        by_cases same : first = head
        · subst same
          simp [Holds, found, spec.holds]
        · simp [same, Ne.symm same]
    · simp only [spec.accepts]
      constructor
      · rintro (held | free)
        · exact .inl ⟨child, found, held⟩
        · refine .inr fun other held related => ?_
          obtain ⟨head, tail, node, rfl, foundNode, held⟩ := holds_branch.mp held
          obtain ⟨rfl, tails⟩ := prefixRelated_cons.mp related
          rw [found, Option.some.injEq] at foundNode
          exact free tail (foundNode ▸ held) tails
      · rintro (⟨node, foundNode, held⟩ | free)
        · rw [found, Option.some.injEq] at foundNode
          exact .inl (foundNode ▸ held)
        · refine .inr fun other held related => ?_
          exact free (first :: other) ⟨child, found, held⟩ (prefixRelated_cons.mpr ⟨rfl, related⟩)
  · rename_i absent
    refine ⟨⟨Children.put_ne_nil _ _ _, Children.put_valid valid (by simp [Valid]) _⟩, ?_, ?_⟩
    · intro other
      cases other with
      | nil => simp [Holds]
      | cons head tail =>
        rw [holds_put]
        by_cases same : first = head
        · subst same
          simp [Holds, absent]
        · simp [same, Ne.symm same]
    · refine ⟨fun _ => .inr fun other held related => ?_, fun _ => rfl⟩
      obtain ⟨head, tail, node, rfl, foundNode, held⟩ := holds_branch.mp held
      obtain ⟨rfl, _⟩ := prefixRelated_cons.mp related
      simp [absent] at foundNode

theorem insert_nil (node : TrieNode) (valid : node.Valid) :
    InsertSpec [] node (node, node.isLeaf) := by
  have leaf : node.isLeaf = true ↔ node.Holds [] := by
    cases node with
    | chain rest => simp [isLeaf, TrieNode.leaf, Holds, eq_comm]
    | branch children => simp [isLeaf, TrieNode.leaf, Holds]
  refine ⟨valid, ?_, ?_⟩
  · intro other
    simp only [leaf]
    constructor
    · exact .inl
    · rintro (held | ⟨held, rfl⟩)
      · exact held
      · exact held
  · rw [leaf]
    refine ⟨.inl, ?_⟩
    rintro (held | free)
    · exact held
    · obtain ⟨stored, held⟩ := exists_holds node valid
      exact absurd (.inr List.nil_prefix) (free stored held)

theorem insert_spec (sequence : List Nat) (node : TrieNode) (valid : node.Valid) :
    InsertSpec sequence node (insert sequence node) := by
  induction sequence generalizing node with
  | nil => exact insert_nil node valid
  | cons first rest ih =>
    cases node with
    | branch children => exact grow_spec children first rest valid.2 ih
    | chain stored =>
      rw [insert]
      split
      · rename_i same
        refine ⟨trivial, ?_, ?_⟩
        · intro other
          simp [same]
        · simp [Holds, same]
      · rename_i different
        split
        · rename_i conflict
          have related : PrefixRelated stored (first :: rest) := by
            simpa [PrefixRelated] using conflict
          refine ⟨trivial, by simp, ?_⟩
          simp only [Bool.false_eq_true, Holds, false_iff, not_or]
          exact ⟨Ne.symm different, fun free => free stored rfl related⟩
        · rename_i unrelated
          cases stored with
          | nil => simp at unrelated
          | cons head tail =>
            have valid : (split (head :: tail)).Valid := by
              simp [split, Children.Valid, TrieNode.Valid, Children.toList]
            have spec := grow_spec (split (head :: tail)) first rest valid ih
            refine ⟨spec.valid, ?_, ?_⟩
            · intro other
              rw [spec.holds, holds_split, holds_chain]
            · rw [spec.accepts]
              simp only [holds_split, holds_chain]

/-- A match is a stored sequence that begins the codepoints. -/
theorem matchLength?_eq_some (codepoints : List Nat) (node : TrieNode) (length : Nat) :
    node.matchLength? codepoints = some length ↔
      ∃ sequence, node.Holds sequence ∧ sequence <+: codepoints ∧ sequence.length = length := by
  induction codepoints generalizing node length with
  | nil =>
    cases node with
    | chain rest => simp [matchLength?]
    | branch children => simp [matchLength?, Holds]
  | cons codepoint codepoints ih =>
    cases node with
    | chain rest => simp [matchLength?]
    | branch children =>
      rw [matchLength?]
      constructor
      · intro matched
        split at matched
        · rename_i child found
          obtain ⟨shorter, below, rfl⟩ := Option.map_eq_some_iff.mp matched
          obtain ⟨rest, held, begins, rfl⟩ := (ih child shorter).mp below
          exact ⟨codepoint :: rest, ⟨child, found, held⟩,
            List.cons_prefix_cons.mpr ⟨rfl, begins⟩, rfl⟩
        · contradiction
      · rintro ⟨sequence, held, begins, rfl⟩
        obtain ⟨first, rest, child, rfl, found, held⟩ := holds_branch.mp held
        obtain ⟨rfl, shorter⟩ := List.cons_prefix_cons.mp begins
        have below := (ih child rest.length).mpr ⟨rest, held, shorter, rfl⟩
        rw [found]
        simp [below]

end TrieNode

mutual

/-- The sequences below a node, each label's after the other. -/
def TrieNode.sequences : TrieNode → List (List Nat)
  | .chain rest => [rest]
  | .branch children => children.sequences

def Children.sequences : Children → List (List Nat)
  | .nil => []
  | .cons label child others => child.sequences.map (label :: ·) ++ others.sequences

end

mutual

theorem TrieNode.length_sequences : ∀ node : TrieNode, node.sequences.length = node.sequenceCount
  | .chain _ => rfl
  | .branch children => Children.length_sequences children

theorem Children.length_sequences :
    ∀ children : Children, children.sequences.length = children.sequenceCount
  | .nil => rfl
  | .cons label child others => by
    simp only [Children.sequences, Children.sequenceCount, List.length_append, List.length_map,
      TrieNode.length_sequences child, Children.length_sequences others]

end

theorem Children.holds_cons {label : Nat} {child : TrieNode} {others : Children}
    (valid : (Children.cons label child others).Valid) (sequence : List Nat) :
    TrieNode.Holds sequence (.branch (.cons label child others)) ↔
      (∃ rest, sequence = label :: rest ∧ child.Holds rest) ∨
        TrieNode.Holds sequence (.branch others) := by
  cases sequence with
  | nil => simp [TrieNode.Holds]
  | cons first rest =>
    simp only [TrieNode.Holds, find?]
    by_cases same : label = first
    · subst same
      have absent : ¬∃ node, others.find? label = some node ∧ node.Holds rest := by
        rintro ⟨node, found, _⟩
        exact absurd (valid.2.1 _ (mem_toList_of_find? found)) (Nat.lt_irrefl _)
      simp [absent]
    · simp [same, Ne.symm same]

mutual

theorem TrieNode.mem_sequences : ∀ (node : TrieNode) (_ : node.Valid) (sequence : List Nat),
    sequence ∈ node.sequences ↔ node.Holds sequence
  | .chain rest, _, sequence => by simp [TrieNode.sequences]
  | .branch children, valid, sequence => Children.mem_sequences children valid.2 sequence

theorem Children.mem_sequences : ∀ (children : Children) (_ : children.Valid)
    (sequence : List Nat), sequence ∈ children.sequences ↔ TrieNode.Holds sequence (.branch children)
  | .nil, _, sequence => by cases sequence <;> simp [Children.sequences, TrieNode.Holds, Children.find?]
  | .cons label child others, valid, sequence => by
    have below := TrieNode.mem_sequences child valid.1
    have later := Children.mem_sequences others valid.2.2 sequence
    rw [Children.holds_cons valid, Children.sequences, List.mem_append, later, List.mem_map]
    simp only [below, and_comm, @eq_comm _ sequence]

end

mutual

theorem TrieNode.sequences_nodup : ∀ (node : TrieNode) (_ : node.Valid), node.sequences.Nodup
  | .chain rest, _ => by simp [TrieNode.sequences]
  | .branch children, valid => Children.sequences_nodup children valid.2

theorem Children.sequences_nodup : ∀ (children : Children) (_ : children.Valid),
    children.sequences.Nodup
  | .nil, _ => .nil
  | .cons label child others, valid => by
    have below := TrieNode.sequences_nodup child valid.1
    have later := Children.sequences_nodup others valid.2.2
    refine List.nodup_append.mpr ⟨below.map fun _ _ same => (List.cons.inj same).2, later, ?_⟩
    intro one mine other theirs same
    obtain ⟨rest, _, rfl⟩ := List.mem_map.mp mine
    have held := (Children.mem_sequences others valid.2.2 other).mp theirs
    obtain ⟨first, tail, node, rfl, found, _⟩ := TrieNode.holds_branch.mp held
    have order := valid.2.1 _ (Children.mem_toList_of_find? found)
    rw [(List.cons.inj same).1] at order
    exact Nat.lt_irrefl _ order

end

namespace SequenceTrie

def Holds (trie : SequenceTrie) (sequence : List Nat) : Prop :=
  ∃ root, trie.root? = some root ∧ root.Holds sequence

/-- The trie stores exactly the sequences of the list, none of them empty. -/
structure Records (trie : SequenceTrie) (stored : List (List Nat)) : Prop where
  valid : ∀ root, trie.root? = some root → root.Valid
  holds : ∀ sequence, sequence ∈ stored ↔ trie.Holds sequence
  nonempty : [] ∉ stored

theorem records_empty (script : String) : (empty script).Records [] := by
  constructor <;> simp [empty, Holds]

theorem records_none {trie : SequenceTrie} {stored : List (List Nat)}
    (records : trie.Records stored) (absent : trie.root? = none) : stored = [] := by
  apply List.eq_nil_iff_forall_not_mem.mpr
  intro sequence member
  obtain ⟨root, present, _⟩ := (records.holds sequence).mp member
  simp [absent] at present

theorem insert_script (trie : SequenceTrie) (sequence : List Nat) :
    (trie.insert sequence).1.script = trie.script := by
  rw [insert]
  split
  · rfl
  · split <;> rfl

/-- A sequence is accepted if it is not empty and either stored already or related
to no stored sequence. -/
theorem insert_accepts {trie : SequenceTrie} {stored : List (List Nat)}
    (records : trie.Records stored) (sequence : List Nat) :
    (trie.insert sequence).2 = true ↔
      sequence ≠ [] ∧ (sequence ∈ stored ∨ ∀ other ∈ stored, ¬PrefixRelated other sequence) := by
  simp only [insert, records.holds, Holds]
  cases sequence with
  | nil => simp
  | cons first rest =>
    cases found : trie.root? with
    | none => simp
    | some root =>
      have spec := TrieNode.insert_spec (first :: rest) root (records.valid root found)
      simp [spec.accepts]

/-- One insertion adds its sequence to the stored ones if it is accepted, and
changes nothing else about them. -/
theorem insert_records {trie : SequenceTrie} {stored : List (List Nat)}
    (records : trie.Records stored) (sequence : List Nat) :
    (trie.insert sequence).1.Records
      (if (trie.insert sequence).2 then stored ++ [sequence] else stored) := by
  cases sequence with
  | nil => exact records
  | cons first rest =>
    cases found : trie.root? with
    | none =>
      obtain rfl := records_none records found
      constructor <;> simp [insert, found, Holds, TrieNode.Valid]
    | some root =>
      have spec := TrieNode.insert_spec (first :: rest) root (records.valid root found)
      have before : ∀ sequence, sequence ∈ stored ↔ root.Holds sequence := by
        intro sequence
        rw [records.holds, Holds]
        simp [found]
      have step : trie.insert (first :: rest) =
          ({ trie with root? := some (root.insert (first :: rest)).1 },
            (root.insert (first :: rest)).2) := by
        simp [insert, found]
      rw [step]
      refine ⟨?_, ?_, ?_⟩
      · intro grown same
        cases same
        exact spec.valid
      · intro other
        simp only [Holds, Option.some.injEq, exists_eq_left', spec.holds, ← before]
        split <;> simp [*]
      · split
        · simpa using records.nonempty
        · exact records.nonempty

theorem matchLength?_records {trie : SequenceTrie} {stored : List (List Nat)}
    (records : trie.Records stored) (glyphs : List Nat) (length : Nat) :
    trie.matchLength? glyphs = some length ↔
      ∃ sequence ∈ stored, sequence <+: glyphs ∧ sequence.length = length := by
  simp only [matchLength?, Option.bind_eq_some_iff, TrieNode.matchLength?_eq_some, records.holds,
    Holds]
  constructor
  · rintro ⟨root, found, sequence, held, begins⟩
    exact ⟨sequence, ⟨root, found, held⟩, begins⟩
  · rintro ⟨sequence, ⟨root, found, held⟩, begins⟩
    exact ⟨root, found, sequence, held, begins⟩

theorem records_prefixFree {trie : SequenceTrie} {stored : List (List Nat)}
    (records : trie.Records stored) {one other : List Nat} (first : one ∈ stored)
    (second : other ∈ stored) (begins : one <+: other) : one = other := by
  obtain ⟨root, found, held⟩ := (records.holds one).mp first
  obtain ⟨same, foundSame, heldSame⟩ := (records.holds other).mp second
  rw [found, Option.some.injEq] at foundSame
  exact TrieNode.holds_prefixFree held (foundSame ▸ heldSame) begins

theorem size_records {trie : SequenceTrie} {stored : List (List Nat)}
    (records : trie.Records stored) : trie.size = stored.toFinset.card := by
  rw [size]
  split
  · rename_i root found
    have valid := records.valid root found
    have same : stored.toFinset = root.sequences.toFinset := by
      ext sequence
      rw [List.mem_toFinset, List.mem_toFinset, records.holds, TrieNode.mem_sequences root valid]
      simp [Holds, found]
    rw [same, List.toFinset_card_of_nodup (TrieNode.sequences_nodup root valid),
      TrieNode.length_sequences]
  · rename_i absent
    simp [records_none records absent]

/-- One attempt at an insertion, with the sequences that have been accepted so far. -/
def attempt (state : SequenceTrie × List (List Nat)) (sequence : List Nat) :
    SequenceTrie × List (List Nat) :=
  ((state.1.insert sequence).1,
    if (state.1.insert sequence).2 then state.2 ++ [sequence] else state.2)

/-- The trie after a history of attempts, and the sequences that it has accepted. -/
def afterAttempts (script : String) (attempts : List (List Nat)) :
    SequenceTrie × List (List Nat) :=
  attempts.foldl attempt (empty script, [])

theorem foldl_attempt_records (attempts : List (List Nat))
    (state : SequenceTrie × List (List Nat)) (records : state.1.Records state.2) :
    (attempts.foldl attempt state).1.Records (attempts.foldl attempt state).2 := by
  induction attempts generalizing state with
  | nil => exact records
  | cons sequence rest ih => exact ih _ (insert_records records sequence)

theorem afterAttempts_records (script : String) (attempts : List (List Nat)) :
    (afterAttempts script attempts).1.Records (afterAttempts script attempts).2 :=
  foldl_attempt_records attempts _ (records_empty script)

/-- The stored sequences decide everything that the trie answers: which sequence
it accepts next, what it matches and how many sequences it counts. -/
structure Determined (trie : SequenceTrie) (stored : List (List Nat)) : Prop where
  accepts : ∀ sequence, (trie.insert sequence).2 = true ↔ sequence ≠ [] ∧
    (sequence ∈ stored ∨ ∀ other ∈ stored, ¬other <+: sequence ∧ ¬sequence <+: other)
  prefixFree : ∀ one ∈ stored, ∀ other ∈ stored, one <+: other → one = other
  matched : ∀ glyphs length, trie.matchLength? glyphs = some length ↔
    ∃ sequence ∈ stored, sequence <+: glyphs ∧ sequence.length = length
  unique : ∀ glyphs, ∀ one ∈ stored, ∀ other ∈ stored,
    one <+: glyphs → other <+: glyphs → one = other
  bounds : ∀ glyphs length, trie.matchLength? glyphs = some length →
    1 ≤ length ∧ length ≤ glyphs.length
  size : trie.size = stored.toFinset.card

/-- A trie is determined by the sequences that were accepted, after any history. -/
theorem afterAttempts_determined (script : String) (attempts : List (List Nat)) :
    Determined (afterAttempts script attempts).1 (afterAttempts script attempts).2 := by
  have records := afterAttempts_records script attempts
  refine ⟨?_, ?_, matchLength?_records records, ?_, ?_, size_records records⟩
  · intro sequence
    simp only [insert_accepts records, PrefixRelated, not_or]
  · intro one first other second begins
    exact records_prefixFree records first second begins
  · intro glyphs one first other second begins beginsToo
    rcases List.prefix_or_prefix_of_prefix begins beginsToo with shorter | longer
    · exact records_prefixFree records first second shorter
    · exact (records_prefixFree records second first longer).symm
  · intro glyphs length matched
    obtain ⟨sequence, member, begins, rfl⟩ := (matchLength?_records records glyphs length).mp matched
    have full : sequence ≠ [] := fun empty => records.nonempty (empty ▸ member)
    exact ⟨List.length_pos_iff.mpr full, begins.length_le⟩

end SequenceTrie

end ShapingTables
