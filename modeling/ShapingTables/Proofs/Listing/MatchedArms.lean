import ShapingTables.Listing.MatchExpression
import ShapingTables.Proofs.Generated.Matching
import ShapingTables.Proofs.StoredSequences

/-! The expression of a trie node measures what the node measures. A label goes to the
one arm that has the expression of its child, however many children share it, and a
place in the whole sequence stands for a place behind the glyphs already matched. -/
namespace ShapingTables

open Generated (Matching MatchingArms LabelPattern wordSize)

mutual

/-- Codepoints are words, and the labels of a branch ascend. -/
def TrieNode.OfWords : TrieNode → Prop
  | .chain rest => ∀ codepoint ∈ rest, codepoint < wordSize
  | .branch children => children.OfWords

def Children.OfWords : Children → Prop
  | .nil => True
  | .cons label child others =>
    label < wordSize ∧ child.OfWords ∧ (∀ entry ∈ others.toList, label < entry.1) ∧ others.OfWords

end

namespace Children

theorem find?_eq_some_iff {children : Children} (words : children.OfWords) {label : Nat}
    {child : TrieNode} :
    children.find? label = some child ↔ (label, child) ∈ children.toList := by
  refine ⟨mem_toList_of_find?, fun member => ?_⟩
  induction children using listInduction with
  | nil => contradiction
  | cons other node others ih =>
    obtain ⟨_, _, below, later⟩ := words
    rw [find?]
    rcases List.mem_cons.mp member with same | member
    · obtain ⟨rfl, rfl⟩ := Prod.mk.inj same
      rw [if_pos rfl]
    · have less := below _ member
      rw [if_neg (Nat.ne_of_lt less)]
      exact ih later member

end Children

namespace Arms

def toList : Arms → List (List Nat × MatchExpression)
  | .nil => []
  | .cons labels body others => (labels, body) :: others.toList

/-- The bodies of the arms that list a label. -/
def bodiesOf (label : Nat) (arms : Arms) : List MatchExpression :=
  (arms.toList.filter (·.1.contains label)).map (·.2)

/-- Induction on the list of arms alone, whatever their bodies are. -/
theorem listInduction {motive : Arms → Prop} (nil : motive .nil)
    (cons : ∀ labels body others, motive others → motive (.cons labels body others)) :
    ∀ arms, motive arms
  | .nil => nil
  | .cons labels body others => cons labels body others (listInduction nil cons others)

theorem bodiesOf_cons (label : Nat) (labels : List Nat) (body : MatchExpression) (others : Arms) :
    (cons labels body others).bodiesOf label =
      if labels.contains label then body :: others.bodiesOf label else others.bodiesOf label := by
  rw [bodiesOf, toList, List.filter_cons]
  split <;> rfl

theorem eval_eq (glyphs : List Nat) (glyph : Nat) (arms : Arms) :
    arms.eval glyphs glyph = (arms.bodiesOf glyph).head?.bind (·.eval glyphs) := by
  induction arms using listInduction with
  | nil => rfl
  | cons labels body others ih =>
    rw [eval, bodiesOf_cons]
    split
    · rfl
    · exact ih

/-- A new label is listed by one arm, and the arms of other labels stay. -/
theorem bodiesOf_add {label : Nat} {arms : Arms} (fresh : arms.bodiesOf label = [])
    (body : MatchExpression) (other : Nat) :
    (arms.add label body).bodiesOf other =
      if other = label then [body] else arms.bodiesOf other := by
  induction arms using listInduction with
  | nil => simp [add, bodiesOf_cons, show nil.bodiesOf other = [] from rfl]
  | cons labels present others ih =>
    rw [bodiesOf_cons] at fresh
    split at fresh
    · contradiction
    · rename_i unlisted
      rw [add]
      split
      · rename_i same
        subst same
        -- The label joins an earlier arm, which is harmless since no later arm lists it.
        simp only [bodiesOf_cons, List.contains_append]
        by_cases here : other = label
        · subst here
          simp [fresh]
        · simp [here]
      · rw [bodiesOf_cons, ih fresh, bodiesOf_cons]
        by_cases here : other = label
        · subst here
          rw [if_neg unlisted, if_pos rfl, if_pos rfl]
        · simp [here]

/-- Every label of the children is listed by one arm, which has the expression of its child. -/
theorem bodiesOf_ofChildren (depth : Nat) {children : Children} (words : children.OfWords)
    {grouped : Arms} (fresh : ∀ entry ∈ children.toList, grouped.bodiesOf entry.1 = [])
    (label : Nat) :
    (ofChildren depth grouped children).bodiesOf label =
      match children.find? label with
      | some child => [MatchExpression.ofNode depth child]
      | none => grouped.bodiesOf label := by
  -- `grouped` has the labels of the children that are done; ascending labels keep it fresh.
  induction children using Children.listInduction generalizing grouped with
  | nil => rfl
  | cons other child others ih =>
    obtain ⟨_, _, below, later⟩ := words
    have added := bodiesOf_add (fresh (other, child) List.mem_cons_self)
      (MatchExpression.ofNode depth child)
    have freshLater : ∀ entry ∈ others.toList,
        (grouped.add other (MatchExpression.ofNode depth child)).bodiesOf entry.1 = [] := by
      intro entry member
      rw [added, if_neg (Nat.ne_of_gt (below entry member))]
      exact fresh entry (List.mem_cons_of_mem _ member)
    rw [ofChildren, ih later freshLater, Children.find?]
    by_cases here : other = label
    · subst here
      have absent : others.find? other = none := by
        apply Option.eq_none_iff_forall_ne_some.mpr
        intro node found
        exact Nat.lt_irrefl _ (below _ (Children.mem_toList_of_find? found))
      simp [absent, added]
    · rw [if_neg here]
      split
      · rfl
      · rw [added, if_neg (Ne.symm here)]

end Arms

theorem matchLength?_chain (rest codepoints : List Nat) :
    (TrieNode.chain rest).matchLength? codepoints =
      if codepoints.take rest.length = rest then some rest.length else none := by
  have begins : rest.isPrefixOf codepoints = true ↔ codepoints.take rest.length = rest := by
    rw [List.isPrefixOf_iff_prefix, List.prefix_iff_eq_take, eq_comm]
  cases codepoints <;> simp only [TrieNode.matchLength?, begins]

theorem MatchExpression.eval_chain {depth : Nat} {glyphs : List Nat} (bound : depth ≤ glyphs.length)
    (rest : List Nat) : (ofNode depth (.chain rest)).eval glyphs =
      ((TrieNode.chain rest).matchLength? (glyphs.drop depth)).map (· + depth) := by
  rw [matchLength?_chain]
  cases rest with
  | nil => simp [ofNode, eval]
  | cons first rest =>
    have sliced : ofNode depth (.chain (first :: rest)) = .slice depth (first :: rest) := rfl
    rw [sliced, eval]
    by_cases same : (glyphs.drop depth).take (first :: rest).length = first :: rest
    · have length := congrArg List.length same
      rw [List.length_take, List.length_drop] at length
      rw [if_pos ⟨by omega, same⟩, if_pos same, Option.map_some, Nat.add_comm]
    · rw [if_neg (fun both => same both.2), if_neg same]
      rfl

mutual

/-- The expression of a node gives the length that the node gives behind the matched
glyphs, counted from the first glyph of all. -/
theorem MatchExpression.eval_ofNode (node : TrieNode) (words : node.OfWords) (depth : Nat)
    (glyphs : List Nat) (bound : depth ≤ glyphs.length) :
    (MatchExpression.ofNode depth node).eval glyphs =
      (node.matchLength? (glyphs.drop depth)).map (· + depth) := by
  match node with
  | .chain rest => exact MatchExpression.eval_chain bound rest
  | .branch children =>
    rw [MatchExpression.ofNode, MatchExpression.eval]
    cases here : glyphs[depth]? with
    | none =>
      rw [List.drop_eq_nil_of_le (List.getElem?_eq_none_iff.mp here)]
      rfl
    | some glyph =>
      obtain ⟨inside, value⟩ := List.getElem?_eq_some_iff.mp here
      rw [List.drop_eq_getElem_cons inside, value, TrieNode.matchLength?, Option.bind_some,
        Arms.eval_eq, Arms.bodiesOf_ofChildren (depth + 1) words (fun _ _ => rfl)]
      cases found : children.find? glyph with
      | none => rfl
      | some child =>
        have below := Children.eval_ofNode children words (depth + 1) glyphs inside found
        simp only [List.head?_cons, Option.bind_some, below, Option.map_map]
        congr 1
        funext length
        simp only [Function.comp_apply]
        omega

theorem Children.eval_ofNode (children : Children) (words : children.OfWords) (depth : Nat)
    (glyphs : List Nat) (bound : depth ≤ glyphs.length) {label : Nat} {child : TrieNode}
    (found : children.find? label = some child) :
    (MatchExpression.ofNode depth child).eval glyphs =
      (child.matchLength? (glyphs.drop depth)).map (· + depth) := by
  match children with
  | .nil => contradiction
  | .cons other node others =>
    rw [Children.find?] at found
    split at found
    · cases found
      exact MatchExpression.eval_ofNode child words.2.1 depth glyphs bound
    · exact Children.eval_ofNode others words.2.2.2 depth glyphs bound found

end

mutual

/-- What the text of an expression is read as. -/
def MatchExpression.code : MatchExpression → Matching
  | .found length => .answer (some length)
  | .slice start glyphs => .compare start (start + glyphs.length) glyphs (start + glyphs.length)
  | .select place arms => .select place arms.code

def Arms.code : Arms → MatchingArms
  | .nil => .cons .anything (.answer none) .nil
  | .cons labels body others => .cons (.oneOf labels) body.code others.code

end

mutual

theorem MatchExpression.eval_code (expression : MatchExpression) (glyphs : List Nat) :
    expression.code.eval glyphs = .ok (expression.eval glyphs) := by
  match expression with
  | .found length => rfl
  | .slice start listed =>
    have total : start + listed.length - start = listed.length := by omega
    rw [MatchExpression.code, Matching.eval, MatchExpression.eval, Generated.window?, total]
    by_cases inside : start + listed.length ≤ glyphs.length
    · simp only [inside, Nat.le_add_right, true_and, if_true, Option.some.injEq]
    · simp only [inside, and_false, false_and, if_false, reduceCtorEq]
  | .select place arms =>
    rw [MatchExpression.code, Matching.eval, MatchExpression.eval]
    cases glyphs[place]? with
    | none => rfl
    | some glyph => exact Arms.eval_code arms glyphs glyph

theorem Arms.eval_code (arms : Arms) (glyphs : List Nat) (glyph : Nat) :
    arms.code.eval glyphs glyph = .ok (arms.eval glyphs glyph) := by
  match arms with
  | .nil => rfl
  | .cons labels body others =>
    rw [Arms.code, MatchingArms.eval, Arms.eval, LabelPattern.takes]
    split
    · exact MatchExpression.eval_code body glyphs
    · exact Arms.eval_code others glyphs glyph

end

mutual

theorem MatchExpression.code_injective (one other : MatchExpression)
    (same : one.code = other.code) : one = other := by
  match one with
  | .found length =>
    cases other <;> simp_all [MatchExpression.code]
  | .slice start glyphs =>
    cases other <;> simp_all [MatchExpression.code]
  | .select place arms =>
    cases other with
    | select otherPlace otherArms =>
      simp only [MatchExpression.code, Matching.select.injEq] at same
      rw [same.1, Arms.code_injective arms otherArms same.2]
    | found length => simp [MatchExpression.code] at same
    | slice start glyphs => simp [MatchExpression.code] at same

theorem Arms.code_injective (one other : Arms) (same : one.code = other.code) : one = other := by
  match one with
  | .nil =>
    cases other <;> simp_all [Arms.code]
  | .cons labels body others =>
    cases other with
    | nil => simp [Arms.code] at same
    | cons otherLabels otherBody otherOthers =>
      simp only [Arms.code, MatchingArms.cons.injEq, LabelPattern.oneOf.injEq] at same
      obtain ⟨sameLabels, sameBody, sameOthers⟩ := same
      rw [sameLabels, MatchExpression.code_injective body otherBody sameBody,
        Arms.code_injective others otherOthers sameOthers]

end

theorem Arms.bodiesOf_code (label : Nat) (arms : Arms) :
    arms.code.bodiesOf label = (arms.bodiesOf label).map (·.code) := by
  induction arms using listInduction with
  | nil => rfl
  | cons labels body others ih =>
    rw [bodiesOf_cons, code, MatchingArms.bodiesOf, MatchingArms.toList, List.filter_cons,
      LabelPattern.lists]
    split
    · rw [List.map_cons, List.map_cons, ← ih]
      rfl
    · exact ih

mutual

/-- In the match of every branch each label of a child stands in one arm, and the body
of that arm is in turn the expression of the child. -/
def TrieNode.Partitioned (code : Matching) : TrieNode → Prop
  | .chain _ => ∀ place arms, code ≠ .select place arms
  | .branch children => ∃ place arms, code = .select place arms ∧ children.Partitioned arms

def Children.Partitioned (arms : MatchingArms) : Children → Prop
  | .nil => True
  | .cons label child others =>
    (∃ body, arms.bodiesOf label = [body] ∧ child.Partitioned body) ∧ others.Partitioned arms

end

mutual

theorem TrieNode.partitioned_ofNode (node : TrieNode) (words : node.OfWords) (depth : Nat) :
    node.Partitioned (MatchExpression.ofNode depth node).code := by
  match node with
  | .chain [] => exact fun place arms same => by contradiction
  | .chain (first :: rest) => exact fun place arms same => by contradiction
  | .branch children =>
    refine ⟨depth, _, rfl, Children.partitioned_ofNode children words _ (depth + 1) ?_⟩
    intro label child member
    have found := (Children.find?_eq_some_iff words).mpr member
    rw [Arms.bodiesOf_code, Arms.bodiesOf_ofChildren _ words (fun _ _ => rfl), found]
    rfl

theorem Children.partitioned_ofNode (children : Children) (words : children.OfWords)
    (arms : MatchingArms) (depth : Nat) (bodies : ∀ label child, (label, child) ∈ children.toList →
      arms.bodiesOf label = [(MatchExpression.ofNode depth child).code]) :
    children.Partitioned arms := by
  match children with
  | .nil => trivial
  | .cons label child others =>
    obtain ⟨_, own, _, later⟩ := words
    refine ⟨⟨_, bodies label child List.mem_cons_self,
      TrieNode.partitioned_ofNode child own depth⟩, ?_⟩
    exact Children.partitioned_ofNode others later arms depth fun other node member =>
      bodies other node (List.mem_cons_of_mem _ member)

end

end ShapingTables
