import Mathlib.Data.List.Induction
import Mathlib.Data.List.Nodup
import ShapingTables.Listing.RenderedNode
import ShapingTables.Proofs.Listing.MatcherReading

/-! Children that share an arm. There is one list of arms with all labels of each body in the order
of the first labels, so arms grouped by text are those grouped by expression: a text determines
its expression. -/
namespace ShapingTables

variable {β : Type} [DecidableEq β]

/-- The labels that have a body, in order. -/
def labelsOf (body : β) (bodies : List (Nat × β)) : List Nat :=
  (bodies.filter fun entry => decide (entry.2 = body)).map (·.1)

/-- One arm for each body, with all of its labels, in the order of the first labels. -/
structure Shares (bodies : List (Nat × β)) (arms : List (List Nat × β)) : Prop where
  mem : ∀ labels body, (labels, body) ∈ arms ↔ labels ≠ [] ∧ labels = labelsOf body bodies
  ascending : arms.Pairwise fun one other => one.1.headD 0 < other.1.headD 0

theorem mem_labelsOf {body : β} {bodies : List (Nat × β)} {label : Nat} :
    label ∈ labelsOf body bodies ↔ (label, body) ∈ bodies := by
  simp [labelsOf]

theorem labelsOf_append (body : β) (bodies : List (Nat × β)) (label : Nat) (last : β) :
    labelsOf body (bodies ++ [(label, last)]) =
      labelsOf body bodies ++ if last = body then [label] else [] := by
  rw [labelsOf, List.filter_append, List.map_append, ← labelsOf, List.filter_singleton]
  by_cases same : last = body <;> simp [same]

namespace Shares

variable {bodies : List (Nat × β)} {arms others : List (List Nat × β)}

/-- The bodies alone decide which arms there are. -/
theorem unique (first : Shares bodies arms) (second : Shares bodies others) : arms = others := by
  have distinct {arms : List (List Nat × β)} (shares : Shares bodies arms) : arms.Nodup :=
    shares.ascending.imp fun less same => by
      rw [same] at less
      exact Nat.lt_irrefl _ less
  refine List.Perm.eq_of_pairwise (fun _ _ _ _ less more => (Nat.lt_asymm less more).elim)
    first.ascending second.ascending ?_
  rw [List.perm_ext_iff_of_nodup (distinct first) (distinct second)]
  rintro ⟨labels, body⟩
  rw [first.mem, second.mem]

/-- Bodies with texts of their own share arms as their texts do. -/
theorem map (shares : Shares bodies arms) {γ : Type} [DecidableEq γ] (text : β → γ)
    (injective : ∀ one ∈ bodies, ∀ other ∈ bodies, text one.2 = text other.2 → one.2 = other.2) :
    Shares (bodies.map fun entry => (entry.1, text entry.2))
      (arms.map fun arm => (arm.1, text arm.2)) := by
  have same {label : Nat} {body : β} (member : (label, body) ∈ bodies) :
      labelsOf (text body) (bodies.map fun entry => (entry.1, text entry.2)) =
        labelsOf body bodies := by
    rw [labelsOf, List.filter_map, List.map_map, labelsOf]
    have alike : ∀ entry ∈ bodies, decide (text entry.2 = text body) = decide (entry.2 = body) :=
      fun entry listed => decide_eq_decide.mpr ⟨injective entry listed _ member, congrArg text⟩
    exact congrArg (List.map (·.1)) (List.filter_congr alike)
  constructor
  · intro labels written
    simp only [List.mem_map, Prod.mk.injEq, Prod.exists]
    constructor
    · rintro ⟨_, body, member, rfl, rfl⟩
      obtain ⟨nonempty, rfl⟩ := (shares.mem _ _).mp member
      obtain ⟨label, listed⟩ := List.exists_mem_of_ne_nil _ nonempty
      exact ⟨nonempty, (same (mem_labelsOf.mp listed)).symm⟩
    · rintro ⟨nonempty, rfl⟩
      obtain ⟨label, listed⟩ := List.exists_mem_of_ne_nil _ nonempty
      obtain ⟨⟨_, body⟩, member, equal⟩ := List.mem_map.mp (mem_labelsOf.mp listed)
      obtain ⟨rfl, rfl⟩ := Prod.mk.inj equal
      rw [same member] at nonempty ⊢
      exact ⟨_, body, (shares.mem _ _).mpr ⟨nonempty, rfl⟩, rfl, rfl⟩
  · exact List.pairwise_map.mpr shares.ascending

theorem nodup_bodies (shares : Shares bodies arms) : (arms.map (·.2)).Nodup := by
  refine List.pairwise_map.mpr (shares.ascending.imp_of_mem fun {one other} first second less => ?_)
  intro same
  have labels := ((shares.mem one.1 one.2).mp first).2
  have others := ((shares.mem other.1 other.2).mp second).2
  rw [same, ← others] at labels
  exact Nat.ne_of_lt less (congrArg (·.headD 0) labels)

end Shares

theorem head_mem {bodies : List (Nat × β)} {arm : List Nat × β}
    (labels : arm.1 ≠ [] ∧ arm.1 = labelsOf arm.2 bodies) : (arm.1.headD 0, arm.2) ∈ bodies := by
  apply mem_labelsOf.mp
  rw [← labels.2]
  cases own : arm.1 with
  | nil => exact absurd own labels.1
  | cons label rest => exact List.mem_cons_self

/-- A label with one body stands first in one arm. -/
theorem eq_of_head {bodies : List (Nat × β)} (distinct : (bodies.map (·.1)).Nodup)
    {one other : List Nat × β} (first : one.1 ≠ [] ∧ one.1 = labelsOf one.2 bodies)
    (second : other.1 ≠ [] ∧ other.1 = labelsOf other.2 bodies)
    (same : one.1.headD 0 = other.1.headD 0) : one = other := by
  have together := List.inj_on_of_nodup_map distinct (head_mem first) (head_mem second) same
  have body : one.2 = other.2 := (Prod.mk.inj together).2
  exact Prod.ext (by rw [first.2, second.2, body]) body

theorem getElem?_labelsByText (bodies : List (Nat × String)) (text : String) :
    (labelsByText bodies)[text]? =
      if labelsOf text bodies = [] then none else some (labelsOf text bodies) := by
  induction bodies using List.reverseRecOn with
  | nil => simp [labelsByText, labelsOf]
  | append_singleton bodies entry ih =>
    rw [labelsByText, List.foldl_append, ← labelsByText, List.foldl_cons, List.foldl_nil,
      Std.TreeMap.getElem?_alter, labelsOf_append]
    by_cases same : entry.2 = text
    · subst same
      rw [if_pos (Std.ReflCmp.compare_self), ih]
      split <;> simp_all
    · rw [if_neg (by simpa using same), ih]
      simp [same]

theorem shares_armsByText {bodies : List (Nat × String)}
    (distinct : (bodies.map (·.1)).Nodup) : Shares bodies (armsByText bodies) := by
  have mem : ∀ labels text, (labels, text) ∈ armsByText bodies ↔
      labels ≠ [] ∧ labels = labelsOf text bodies := by
    intro labels text
    simp only [armsByText, List.mem_mergeSort, List.mem_map, Prod.mk.injEq, Prod.exists,
      Std.TreeMap.mem_toList_iff_getElem?_eq_some, getElem?_labelsByText]
    constructor
    · rintro ⟨_, _, found, rfl, rfl⟩
      split at found
      · contradiction
      · rename_i nonempty
        obtain rfl := Option.some.inj found
        exact ⟨nonempty, rfl⟩
    · rintro ⟨nonempty, rfl⟩
      exact ⟨text, _, if_neg nonempty, rfl, rfl⟩
  refine ⟨mem, ?_⟩
  have sorted : (armsByText bodies).Pairwise fun one other =>
      one.1.headD 0 ≤ other.1.headD 0 := by
    refine (List.pairwise_mergeSort ?_ ?_ _).imp of_decide_eq_true
    · intro one other third first second
      rw [decide_eq_true_eq] at first second ⊢
      exact Nat.le_trans first second
    · intro one other
      simpa using Nat.le_total _ _
  have nodup : (armsByText bodies).Nodup := by
    refine (List.mergeSort_perm _ _).nodup_iff.mpr ?_
    refine List.Nodup.map (fun one other same => ?_) ?_
    · exact Prod.ext (Prod.mk.inj same).2 (Prod.mk.inj same).1
    · refine Std.TreeMap.distinct_keys_toList.imp fun apart same => apart ?_
      rw [same]
      exact Std.ReflCmp.compare_self
  refine (sorted.and nodup).imp_of_mem fun {one other} first second apart => ?_
  refine Nat.lt_of_le_of_ne apart.1 fun same => apart.2 ?_
  exact eq_of_head distinct ((mem _ _).mp first) ((mem _ _).mp second) same

/-- A new label joins the arm of its body or, if there is none, makes a last arm. -/
theorem Arms.toList_add {arms : Arms} (distinct : (arms.toList.map (·.2)).Nodup) (label : Nat)
    (body : MatchExpression) : (arms.add label body).toList =
      if body ∈ arms.toList.map (·.2) then
        arms.toList.map fun arm => if arm.2 = body then (arm.1 ++ [label], arm.2) else arm
      else arms.toList ++ [([label], body)] := by
  induction arms using listInduction with
  | nil => rfl
  | cons labels present others ih =>
    obtain ⟨absent, distinct⟩ := List.nodup_cons.mp distinct
    rw [add]
    by_cases same : present = body
    · subst same
      -- No later arm has the body, so the others stay.
      have kept : ∀ arm ∈ others.toList,
          (if arm.2 = present then (arm.1 ++ [label], arm.2) else arm) = arm := by
        intro arm member
        exact if_neg fun same => absent (List.mem_map.mpr ⟨arm, member, same⟩)
      rw [if_pos rfl, toList, toList, List.map_cons, if_pos List.mem_cons_self, List.map_cons,
        List.map_congr_left kept, List.map_id', if_pos rfl]
    · rw [if_neg same, toList, toList, ih distinct]
      simp only [List.map_cons, List.mem_cons, Ne.symm same, false_or, same, if_false]
      split <;> rfl

namespace Shares

variable {done : List (Nat × MatchExpression)} {grouped : Arms} {label : Nat}
  {body : MatchExpression}

theorem add_listed (shares : Shares done grouped.toList) (listed : labelsOf body done ≠ []) :
    Shares (done ++ [(label, body)]) (grouped.toList.map fun arm =>
      if arm.2 = body then (arm.1 ++ [label], arm.2) else arm) := by
  constructor
  · intro labels other
    rw [labelsOf_append, List.mem_map]
    constructor
    · rintro ⟨arm, member, same⟩
      have own := (shares.mem arm.1 arm.2).mp member
      split at same
      · rename_i joined
        obtain ⟨rfl, rfl⟩ := Prod.mk.inj same
        rw [if_pos joined.symm, ← own.2]
        exact ⟨by simp, rfl⟩
      · rename_i apart
        subst same
        rw [if_neg (Ne.symm apart), List.append_nil]
        exact own
    · rintro ⟨nonempty, rfl⟩
      by_cases same : body = other
      · subst same
        exact ⟨_, (shares.mem _ body).mpr ⟨listed, rfl⟩, by simp⟩
      · rw [if_neg same, List.append_nil] at nonempty ⊢
        exact ⟨_, (shares.mem _ other).mpr ⟨nonempty, rfl⟩, if_neg (Ne.symm same)⟩
  · have head : ∀ arm ∈ grouped.toList,
        (if arm.2 = body then (arm.1 ++ [label], arm.2) else arm).1.headD 0 = arm.1.headD 0 := by
      intro arm member
      obtain ⟨first, rest, labels⟩ :=
        List.exists_cons_of_ne_nil ((shares.mem arm.1 arm.2).mp member).1
      split <;> simp [labels]
    refine List.pairwise_map.mpr (shares.ascending.imp_of_mem fun first second less => ?_)
    rwa [head _ first, head _ second]

theorem add_unlisted (shares : Shares done grouped.toList)
    (fresh : ∀ entry ∈ done, entry.1 < label) (unlisted : labelsOf body done = []) :
    Shares (done ++ [(label, body)]) (grouped.toList ++ [([label], body)]) := by
  constructor
  · intro labels other
    rw [List.mem_append, shares.mem, List.mem_singleton, Prod.mk.injEq, labelsOf_append]
    by_cases same : body = other
    · subst same
      rw [unlisted, if_pos rfl, List.nil_append]
      constructor
      · rintro (⟨nonempty, empty⟩ | ⟨rfl, _⟩)
        · exact absurd empty nonempty
        · exact ⟨by simp, rfl⟩
      · rintro ⟨_, rfl⟩
        exact .inr ⟨rfl, rfl⟩
    · simp [same, Ne.symm same]
  · refine List.pairwise_append.mpr ⟨shares.ascending, List.pairwise_singleton .., ?_⟩
    intro arm member last only
    rw [List.mem_singleton.mp only]
    exact fresh _ (head_mem ((shares.mem arm.1 arm.2).mp member))

theorem add (shares : Shares done grouped.toList) (fresh : ∀ entry ∈ done, entry.1 < label)
    (body : MatchExpression) :
    Shares (done ++ [(label, body)]) (grouped.add label body).toList := by
  have present : body ∈ grouped.toList.map (·.2) ↔ labelsOf body done ≠ [] := by
    constructor
    · intro member
      obtain ⟨arm, listed, rfl⟩ := List.mem_map.mp member
      obtain ⟨nonempty, same⟩ := (shares.mem arm.1 arm.2).mp listed
      exact same ▸ nonempty
    · exact fun nonempty => List.mem_map.mpr ⟨_, (shares.mem _ body).mpr ⟨nonempty, rfl⟩, rfl⟩
  rw [Arms.toList_add shares.nodup_bodies]
  split
  · rename_i listed
    exact shares.add_listed (present.mp listed)
  · rename_i unlisted
    exact shares.add_unlisted fresh (not_not.mp (mt present.mpr unlisted))

/-- The arms of a match are shared among the children of its node. -/
theorem ofChildren (depth : Nat) {children : Children} (words : children.OfWords)
    (shares : Shares done grouped.toList)
    (below : ∀ entry ∈ done, ∀ child ∈ children.toList, entry.1 < child.1) :
    Shares (done ++ children.toList.map fun child =>
        (child.1, MatchExpression.ofNode depth child.2))
      (Arms.ofChildren depth grouped children).toList := by
  induction children using Children.listInduction generalizing done grouped with
  | nil => simpa [Children.toList, Arms.ofChildren] using shares
  | cons label child others ih =>
    obtain ⟨_, _, ascending, later⟩ := words
    have added := shares.add (fun entry member => below entry member _ List.mem_cons_self)
      (MatchExpression.ofNode depth child)
    have behind : ∀ entry ∈ done ++ [(label, MatchExpression.ofNode depth child)],
        ∀ other ∈ others.toList, entry.1 < other.1 := by
      intro entry member other listed
      rcases List.mem_append.mp member with old | new
      · exact below entry old other (List.mem_cons_of_mem _ listed)
      · rw [List.mem_singleton.mp new]
        exact ascending other listed
    have rest := ih later added behind
    rwa [List.append_assoc] at rest

end Shares

theorem Children.OfWords.child {children : Children} (words : children.OfWords)
    {entry : Nat × TrieNode} (member : entry ∈ children.toList) : entry.2.OfWords := by
  induction children using listInduction with
  | nil => contradiction
  | cons label child others ih =>
    obtain ⟨_, own, _, later⟩ := words
    rcases List.mem_cons.mp member with rfl | member
    · exact own
    · exact ih later member

theorem Children.OfWords.ascending {children : Children} (words : children.OfWords) :
    (children.toList.map (·.1)).Pairwise (· < ·) := by
  induction children using listInduction with
  | nil => exact .nil
  | cons label child others ih =>
    obtain ⟨_, _, below, later⟩ := words
    exact List.pairwise_cons.mpr ⟨List.forall_mem_map.mpr below, ih later⟩

/-- Telling bodies apart by their texts gives the arms of their expressions. -/
theorem armsByText_eq (depth indent : Nat) {children : Children} (words : children.OfWords) :
    armsByText (children.toList.map fun child =>
        (child.1, (MatchExpression.ofNode depth child.2).text indent)) =
      (Arms.ofChildren depth .nil children).toList.map fun arm =>
        (arm.1, arm.2.text indent) := by
  have empty : Shares [] Arms.nil.toList := ⟨by simp [Arms.toList, labelsOf], .nil⟩
  have shares := empty.ofChildren depth words (by simp)
  rw [List.nil_append] at shares
  have expressions : ∀ entry ∈ children.toList.map fun child =>
      (child.1, MatchExpression.ofNode depth child.2), entry.2.OfWords := by
    refine List.forall_mem_map.mpr fun child member => ?_
    exact TrieNode.OfWords.ofNode _ (words.child member) depth
  have texts := shares.map (MatchExpression.text indent) fun one first other second same =>
    MatchExpression.text_injective (expressions one first) (expressions other second) same
  rw [List.map_map] at texts
  refine Shares.unique (shares_armsByText ?_) texts
  rw [List.map_map]
  exact words.ascending.imp Nat.ne_of_lt

end ShapingTables
