import ShapingTables.Proofs.Listing.MatcherDispatch
import ShapingTables.Proofs.Listing.SharedArms

/-! The text rendered for a node from the texts of its children is that of its expression, and so
is the text of every function of the generated file. -/
namespace ShapingTables

open Text (Outline)

namespace MatchExpression

theorem toList_indented {text : String} (visible : text.isEmpty = false) (indent : Nat) :
    (Outline.indented indent text).toList = (padding indent).toList ++ text.toList := by
  rw [Outline.indented, visible, if_neg Bool.false_ne_true, String.toList_append, padding]

theorem flatMap_line {text : String} (visible : text.isEmpty = false) (indent : Nat) :
    ((Outline.line text).lines indent).flatMap (fun line => line.toList ++ ['\n']) =
      (padding indent).toList ++ (text.toList ++ ['\n']) := by
  rw [Outline.lines, List.flatMap_singleton, toList_indented visible, List.append_assoc]

/-- The characters of an expression between what opens and what closes it. -/
def core (indent : Nat) : MatchExpression → List Char
  | .found length => ("Some(" ++ toString length ++ ")").toList
  | .slice start glyphs => (sliceText start glyphs).toList
  | .select place arms =>
    ("match *glyphs.get(" ++ toString place ++ ")?" ++ " \x7b").toList ++ ['\n'] ++
      (Outline.linesOfAll (indent + 1) arms.outlines).flatMap
        (fun line => line.toList ++ ['\n']) ++ (padding indent ++ "\x7d").toList

theorem flatMap_core (expression : MatchExpression) (indent : Nat) (opening closing : String) :
    ((expression.outline opening closing).lines indent).flatMap
        (fun line => line.toList ++ ['\n']) =
      (padding indent).toList ++
        (opening.toList ++ (expression.core indent ++ (closing.toList ++ ['\n']))) := by
  cases expression with
  | found length =>
    rw [outline, flatMap_line (by simp)]
    simp only [core, String.toList_append, List.append_assoc]
  | slice start glyphs =>
    rw [outline, flatMap_line (isEmpty_around (isEmpty_sliceText start glyphs) _ _)]
    simp only [core, String.toList_append, List.append_assoc]
  | select place arms =>
    rw [outline, Outline.lines, List.flatMap_cons, List.flatMap_append, List.flatMap_singleton,
      toList_indented (by simp), toList_indented (by simp)]
    simp only [core, String.toList_append, List.append_assoc]

theorem toList_text (expression : MatchExpression) (indent : Nat) :
    (expression.text indent).toList = expression.core indent := by
  have lines := flatMap_core expression indent "" ""
  rw [flatMap_lines, padding, String.toList_ofList, List.append_cancel_left_eq] at lines
  exact List.append_cancel_right lines

theorem flatMap_arms (arms : Arms) (indent : Nat) :
    (Outline.linesOfAll indent arms.outlines).flatMap (fun line => line.toList ++ ['\n']) =
      (String.join (arms.toList.map fun arm => armText indent (arm.1, arm.2.text indent))).toList ++
        (padding indent ++ "_ => None,\n").toList := by
  induction arms using Arms.listInduction with
  | nil =>
    rw [Arms.outlines, Outline.linesOfAll, Outline.linesOfAll, List.append_nil,
      flatMap_line (by simp)]
    simp [Arms.toList]
  | cons labels body others ih =>
    rw [Arms.outlines, Outline.linesOfAll, List.flatMap_append, flatMap_core, ih, ← toList_text]
    simp [Arms.toList, armText]

theorem text_found (length indent : Nat) :
    (found length).text indent = "Some(" ++ toString length ++ ")" :=
  String.toList_inj.mp (toList_text ..)

theorem text_slice (start indent : Nat) (glyphs : List Nat) :
    (slice start glyphs).text indent = sliceText start glyphs :=
  String.toList_inj.mp (toList_text ..)

theorem text_select (place indent : Nat) (arms : Arms) :
    (select place arms).text indent =
      selectText place indent (arms.toList.map fun arm => (arm.1, arm.2.text (indent + 1))) := by
  apply String.toList_inj.mp
  unfold selectText
  rw [toList_text, core, flatMap_arms]
  simp [Function.comp_def]

end MatchExpression

mutual

theorem TrieNode.rendered_eq (node : TrieNode) (words : node.OfWords) (depth indent : Nat) :
    node.rendered depth indent = (MatchExpression.ofNode depth node).text indent := by
  match node with
  | .chain [] => exact (MatchExpression.text_found depth indent).symm
  | .chain (first :: rest) => exact (MatchExpression.text_slice depth indent (first :: rest)).symm
  | .branch children =>
    rw [TrieNode.rendered, Children.rendered_eq children words, armsByText_eq _ _ words,
      MatchExpression.ofNode, MatchExpression.text_select]

theorem Children.rendered_eq (children : Children) (words : children.OfWords)
    (depth indent : Nat) : children.rendered depth indent = children.toList.map fun child =>
      (child.1, (MatchExpression.ofNode depth child.2).text indent) := by
  match children with
  | .nil => rfl
  | .cons label child others =>
    obtain ⟨_, own, _, later⟩ := words
    rw [Children.rendered, TrieNode.rendered_eq child own, Children.rendered_eq others later,
      Children.toList, List.map_cons]

end

namespace MatcherListing

/-- A block with one text inside, behind an empty line. -/
theorem toList_block {head written : String} {body : Outline}
    (inside : (body.lines 1).flatMap (fun line => line.toList ++ ['\n']) =
      (MatchExpression.padding 1).toList ++ (written.toList ++ ['\n'])) :
    (Outline.text [.line "", .block head [body] ""]).toList =
      '\n' :: (head.toList ++ " \x7b\n    ".toList ++ written.toList ++ "\n\x7d\n".toList) := by
  have indentation : (MatchExpression.padding 1).toList = "    ".toList := rfl
  have opens : (head ++ " \x7b").isEmpty = false := by simp
  have closes : ("\x7d" ++ "").isEmpty = false := by decide
  rw [indentation] at inside
  rw [Outline.text, String.toList_ofList, Outline.linesOfAll, Outline.linesOfAll,
    Outline.linesOfAll, Outline.lines, Outline.lines, Outline.linesOfAll, Outline.linesOfAll]
  simp only [List.append_nil, List.cons_append, List.flatMap_cons, List.flatMap_append, inside,
    List.flatMap_nil, List.nil_append]
  rw [MatchExpression.toList_indented opens, MatchExpression.toList_indented closes]
  simp [Outline.indented, MatchExpression.padding]

theorem toList_functionOutline (name : String) (body : Option MatchExpression) :
    (Outline.text [.line "", functionOutline (name, body)]).toList =
      '\n' :: (("fn " ++ name ++ "(glyphs: &[u32]) -> Option<usize>").toList ++
        " \x7b\n    ".toList ++ ((body.map (·.text 1)).getD "None").toList ++
          "\n\x7d\n".toList) := by
  cases body with
  | none => exact toList_block (MatchExpression.flatMap_line (by decide) 1)
  | some body => exact toList_block (body.flatMap_lines 1)

/-- Every function of the file is written as its node is rendered. -/
theorem text_functionOutline (trie : SequenceTrie)
    (words : ∀ root, trie.root? = some root → root.OfWords) :
    Outline.text [.line "", functionOutline
        (functionName trie.script, trie.root?.map (MatchExpression.ofNode 0))] =
      functionText trie := by
  have rendered : (trie.root?.map (·.rendered 0 1)) =
      (trie.root?.map (MatchExpression.ofNode 0)).map (·.text 1) := by
    cases found : trie.root? with
    | none => rfl
    | some root => exact congrArg some (root.rendered_eq (words root found) 0 1)
  apply String.toList_inj.mp
  unfold functionText
  rw [toList_functionOutline, rendered]
  simp

theorem text_functions {source : Source} {matchers : ScriptMatchers}
    (built : ScriptMatchers.ofSource source = .ok matchers) :
    Outline.text ((ofMatchers matchers).functions.flatMap fun function =>
        [.line "", functionOutline function]) =
      String.join (matchers.tries.map functionText) := by
  rw [Generated.text_flatMap, ofMatchers, List.map_map]
  refine congrArg String.join (List.map_congr_left fun trie member => ?_)
  exact text_functionOutline trie (ScriptMatchers.ofWords_ofSource built trie member)

end MatcherListing

end ShapingTables
