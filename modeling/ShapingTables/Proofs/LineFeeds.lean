import ShapingTables.Proofs.LineEndings

/-! Texts cut at every line feed. The pieces are the lines of the text, but that a carriage
return in front of a line feed is left in its piece and that a text that ends in a line feed has
an empty piece behind it. Neither shows in what is read from the lines. -/
namespace ShapingTables

namespace Text

theorem notMem_of_mem_splitOn {text piece : List Char} (member : piece ∈ text.splitOn '\n') :
    '\n' ∉ piece := by
  induction text generalizing piece with
  | nil =>
    rw [List.splitOn_nil, List.mem_singleton] at member
    simp [member]
  | cons c rest ih =>
    rw [List.splitOn_cons_eq_if_modifyHead] at member
    cases pieces : rest.splitOn '\n' with
    | nil => exact absurd pieces (List.splitOn_ne_nil _ _)
    | cons first others =>
      rw [pieces] at ih member
      obtain ⟨ended, later⟩ := List.forall_mem_cons.mp fun _ listed => ih listed
      by_cases ends : c = '\n'
      · subst ends
        have members : piece = [] ∨ piece ∈ first :: others := by simpa using member
        rcases members with rfl | listed
        · simp
        · exact ih listed
      · have members : piece = c :: first ∨ piece ∈ others := by simpa [ends] using member
        rcases members with rfl | listed
        · simpa [ended] using Ne.symm ends
        · exact later piece listed

theorem modifyHead_nil_append (pieces : List (List Char)) :
    pieces.modifyHead ([].reverse ++ ·) = pieces := by
  cases pieces <;> rfl

/-- What the current line has already given stands in front of the first piece. -/
theorem linesFrom_splitOn (reversed text : List Char) :
    ∃ rest, (rest = [] ∨ rest = [[]]) ∧ List.Forall₂ SameLine (linesFrom reversed text ++ rest)
      ((text.splitOn '\n').modifyHead (reversed.reverse ++ ·)) := by
  induction text generalizing reversed with
  | nil =>
    rw [List.splitOn_nil, List.modifyHead_cons, List.append_nil, linesFrom]
    cases reversed with
    | nil => exact ⟨[[]], .inr rfl, .cons (.inl rfl) .nil⟩
    | cons c reversed => exact ⟨[], .inl rfl, .cons (.inl rfl) .nil⟩
  | cons c text ih =>
    rw [List.splitOn_cons_eq_if_modifyHead, linesFrom]
    by_cases ends : c = '\n'
    · obtain ⟨rest, empty, same⟩ := ih []
      refine ⟨rest, empty, ?_⟩
      simp only [ends, beq_self_eq_true, if_true, List.modifyHead_cons, List.append_nil,
        List.cons_append]
      rw [modifyHead_nil_append] at same
      exact .cons (closeLine_sameLine reversed) same
    · obtain ⟨rest, empty, same⟩ := ih (c :: reversed)
      refine ⟨rest, empty, ?_⟩
      simpa [ends, Function.comp_def] using same

/-- The pieces of a text are its lines, with an empty one behind them where the text ends in a
line feed. -/
theorem lines_splitOn (text : List Char) : ∃ rest, (rest = [] ∨ rest = [[]]) ∧
    List.Forall₂ SameLine (lines text ++ rest) (text.splitOn '\n') := by
  have pieces := linesFrom_splitOn [] text
  rwa [modifyHead_nil_append] at pieces

end Text

namespace DataFile

/-- The items of lines are what the lines give one by one. -/
theorem itemsFrom_eq_filterMap (least number : Nat) (texts : List (List Char)) :
    itemsFrom least number texts =
      (texts.zipIdx number).filterMap fun (text, number) => item? least number text := by
  induction texts generalizing number with
  | nil => rfl
  | cons text texts ih =>
    rw [itemsFrom, List.zipIdx_cons, ih]
    cases gives : item? least number text <;> simp [gives]

theorem itemsFrom_empty_behind {rest : List (List Char)} (empty : rest = [] ∨ rest = [[]])
    (least number : Nat) (texts : List (List Char)) :
    itemsFrom least number (texts ++ rest) = itemsFrom least number texts := by
  rcases empty with rfl | rfl
  · rw [List.append_nil]
  · have nothing (number : Nat) : item? least number [] = none := rfl
    simp only [itemsFrom_eq_filterMap, List.zipIdx_append, List.filterMap_append, List.zipIdx_cons,
      List.zipIdx_nil, List.filterMap_cons, nothing, List.filterMap_nil, List.append_nil]

theorem itemsFrom_pieces {texts rest pieces : List (List Char)} (empty : rest = [] ∨ rest = [[]])
    (same : List.Forall₂ Text.SameLine (texts ++ rest) pieces) (least number : Nat) :
    itemsFrom least number pieces = itemsFrom least number texts := by
  rw [itemsFrom_eq_of_sameLine same, itemsFrom_empty_behind empty]

/-- Without a marker it is enough to cut a text at its line feeds. -/
theorem items_pieces (least : Nat) (text : String) :
    items ⟨least, none⟩ text = itemsFrom (max least 1) 1 (text.toList.splitOn '\n') := by
  obtain ⟨rest, empty, same⟩ := Text.lines_splitOn text.toList
  rw [itemsFrom_pieces empty same]
  rfl

end DataFile

end ShapingTables
