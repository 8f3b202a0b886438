import Mathlib.Data.List.Infix
import ShapingTables.Proofs.DataLines
import ShapingTables.Proofs.LineFeeds

/-! Files with a marker. They can be read in one pass that carries whether the marker has been
seen, and reading them is reading, without a marker, the text from which the comment signs of
the rows below the marker are gone. -/
namespace ShapingTables

namespace Text

theorem occursIn_iff {part text : List Char} : occursIn part text = true ↔ part <:+: text := by
  induction text with
  | nil => simp [occursIn]
  | cons c rest ih =>
    rw [occursIn, Bool.or_eq_true, ih, List.isPrefixOf_iff_prefix, List.infix_cons_iff]

end Text

namespace DataFile

/-- A row behind a comment sign and a single blank. -/
def CommentedOut (line : List Char) : Prop := ['#', ' '] <+: line ∧ ';' ∈ line

instance (line : List Char) : Decidable (CommentedOut line) :=
  inferInstanceAs (Decidable (_ ∧ _))

/-- What is read of a line, and whether the marker has been seen once the line is read. A row
that is read without its comment sign is not searched for the marker again. -/
def readBelow (marker : List Char) (seen : Bool) (line : List Char) : List Char × Bool :=
  if seen = true ∧ CommentedOut line then (line.drop 2, seen)
  else (line, seen || decide (marker <:+: line))

/-- The items of consecutive lines in one pass, the first line having the number `number`. -/
def itemsInPass (least : Nat) (marker : List Char) (seen : Bool) (number : Nat) :
    List (List Char) → List Item
  | [] => []
  | line :: rest =>
    let (text, seen) := readBelow marker seen line
    (item? least number text).toList ++ itemsInPass least marker seen (number + 1) rest

/-- The text without the comment signs of the rows that are commented out, but only on lines
below one with the marker. Its lines end as they do in the text. -/
def uncommentedText (marker text : String) : String :=
  String.ofList (['\n'].intercalate ((text.toList.splitOn '\n').mapIdx fun place line =>
    if (∃ earlier ∈ (Text.lines text.toList).take place, marker.toList <:+: earlier) ∧
      CommentedOut line then line.drop 2 else line))

theorem uncomment_eq (line : List Char) :
    uncomment line = if CommentedOut line then line.drop 2 else line := by
  rcases line with _ | ⟨first, _ | ⟨second, rest⟩⟩
  · rfl
  · simp [uncomment, CommentedOut]
  · by_cases sign : first = '#' ∧ second = ' '
    · obtain ⟨rfl, rfl⟩ := sign
      simp [uncomment, CommentedOut]
    · have plain : ¬CommentedOut (first :: second :: rest) := by
        rintro ⟨⟨tail, split⟩, _⟩
        cases split
        exact sign ⟨rfl, rfl⟩
      rw [uncomment_unsigned sign, if_neg plain]

theorem lineBelow_eq (marker : List Char) (earlier : List (List Char)) (line : List Char) :
    lineBelow marker earlier line =
      if (∃ other ∈ earlier, marker <:+: other) ∧ CommentedOut line then line.drop 2 else line := by
  have seen : earlier.any (Text.occursIn marker) = true ↔ ∃ other ∈ earlier, marker <:+: other := by
    simp only [List.any_eq_true, Text.occursIn_iff]
  rw [lineBelow, uncomment_eq, ← ite_and]
  simp only [seen]

theorem lineBelow_sameLine {line other : List Char} (same : Text.SameLine line other)
    (marker : List Char) (earlier : List (List Char)) :
    Text.SameLine (lineBelow marker earlier line) (lineBelow marker earlier other) := by
  rw [lineBelow, lineBelow]
  split
  · exact uncomment_sameLine same
  · exact same

/-- The flag says whether a line above has the marker. -/
theorem readBelow_any (marker : List Char) (earlier : List (List Char)) (line : List Char) :
    readBelow marker (earlier.any fun other => decide (marker <:+: other)) line =
      (lineBelow marker earlier line,
        (earlier ++ [line]).any fun other => decide (marker <:+: other)) := by
  have seen : (earlier.any fun other => decide (marker <:+: other)) = true ↔
      ∃ other ∈ earlier, marker <:+: other := by
    simp only [List.any_eq_true, decide_eq_true_eq]
  rw [readBelow, lineBelow_eq, List.any_append]
  by_cases below : (∃ other ∈ earlier, marker <:+: other) ∧ CommentedOut line
  · rw [if_pos below, if_pos ⟨seen.mpr below.1, below.2⟩, seen.mpr below.1]
    rfl
  · rw [if_neg below, if_neg fun read => below ⟨seen.mp read.1, read.2⟩]
    simp

/-- Each line is read as it stands below the earlier ones, of which the pass knows only whether
one of them has the marker. -/
theorem itemsInPass_eq (least : Nat) (marker : List Char) (earlier : List (List Char))
    (number : Nat) (lines : List (List Char)) :
    itemsInPass least marker (earlier.any fun other => decide (marker <:+: other)) number lines =
      itemsFrom least number
        (lines.mapIdx fun place => lineBelow marker (earlier ++ lines.take place)) := by
  induction lines generalizing earlier number with
  | nil => rfl
  | cons line rest ih =>
    have later := ih (earlier ++ [line]) (number + 1)
    simp only [List.append_assoc, List.singleton_append] at later
    rw [itemsInPass, readBelow_any, List.mapIdx_cons, itemsFrom]
    simp only [later, List.take_succ_cons, List.take_zero, List.append_nil]
    cases item? least number (lineBelow marker earlier line) <;> rfl

theorem uncommentBelow_eq (marker : List Char) (lines : List (List Char)) :
    uncommentBelow marker lines =
      lines.mapIdx fun place => lineBelow marker (lines.take place) := by
  apply List.ext_getElem?
  intro place
  rw [getElem?_uncommentBelow, List.getElem?_mapIdx]

theorem uncommentBelow_unmarked {marker : List Char} {lines : List (List Char)}
    (none : ∀ line ∈ lines, ¬marker <:+: line) : uncommentBelow marker lines = lines := by
  induction lines with
  | nil => rfl
  | cons line rest ih =>
    obtain ⟨first, later⟩ := List.forall_mem_cons.mp none
    rw [uncommentBelow, if_neg (mt Text.occursIn_iff.mp first), ih later]

theorem forall₂_mapIdx {R : α → β → Prop} {f : Nat → α → α} {g : Nat → β → β}
    (kept : ∀ place a b, R a b → R (f place a) (g place b)) {xs : List α} {ys : List β}
    (related : List.Forall₂ R xs ys) : List.Forall₂ R (xs.mapIdx f) (ys.mapIdx g) := by
  induction related generalizing f g with
  | nil => exact .nil
  | cons first _ ih =>
    rw [List.mapIdx_cons, List.mapIdx_cons]
    exact .cons (kept 0 _ _ first) (ih fun place => kept (place + 1))

/-- The lines of the text without the comment signs. -/
theorem splitOn_uncommentedText (marker text : String) :
    (uncommentedText marker text).toList.splitOn '\n' =
      (text.toList.splitOn '\n').mapIdx fun place =>
        lineBelow marker.toList ((Text.lines text.toList).take place) := by
  rw [uncommentedText, String.toList_ofList]
  simp only [← lineBelow_eq]
  apply List.splitOn_intercalate
  · intro piece member
    obtain ⟨place, bound, rfl⟩ := List.mem_mapIdx.mp member
    have single := Text.notMem_of_mem_splitOn (List.getElem_mem bound)
    rw [lineBelow_eq]
    split
    · exact fun found => single (List.mem_of_mem_drop found)
    · exact single
  · simp

theorem items_uncommentedText (least : Nat) (marker text : String) :
    items ⟨least, none⟩ (uncommentedText marker text) = items ⟨least, some marker⟩ text := by
  obtain ⟨rest, empty, same⟩ := Text.lines_splitOn text.toList
  have behind : uncommentBelow marker.toList (Text.lines text.toList) ++ rest =
      (Text.lines text.toList ++ rest).mapIdx fun place =>
        lineBelow marker.toList ((Text.lines text.toList).take place) := by
    rw [List.mapIdx_append, ← uncommentBelow_eq]
    rcases empty with rfl | rfl
    · rfl
    · simp [lineBelow, uncomment]
  have pieces := forall₂_mapIdx (fun place _ _ same =>
    lineBelow_sameLine same marker.toList ((Text.lines text.toList).take place)) same
  rw [← behind] at pieces
  rw [items_pieces, splitOn_uncommentedText, itemsFrom_pieces empty pieces]
  rfl

/-- Reading below a marker is one pass with a flag, and it gives what is read without a marker
from the text without the comment signs; where no line has the marker, from the text itself. -/
theorem items_marked (least : Nat) (marker text : String) :
    items ⟨least, some marker⟩ text =
      itemsInPass (max least 1) marker.toList false 1 (Text.lines text.toList) ∧
    items ⟨least, some marker⟩ text = items ⟨least, none⟩ (uncommentedText marker text) ∧
    ((∀ line ∈ Text.lines text.toList, ¬marker.toList <:+: line) →
      items ⟨least, some marker⟩ text = items ⟨least, none⟩ text) := by
  refine ⟨?_, (items_uncommentedText least marker text).symm, fun none => ?_⟩
  · have pass := itemsInPass_eq (max least 1) marker.toList [] 1 (Text.lines text.toList)
    simp only [List.any_nil, List.nil_append, ← uncommentBelow_eq] at pass
    exact pass.symm
  · exact congrArg (itemsFrom (max least 1) 1) (uncommentBelow_unmarked none)

/-- A row above the marker stays a remark; below it a row is read and a remark stays one. -/
def overlayText : String :=
  "# 1CF2 ; Visarga\n# Below: Indic_Category\n# 11F00 ; Bindu\r\n# no row\n#093C ; Nukta\n"

theorem items_marked_overlay :
    (∀ line ∈ Text.lines "# 0900 ; Bindu\n0915 ; Consonant\n".toList,
      ¬"Indic_Category".toList <:+: line) ∧
    items ⟨2, some "Indic_Category"⟩ "# 0900 ; Bindu\n0915 ; Consonant\n" =
      items ⟨2, none⟩ "# 0900 ; Bindu\n0915 ; Consonant\n" ∧
    items ⟨2, none⟩ (uncommentedText "Indic_Category" overlayText) =
      [.ok ⟨3, .single 0x11F00, ["Bindu"]⟩] := by
  have unmarked : ∀ line ∈ Text.lines "# 0900 ; Bindu\n0915 ; Consonant\n".toList,
      ¬"Indic_Category".toList <:+: line := by
    decide +kernel
  have read : items ⟨2, some "Indic_Category"⟩ overlayText =
      [.ok ⟨3, .single 0x11F00, ["Bindu"]⟩] := by
    decide +kernel
  exact ⟨unmarked, (items_marked 2 _ _).2.2 unmarked, (items_marked 2 _ _).2.1.symm.trans read⟩

end DataFile

end ShapingTables
