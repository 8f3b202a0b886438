import ShapingTables.Proofs.SequenceLines

/-! Written lists of prohibited sequences. Whatever digits, blanks and remarks a list is written
with, the sequences that are read are the ones that were written, each with its line. -/
namespace ShapingTables

open Text (IsNumeral numeralValue SameLine)

/-- A codepoint in a line: its digits and the blanks behind them. -/
structure WrittenWord where
  codepoint : Nat
  digits : List Char
  blanks : List Char

/-- A line that lists a sequence, or nothing if it has no words. -/
structure WrittenLine where
  indent : List Char
  words : List WrittenWord
  remark : List Char

namespace WrittenLine

def data (words : List WrittenWord) : List Char :=
  words.flatMap fun word => word.digits ++ word.blanks

def text (line : WrittenLine) : List Char := line.indent ++ data line.words ++ line.remark

/-- The text of a file, in which every line ends in a line feed. -/
def fileText (lines : List WrittenLine) : String :=
  String.ofList (lines.flatMap fun line => line.text ++ ['\n'])

/-- Words are written as numerals with blanks between them; what is behind them is no word. -/
@[mk_iff]
structure Proper (line : WrittenLine) : Prop where
  length : line.words = [] ∨ 2 ≤ line.words.length
  spelled : ∀ word ∈ line.words,
    IsNumeral word.digits ∧ numeralValue word.digits = word.codepoint
  indent : line.indent.all Text.isBlank = true
  blanks : ∀ word ∈ line.words, word.blanks.all Text.isBlank = true
  apart : ∀ word ∈ line.words.dropLast, word.blanks ≠ []
  remark : line.remark.head? ∈ [none, some '#', some ';']
  single : '\n' ∉ line.text

instance (line : WrittenLine) : Decidable line.Proper :=
  decidable_of_iff _ (proper_iff line).symm

/-- The sequences of a file, each with the number of its line. -/
def sequences (lines : List WrittenLine) : List ProhibitedSequence :=
  (lines.zipIdx 1).filterMap fun (line, number) =>
    if line.words = [] then none else some ⟨number, line.words.map (·.codepoint)⟩

theorem words_data {words : List WrittenWord} (spelled : ∀ word ∈ words, IsNumeral word.digits)
    (blanks : ∀ word ∈ words, word.blanks.all Text.isBlank = true)
    (apart : ∀ word ∈ words.dropLast, word.blanks ≠ []) :
    Text.words (data words) = words.map (·.digits) := by
  induction words with
  | nil => rfl
  | cons word rest ih =>
    obtain ⟨numeral, numerals⟩ := List.forall_mem_cons.mp spelled
    obtain ⟨behind, later⟩ := List.forall_mem_cons.mp blanks
    have filled : word.digits ≠ [] := List.length_pos_iff.mp numeral.filled
    have first := Text.words_solid filled numeral.solid
    have others := ih numerals later fun other member => apart other (by
      cases rest with
      | nil => simp at member
      | cons next rest => exact List.mem_cons_of_mem _ member)
    rw [data, List.flatMap_cons, ← data, List.map_cons]
    cases gap : word.blanks with
    | cons c gap =>
      rw [gap, List.all_eq_true] at behind
      obtain ⟨blank, behind⟩ := List.forall_mem_cons.mp behind
      rw [List.append_assoc, List.cons_append, Text.words_append_blank blank,
        Text.words_blanks_append behind, first, others]
      rfl
    | nil =>
      -- Only the last word may stand without a blank behind it.
      cases rest with
      | nil => simpa [data] using first
      | cons next rest => exact absurd gap (apart word (by simp))

/-- Nothing in front of the remark cuts the line short. -/
theorem plain_data {line : WrittenLine} (proper : line.Proper) :
    ∀ c ∈ line.indent ++ data line.words, c ≠ '#' ∧ c ≠ ';' := by
  have blank {text : List Char} (blanks : text.all Text.isBlank = true) :
      ∀ c ∈ text, c ≠ '#' ∧ c ≠ ';' := by
    intro c member
    have blank := List.all_eq_true.mp blanks c member
    constructor <;> rintro rfl <;> contradiction
  simp only [List.mem_append, data, List.mem_flatMap]
  rintro c (member | ⟨word, listed, member | member⟩)
  · exact blank proper.indent c member
  · have digits := (proper.spelled word listed).1.digits
    exact Text.of_isHexDigit (p := fun c => c ≠ '#' ∧ c ≠ ';') (by decide)
      (List.all_eq_true.mp digits c member)
  · exact blank (proper.blanks word listed) c member

theorem wordsOf_text {line : WrittenLine} (proper : line.Proper) :
    ProhibitedSequence.wordsOf line.text = line.words.map (·.digits) := by
  have plain := plain_data proper
  have unread : Text.before ';' (Text.before '#' line.remark) = [] := by
    have starts := proper.remark
    cases remark : line.remark with
    | nil => rfl
    | cons stop rest =>
      have stops : stop = '#' ∨ stop = ';' := by simpa [remark] using starts
      rcases stops with rfl | rfl <;> simp [Text.before]
  have cut (stop : Char) (absent : ∀ c ∈ line.indent ++ data line.words, c ≠ stop)
      (behind : List Char) : Text.before stop (line.indent ++ data line.words ++ behind) =
        line.indent ++ data line.words ++ Text.before stop behind :=
    List.takeWhile_append_of_pos fun c member => by simpa using absent c member
  rw [ProhibitedSequence.wordsOf, text, cut '#' fun c member => (plain c member).1,
    cut ';' fun c member => (plain c member).2, unread, List.append_nil,
    Text.words_blanks_append (List.all_eq_true.mp proper.indent)]
  exact words_data (fun word member => (proper.spelled word member).1) proper.blanks proper.apart

theorem linesFrom_line {text : List Char} (single : '\n' ∉ text) (reversed rest : List Char) :
    Text.linesFrom reversed (text ++ '\n' :: rest) =
      Text.closeLine (text.reverse ++ reversed) :: Text.linesFrom [] rest := by
  induction text generalizing reversed with
  | nil => simp [Text.linesFrom]
  | cons c text ih =>
    obtain ⟨other, single⟩ : '\n' ≠ c ∧ '\n' ∉ text := by simpa using single
    simp [Text.linesFrom, other.symm, ih single]

/-- A line is read as it is written, but for a carriage return at its end. -/
theorem lines_flatMap {texts : List (List Char)} (single : ∀ text ∈ texts, '\n' ∉ text) :
    List.Forall₂ SameLine (Text.lines (texts.flatMap (· ++ ['\n']))) texts := by
  induction texts with
  | nil => exact .nil
  | cons text texts ih =>
    obtain ⟨first, later⟩ := List.forall_mem_cons.mp single
    rw [List.flatMap_cons, List.append_assoc, List.singleton_append, Text.lines,
      linesFrom_line first, List.append_nil]
    refine .cons ?_ (ih later)
    simpa [Text.closeLine] using Text.closeLine_sameLine text.reverse

theorem wellFormed_text {line : WrittenLine} (proper : line.Proper) :
    ProhibitedSequence.WellFormed line.text where
  length := by simpa [wordsOf_text proper] using proper.length
  numerals := by
    rw [wordsOf_text proper, List.forall_mem_map]
    exact fun word member => (proper.spelled word member).1

theorem listedIn_text {line : WrittenLine} (proper : line.Proper) :
    ProhibitedSequence.listedIn line.text =
      if line.words = [] then none else some (line.words.map (·.codepoint)) := by
  have values : (line.words.map (·.digits)).map numeralValue = line.words.map (·.codepoint) := by
    rw [List.map_map]
    exact List.map_congr_left fun word member => (proper.spelled word member).2
  rw [ProhibitedSequence.listedIn, wordsOf_text proper, values]
  simp

theorem listed_texts {lines : List WrittenLine} (proper : ∀ line ∈ lines, line.Proper) :
    ProhibitedSequence.listed 1 (lines.map text) = sequences lines := by
  rw [ProhibitedSequence.listed, List.zipIdx_map, List.filterMap_map, sequences]
  apply List.filterMap_congr
  rintro ⟨line, number⟩ member
  have listed : line ∈ lines := by
    rw [← List.zipIdx_map_fst 1 lines]
    exact List.mem_map_of_mem member
  simp only [Function.comp_apply, Prod.map_apply, listedIn_text (proper line listed)]
  split <;> rfl

end WrittenLine

/-- The format of a list of prohibited sequences. A text is read exactly if each of its lines
holds no word or several numerals, and then every line with words lists the numbers they stand
for; otherwise the lowest line at fault is reported, and on it a word that is no numeral before
a lone codepoint. A written list is read back, in whatever way it is written, and every number
of up to six digits can be written. -/
theorem ProhibitedSequence.ofText_format (text : String) :
    (∀ sequences, ofText text = .ok sequences ↔
      (∀ line ∈ Text.lines text.toList, WellFormed line) ∧
        sequences = listed 1 (Text.lines text.toList)) ∧
    (∀ number fault, ofText text = .error (number, fault) ↔
      FirstFaulty 1 (Text.lines text.toList) number fault) ∧
    (∀ lines : List WrittenLine, (∀ line ∈ lines, line.Proper) →
      text = WrittenLine.fileText lines → ofText text = .ok (WrittenLine.sequences lines)) ∧
    ∀ codepoint < 0x1000000, IsNumeral (Text.hex4 codepoint).toList ∧
      numeralValue (Text.hex4 codepoint).toList = codepoint := by
  refine ⟨readLines_eq_ok_iff 1 _, readLines_eq_error_iff 1 _, ?_,
    fun codepoint small => Text.isNumeral_hex (by decide) small⟩
  rintro lines proper rfl
  have single : ∀ text ∈ lines.map (·.text), '\n' ∉ text :=
    List.forall_mem_map.mpr fun line member => (proper line member).single
  have same := WrittenLine.lines_flatMap single
  rw [List.flatMap_map] at same
  rw [ofText, WrittenLine.fileText, String.toList_ofList, ← readLines_eq_of_sameLine same,
    readLines_eq_ok_iff]
  refine ⟨List.forall_mem_map.mpr fun line member => ?_, (WrittenLine.listed_texts proper).symm⟩
  exact WrittenLine.wellFormed_text (proper line member)

/-- A remark, a sequence with a remark behind it, blanks, and a sequence in other digits. -/
def vowelLines : List WrittenLine := [
  ⟨[], [], "# VOWELS".toList⟩,
  ⟨[], [⟨0x905, "0905".toList, [' ']⟩, ⟨0x946, "0946".toList, ['\t']⟩], "# SHORT E".toList⟩,
  ⟨[' '], [], []⟩,
  ⟨[' '], [⟨0xB85, "b85".toList, [' ', ' ']⟩, ⟨0xBC2, "000BC2".toList, []⟩], "; TAMIL".toList⟩]

theorem ProhibitedSequence.ofText_format_vowelLines :
    (∀ line ∈ vowelLines, line.Proper) ∧
      ofText (WrittenLine.fileText vowelLines) = .ok [⟨2, [0x905, 0x946]⟩, ⟨4, [0xB85, 0xBC2]⟩] ∧
      ofText "0905 0946\n0905 09X6\n0905\n" = .error (2, .badCodepoint "09X6") := by
  have proper : ∀ line ∈ vowelLines, line.Proper := by decide
  have lines : Text.lines "0905 0946\n0905 09X6\n0905\n".toList =
      ["0905 0946".toList, "0905 09X6".toList, "0905".toList] := by decide
  have words : wordsOf "0905 09X6".toList = ["0905".toList] ++ "09X6".toList :: [] := by
    decide
  have bad : Faulty "0905 09X6".toList (.badCodepoint "09X6") :=
    .badCodepoint words (by decide) (by decide)
  exact ⟨proper, (ofText_format _).2.2.1 vowelLines proper rfl,
    ((ofText_format _).2.1 2 _).mpr ⟨["0905 0946".toList], _, _, lines, by decide, rfl, bad⟩⟩

end ShapingTables
