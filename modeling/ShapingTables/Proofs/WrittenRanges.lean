import ShapingTables.Codepoint
import ShapingTables.Proofs.HexWords

/-! Ranges of codepoints as they are written. A text denotes a range if it is one numeral, or
two numerals with two dots between them, and blanks stand nowhere but around the numerals. It
is read exactly if the ends of that range are in order and in the codespace. -/
namespace ShapingTables

namespace Text

theorem IsNumeral.trimmed {word : List Char} (numeral : IsNumeral word) : Trimmed word :=
  trimmed_of_solid numeral.solid

theorem readHex?_eq_some_iff_padded {text : List Char} {value : Nat} :
    readHex? text = some value ↔
      ∃ word, Padded word text ∧ IsNumeral word ∧ value = numeralValue word := by
  rw [readHex?_eq_some_iff_trim]
  constructor
  · rintro ⟨numeral, same⟩
    exact ⟨trim text, padded_trim text, numeral, same⟩
  · rintro ⟨word, padded, numeral, same⟩
    rw [padded.trim_eq numeral.trimmed]
    exact ⟨numeral, same⟩

theorem Padded.blank_or_digit {word text : List Char} (padded : Padded word text)
    (numeral : IsNumeral word) : ∀ c ∈ text, isBlank c = true ∨ isHexDigit c = true := by
  obtain ⟨lead, tail, rfl, front, behind⟩ := padded
  have digits := List.all_eq_true.mp numeral.digits
  simp only [List.mem_append]
  rintro c ((member | member) | member)
  · exact .inl (List.all_eq_true.mp front c member)
  · exact .inr (digits c member)
  · exact .inl (List.all_eq_true.mp behind c member)

theorem Padded.undotted {word text : List Char} (padded : Padded word text)
    (numeral : IsNumeral word) : '.' ∉ text := by
  intro member
  rcases padded.blank_or_digit numeral '.' member with blank | digit <;> contradiction

theorem splitAtDots?_cons {c : Char} (other : c ≠ '.') (rest : List Char) :
    splitAtDots? (c :: rest) = (splitAtDots? rest).map fun (left, right) => (c :: left, right) := by
  rw [splitAtDots?]
  rintro _ rfl
  contradiction

theorem eq_of_splitAtDots? {text left right : List Char}
    (split : splitAtDots? text = some (left, right)) : text = left ++ ['.', '.'] ++ right := by
  fun_induction splitAtDots? text generalizing left with
  | case1 rest =>
    cases split
    rfl
  | case2 c rest _ ih =>
    obtain ⟨⟨front, back⟩, found, same⟩ := Option.map_eq_some_iff.mp split
    cases same
    rw [ih found]
    rfl
  | case3 => contradiction

theorem splitAtDots?_append {left : List Char} (undotted : '.' ∉ left) (right : List Char) :
    splitAtDots? (left ++ ['.', '.'] ++ right) = some (left, right) := by
  induction left with
  | nil => rfl
  | cons c left ih =>
    obtain ⟨other, undotted⟩ : '.' ≠ c ∧ '.' ∉ left := by simpa using undotted
    rw [List.cons_append, List.cons_append, splitAtDots?_cons other.symm, ih undotted]
    rfl

theorem splitAtDots?_undotted {text : List Char} (undotted : '.' ∉ text) :
    splitAtDots? text = none := by
  induction text with
  | nil => rfl
  | cons c text ih =>
    obtain ⟨other, undotted⟩ : '.' ≠ c ∧ '.' ∉ text := by simpa using undotted
    rw [splitAtDots?_cons other.symm, ih undotted]
    rfl

end Text

namespace CodepointRange

open Text (Padded Trimmed IsNumeral numeralValue)

/-- What a text says of a range, whether or not the range exists: its only codepoint, or its
ends with two dots between them. -/
inductive Denotes (text : List Char) : CodepointRange → Prop
  | single : Padded word text → IsNumeral word → Denotes text (.single (numeralValue word))
  | pair : text = left ++ ['.', '.'] ++ right → Padded lower left → IsNumeral lower →
      Padded upper right → IsNumeral upper →
      Denotes text ⟨numeralValue lower, numeralValue upper⟩

theorem ends?_eq_some_iff {text : List Char} {range : CodepointRange} :
    ends? text = some range ↔ Denotes text range := by
  rw [ends?]
  constructor
  · intro read
    cases split : Text.splitAtDots? text with
    | none =>
      rw [split] at read
      obtain ⟨value, here, rfl⟩ := Option.map_eq_some_iff.mp read
      obtain ⟨word, padded, numeral, rfl⟩ := Text.readHex?_eq_some_iff_padded.mp here
      exact .single padded numeral
    | some parts =>
      obtain ⟨left, right⟩ := parts
      rw [split] at read
      obtain ⟨first, front, read⟩ := Option.bind_eq_some_iff.mp read
      obtain ⟨last, back, rfl⟩ := Option.map_eq_some_iff.mp read
      obtain ⟨_, padded, numeral, rfl⟩ := Text.readHex?_eq_some_iff_padded.mp front
      obtain ⟨_, otherPadded, otherNumeral, rfl⟩ := Text.readHex?_eq_some_iff_padded.mp back
      exact .pair (Text.eq_of_splitAtDots? split) padded numeral otherPadded otherNumeral
  · intro denotes
    cases denotes with
    | single padded numeral =>
      have read := Text.readHex?_eq_some_iff_padded.mpr ⟨_, padded, numeral, rfl⟩
      rw [Text.splitAtDots?_undotted (padded.undotted numeral), read]
      rfl
    | pair split padded numeral otherPadded otherNumeral =>
      have front := Text.readHex?_eq_some_iff_padded.mpr ⟨_, padded, numeral, rfl⟩
      have back := Text.readHex?_eq_some_iff_padded.mpr ⟨_, otherPadded, otherNumeral, rfl⟩
      rw [split, Text.splitAtDots?_append (padded.undotted numeral)]
      simp only [front, back, Option.bind_some, Option.map_some]

/-- Blanks around the whole text are blanks around its numerals. -/
theorem denotes_trim {text : List Char} {range : CodepointRange} :
    Denotes (Text.trim text) range ↔ Denotes text range := by
  constructor
  · obtain ⟨lead, tail, split, front, behind⟩ := Text.padded_trim text
    intro denotes
    cases denotes with
    | single padded numeral =>
      have around := (padded.append_left front).append_right behind
      rw [← split] at around
      exact .single around numeral
    | @pair left right _ _ parts padded numeral otherPadded otherNumeral =>
      refine .pair ?_ (padded.append_left front) numeral (otherPadded.append_right behind) otherNumeral
      rw [split, parts]
      simp
  · intro denotes
    cases denotes with
    | single padded numeral =>
      rw [padded.trim_eq numeral.trimmed]
      exact .single (.refl _) numeral
    | @pair left right lower upper parts padded numeral otherPadded otherNumeral =>
      -- What is trimmed away stands in front of the lower numeral and behind the upper one.
      obtain ⟨lead, gap, rfl, front, blank⟩ := padded
      obtain ⟨otherGap, tail, rfl, otherBlank, behind⟩ := otherPadded
      have core : Padded ((lower ++ gap) ++ ['.', '.'] ++ (otherGap ++ upper)) text :=
        ⟨lead, tail, by simp [parts], front, behind⟩
      have filled : lower ≠ [] := List.length_pos_iff.mp numeral.filled
      have otherFilled : upper ≠ [] := List.length_pos_iff.mp otherNumeral.filled
      have trimmed : Trimmed ((lower ++ gap) ++ ['.', '.'] ++ (otherGap ++ upper)) := by
        constructor
        · rw [List.append_assoc, List.append_assoc, List.head?_append_of_ne_nil _ filled]
          exact numeral.trimmed.first
        · rw [← List.append_assoc, List.getLast?_append_of_ne_nil _ otherFilled]
          exact otherNumeral.trimmed.last
      rw [core.trim_eq trimmed]
      exact .pair rfl ⟨[], gap, by simp, by simp, blank⟩ numeral
        ⟨otherGap, [], by simp, otherBlank, by simp⟩ otherNumeral

theorem read?_eq_some_iff {text : List Char} {range : CodepointRange} :
    read? text = some range ↔
      Denotes text range ∧ range.first ≤ range.last ∧ range.last ≤ maxCodepoint := by
  rw [read?, Option.filter_eq_some_iff, ends?_eq_some_iff, denotes_trim]
  simp

/-- A printed range denotes itself. -/
theorem denotes_hex4 {range : CodepointRange} (ordered : range.first ≤ range.last)
    (inside : range.last ≤ maxCodepoint) :
    Denotes (Text.hex4 range.first ++ ".." ++ Text.hex4 range.last).toList range ∧
      (range.first = range.last → Denotes (Text.hex4 range.first).toList range) := by
  have bound : maxCodepoint < 0x1000000 := by decide
  obtain ⟨numeral, value⟩ : IsNumeral (Text.hex4 range.first).toList ∧
      numeralValue (Text.hex4 range.first).toList = range.first :=
    Text.isNumeral_hex (by decide) (by omega)
  obtain ⟨otherNumeral, otherValue⟩ : IsNumeral (Text.hex4 range.last).toList ∧
      numeralValue (Text.hex4 range.last).toList = range.last :=
    Text.isNumeral_hex (by decide) (by omega)
  constructor
  · have pair := Denotes.pair rfl (.refl _) numeral (.refl _) otherNumeral
    rw [value, otherValue] at pair
    rw [String.toList_append, String.toList_append]
    exact pair
  · intro same
    have single := Denotes.single (.refl _) numeral
    have own : CodepointRange.single range.first = range := by
      rw [CodepointRange.single]
      exact congrArg (CodepointRange.mk range.first) same
    rwa [value, own] at single

/-- A text is read exactly if it denotes a range whose ends are in order and in the codespace,
and a printed range is read back. -/
theorem read?_grammar (text : List Char) :
    (∀ range, read? text = some range ↔
      Denotes text range ∧ range.first ≤ range.last ∧ range.last ≤ maxCodepoint) ∧
    (read? text = none ↔ ∀ range, Denotes text range →
      ¬(range.first ≤ range.last ∧ range.last ≤ maxCodepoint)) ∧
    ∀ range : CodepointRange, range.first ≤ range.last → range.last ≤ maxCodepoint →
      read? (Text.hex4 range.first ++ ".." ++ Text.hex4 range.last).toList = some range ∧
      (range.first = range.last → read? (Text.hex4 range.first).toList = some range) := by
  refine ⟨fun _ => read?_eq_some_iff, ?_, fun range ordered inside => ?_⟩
  · simp only [Option.eq_none_iff_forall_ne_some, ne_eq, read?_eq_some_iff, not_and]
  · obtain ⟨pair, single⟩ := denotes_hex4 ordered inside
    exact ⟨read?_eq_some_iff.mpr ⟨pair, ordered, inside⟩, fun same =>
      read?_eq_some_iff.mpr ⟨single same, ordered, inside⟩⟩

/-- Blanks around the dots and digits of both cases; the last codepoint; a third dot. -/
theorem read?_grammar_looseDots :
    Denotes " 0900 ..\t97f ".toList ⟨0x900, 0x97F⟩ ∧
      read? " 0900 ..\t97f ".toList = some ⟨0x900, 0x97F⟩ ∧
      read? (Text.hex4 0x900 ++ ".." ++ Text.hex4 0x97F).toList = some ⟨0x900, 0x97F⟩ ∧
      read? (Text.hex4 0x10FFFF).toList = some (.single 0x10FFFF) ∧
      ∀ range, Denotes "0900...097F".toList range →
        ¬(range.first ≤ range.last ∧ range.last ≤ maxCodepoint) := by
  have front : Padded "0900".toList " 0900 ".toList := ⟨[' '], [' '], by decide⟩
  have back : Padded "97f".toList "\t97f ".toList := ⟨['\t'], [' '], by decide⟩
  have denotes : Denotes " 0900 ..\t97f ".toList ⟨0x900, 0x97F⟩ :=
    .pair (by decide) front (by decide) back (by decide)
  have refused : read? "0900...097F".toList = none := by decide
  exact ⟨denotes, ((read?_grammar _).1 _).mpr ⟨denotes, by decide, by decide⟩,
    ((read?_grammar []).2.2 ⟨0x900, 0x97F⟩ (by decide) (by decide)).1,
    ((read?_grammar []).2.2 (.single 0x10FFFF) (by decide) (by decide)).2 rfl,
    (read?_grammar _).2.1.mp refused⟩

end CodepointRange

end ShapingTables
