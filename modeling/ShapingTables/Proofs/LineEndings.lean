import ShapingTables.Build
import ShapingTables.Proofs.TrimmedFields

/-! Texts with a carriage return in front of every line feed. Reading such a text leaves at
most one more carriage return at the end of a line, which is blank and is trimmed away with
the other blanks, so that every file reads as it did before, faults included. -/
namespace ShapingTables

namespace Text

/-- The text with one more carriage return in front of every line feed. -/
def addReturns (text : List Char) : List Char :=
  text.flatMap fun c => if c = '\n' then ['\r', '\n'] else [c]

/-- The second line may have one more carriage return at its end. -/
def SameLine (line other : List Char) : Prop := other = line ∨ other = line ++ ['\r']

theorem closeLine_sameLine (reversed : List Char) :
    SameLine (closeLine reversed) (closeLine ('\r' :: reversed)) := by
  unfold closeLine
  split
  · exact .inr (by simp)
  · exact .inl rfl

theorem linesFrom_addReturns (reversed text : List Char) :
    List.Forall₂ SameLine (linesFrom reversed text) (linesFrom reversed (addReturns text)) := by
  induction text generalizing reversed with
  | nil =>
    rw [addReturns, List.flatMap_nil, linesFrom]
    split
    · exact .nil
    · exact .cons (.inl rfl) .nil
  | cons c rest ih =>
    rw [addReturns, List.flatMap_cons, ← addReturns]
    by_cases ends : c = '\n'
    · subst ends
      simp only [if_true, List.cons_append, List.nil_append, linesFrom]
      exact .cons (closeLine_sameLine reversed) (ih [])
    · simp only [ends, if_false, List.cons_append, List.nil_append, linesFrom]
      exact ih (c :: reversed)

theorem lines_addReturns (text : List Char) :
    List.Forall₂ SameLine (lines text) (lines (addReturns text)) :=
  linesFrom_addReturns [] text

theorem isBlank_return : isBlank '\r' = true := by decide

theorem words_append_return (text : List Char) : words (text ++ ['\r']) = words text := by
  simp only [words, splitWhere_append isBlank isBlank_return]
  rw [← List.cons_append, List.filter_append]
  simp [splitWhere]

theorem isPrefixOf_append_return {marker : List Char} (plain : '\r' ∉ marker) (text : List Char) :
    marker.isPrefixOf (text ++ ['\r']) = marker.isPrefixOf text := by
  rw [Bool.eq_iff_iff, List.isPrefixOf_iff_prefix, List.isPrefixOf_iff_prefix,
    List.prefix_concat_iff]
  refine or_iff_right ?_
  rintro rfl
  simp at plain

theorem occursIn_append_return {marker : List Char} (plain : '\r' ∉ marker) (text : List Char) :
    occursIn marker (text ++ ['\r']) = occursIn marker text := by
  induction text with
  | nil =>
    have := isPrefixOf_append_return plain []
    cases marker <;> simp_all [occursIn]
  | cons c rest ih =>
    rw [List.cons_append, occursIn, ih, ← List.cons_append, isPrefixOf_append_return plain,
      occursIn]

namespace SameLine

variable {line other : List Char} (same : SameLine line other)
include same

theorem trim_eq : trim other = trim line := by
  rcases same with rfl | rfl
  · rfl
  · exact trim_append_right (by decide) line

theorem words_eq : words other = words line := by
  rcases same with rfl | rfl
  · rfl
  · exact words_append_return line

/-- Where the line is cut short the carriage return is lost as well. -/
theorem before (stop : Char) (stops : stop ≠ '\r') :
    SameLine (before stop line) (before stop other) := by
  rcases same with rfl | rfl
  · exact .inl rfl
  · simp only [Text.before, List.takeWhile_append]
    split
    · rename_i uncut
      rw [(List.takeWhile_prefix _).eq_of_length uncut]
      exact .inr (by simp [stops.symm])
    · exact .inl rfl

theorem occursIn_eq {marker : List Char} (plain : '\r' ∉ marker) :
    occursIn marker other = occursIn marker line := by
  rcases same with rfl | rfl
  · rfl
  · exact occursIn_append_return plain line

end SameLine

end Text

/-- The text of a file with one more carriage return in front of every line feed. -/
def Text.withReturns (text : String) : String := String.ofList (addReturns text.toList)

namespace DataFile

open Text (SameLine withReturns)

theorem uncomment_unsigned {first second : Char} (unsigned : ¬(first = '#' ∧ second = ' '))
    (rest : List Char) : uncomment (first :: second :: rest) = first :: second :: rest := by
  unfold uncomment
  split
  · rename_i signed
    cases signed
    exact absurd ⟨rfl, rfl⟩ unsigned
  · rfl

theorem uncomment_sameLine {line other : List Char} (same : SameLine line other) :
    SameLine (uncomment line) (uncomment other) := by
  rcases same with rfl | rfl
  · exact .inl rfl
  · rcases line with _ | ⟨first, _ | ⟨second, rest⟩⟩
    · exact .inr rfl
    · refine .inr ?_
      simp [uncomment]
    · by_cases sign : first = '#' ∧ second = ' '
      · obtain ⟨rfl, rfl⟩ := sign
        have marks : (rest ++ ['\r']).contains ';' = rest.contains ';' := by simp
        simp only [List.cons_append, uncomment, marks]
        split <;> exact .inr rfl
      · refine .inr ?_
        simp only [List.cons_append, uncomment_unsigned sign]

theorem item?_eq_of_sameLine {line other : List Char} (same : SameLine line other)
    (least number : Nat) : item? least number other = item? least number line := by
  rw [item?, item?, (same.before '#' (by decide)).trim_eq]

theorem itemsFrom_eq_of_sameLine {texts others : List (List Char)}
    (same : List.Forall₂ SameLine texts others) (least number : Nat) :
    itemsFrom least number others = itemsFrom least number texts := by
  induction same generalizing number with
  | nil => rfl
  | cons first _ ih => rw [itemsFrom, itemsFrom, item?_eq_of_sameLine first, ih]

theorem uncommentBelow_sameLine {marker : List Char} (plain : '\r' ∉ marker)
    {texts others : List (List Char)} (same : List.Forall₂ SameLine texts others) :
    List.Forall₂ SameLine (uncommentBelow marker texts) (uncommentBelow marker others) := by
  induction same with
  | nil => exact .nil
  | cons first later ih =>
    rw [uncommentBelow, uncommentBelow, first.occursIn_eq plain]
    refine .cons first ?_
    split
    · rw [List.forall₂_map_left_iff, List.forall₂_map_right_iff]
      exact later.imp fun _ _ => uncomment_sameLine
    · exact ih

/-- The marker of the format, if it has one, stands within a line. -/
def Format.Plain (format : Format) : Prop := ∀ marker ∈ format.marker, '\r' ∉ marker.toList

theorem Format.Plain.lines_withReturns {format : Format} (plain : format.Plain) (text : String) :
    List.Forall₂ SameLine (format.lines text) (format.lines (withReturns text)) := by
  have same := Text.lines_addReturns text.toList
  rw [lines, lines, withReturns, String.toList_ofList]
  cases marked : format.marker with
  | none => exact same
  | some marker => exact uncommentBelow_sameLine (plain marker marked) same

variable {format : Format} (plain : format.Plain)
include plain

theorem items_withReturns (text : String) : items format (withReturns text) = items format text :=
  itemsFrom_eq_of_sameLine (plain.lines_withReturns text) _ _

theorem rows_withReturns (text : String) : rows format (withReturns text) = rows format text := by
  rw [rows, rows, items_withReturns plain]

theorem values_withReturns (index : Nat) (valueOf? : String → Option α) (text : String) :
    values format index valueOf? (withReturns text) = values format index valueOf? text := by
  rw [values, values, items_withReturns plain]

end DataFile

open Text (SameLine withReturns)

theorem DataFile.Format.plain_plain : Format.plain.Plain := by
  rintro marker ⟨⟩

namespace Readings

theorem databaseFormat_plain : databaseFormat.Plain := by
  rintro marker ⟨⟩

theorem syllabicOverlayFormat_plain : syllabicOverlayFormat.Plain := by
  rintro marker ⟨⟩
  decide

end Readings

theorem BlockTable.ofText_withReturns (text : String) :
    ofText (withReturns text) = ofText text := by
  rw [ofText, ofText, DataFile.rows_withReturns DataFile.Format.plain_plain]

theorem ScriptTable.ofText_withReturns (text : String) :
    ofText (withReturns text) = ofText text := by
  rw [ofText, ofText, DataFile.rows_withReturns DataFile.Format.plain_plain]

theorem PictographicSet.ofText_withReturns (text : String) :
    ofText (withReturns text) = ofText text := by
  rw [ofText, ofText, DataFile.rows_withReturns DataFile.Format.plain_plain]

namespace ProhibitedSequence

theorem readLine_eq_of_sameLine {line other : List Char} (same : SameLine line other) :
    readLine other = readLine line := by
  have cut := (same.before '#' (by decide)).before ';' (by decide)
  rw [readLine, readLine, cut.words_eq]

theorem readLines_eq_of_sameLine {texts others : List (List Char)}
    (same : List.Forall₂ SameLine texts others) (line : Nat) :
    readLines line others = readLines line texts := by
  induction same generalizing line with
  | nil => rfl
  | cons first _ ih => simp only [readLines, readLine_eq_of_sameLine first, ih]

theorem ofText_withReturns (text : String) : ofText (withReturns text) = ofText text := by
  rw [ofText, ofText, withReturns, String.toList_ofList]
  exact readLines_eq_of_sameLine (Text.lines_addReturns text.toList) 1

end ProhibitedSequence

namespace Source

/-- The source with one more carriage return in front of every line feed of some of its files. -/
def withReturns (source : Source) (chosen : SourceFile → Bool) : Source := fun file =>
  if chosen file then (source file).map Text.withReturns else source file

theorem read_withReturns {source : Source} {chosen : SourceFile → Bool} {file : SourceFile}
    {parse : String → Except (Nat × LineFault) α}
    (same : ∀ text, parse (Text.withReturns text) = parse text) :
    (source.withReturns chosen).read file parse = source.read file parse := by
  rw [read, read, withReturns]
  cases chosen file with
  | false => rfl
  | true =>
    cases source file with
    | error fault => rfl
    | ok text => simp [Except.map, same]

/-- Line ends with and without a carriage return give the same tables, matchers and sets, and
where a build fails the same fault. -/
theorem builds_withReturns (source : Source) (chosen : SourceFile → Bool) (config : Config) :
    DispatchTable.ofSource (source.withReturns chosen) config =
        DispatchTable.ofSource source config ∧
      ScriptMatchers.ofSource (source.withReturns chosen) = ScriptMatchers.ofSource source ∧
      PictographicSet.ofSource (source.withReturns chosen) = PictographicSet.ofSource source := by
  have plain := DataFile.Format.plain_plain
  refine ⟨?_, ?_, ?_⟩
  · simp only [DispatchTable.ofSource, RecordSet.ofSource, Readings.ofSource,
      read_withReturns (DataFile.values_withReturns plain _ _),
      read_withReturns (DataFile.values_withReturns Readings.syllabicOverlayFormat_plain _ _),
      read_withReturns (DataFile.values_withReturns Readings.databaseFormat_plain _ _),
      read_withReturns BlockTable.ofText_withReturns]
  · simp only [ScriptMatchers.ofSource, read_withReturns ScriptTable.ofText_withReturns,
      read_withReturns ProhibitedSequence.ofText_withReturns]
  · exact read_withReturns PictographicSet.ofText_withReturns

end Source

end ShapingTables
