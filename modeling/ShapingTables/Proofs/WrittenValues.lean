import ShapingTables.Proofs.MarkedRows
import ShapingTables.Proofs.MergedRecords
import ShapingTables.Proofs.WrittenRows

/-! Attribute files that are written with the names of values. Whatever blanks and remarks stand
around them, the values are read back, row by row, and so are the readings of a source whose
attribute files are all written in this way. -/
namespace ShapingTables

namespace DataFile

/-- Lines whose rows have the names of values in one of their fields. -/
structure Writes (nameOf : α → String) (index : Nat) (lines : List PrintedLine)
    (entries : List (CodepointRange × α)) : Prop where
  proper : ∀ line ∈ lines, line.Proper
  named : (PrintedLine.rows lines).map (fun row => (row.range, row.field? index)) =
    entries.map fun entry => (entry.1, some (nameOf entry.2))

variable {nameOf : α → String} {valueOf? : String → Option α} {index : Nat}
  {lines : List PrintedLine} {entries : List (CodepointRange × α)} {format : Format}

/-- Below no marker the rows are those of the text itself. -/
theorem items_unmarked {text : String} (unmarked : ∀ marker ∈ format.marker,
    ∀ line ∈ Text.lines text.toList, ¬marker.toList <:+: line) :
    items format text = items ⟨format.leastFields, none⟩ text := by
  obtain ⟨least, marker⟩ := format
  cases marker with
  | none => rfl
  | some marker =>
    exact congrArg (itemsFrom (max least 1) 1) (uncommentBelow_unmarked (unmarked marker rfl))

/-- Rows that give values are all that reading values asks for. -/
theorem values_of_items {text : String} {rows : List Row}
    (read : items format text = rows.map .ok) (same : ValuesOf index valueOf? rows entries) :
    values format index valueOf? text = .ok entries := by
  rw [values, read]
  clear read
  induction rows generalizing entries with
  | nil =>
    obtain rfl : entries = [] := List.map_eq_nil_iff.mp same
    rfl
  | cons row rest ih =>
    obtain ⟨entry, later, rfl, first, others⟩ := List.map_eq_cons_iff.mp same
    obtain ⟨range, known⟩ := Prod.mk.inj first
    rw [Row.value?] at known
    rw [List.map_cons, List.mapM_cons, ih others]
    simp only [← known, ← range]
    rfl

namespace Writes

variable (writes : Writes nameOf index lines entries)
include writes

/-- A row reaches as far as the field with the name. -/
theorem wide {row : Row} (member : row ∈ PrintedLine.rows lines) :
    index < row.fields.length + 1 := by
  have pair : (row.range, row.field? index) ∈
      entries.map fun entry => (entry.1, some (nameOf entry.2)) :=
    writes.named ▸ List.mem_map_of_mem member
  obtain ⟨entry, _, same⟩ := List.mem_map.mp pair
  have present := (Prod.mk.inj same).2.symm
  cases index with
  | zero => contradiction
  | succ place =>
    obtain ⟨inside, _⟩ := List.getElem?_eq_some_iff.mp present
    exact Nat.succ_lt_succ inside

theorem valuesOf (reads : ∀ value, valueOf? (nameOf value) = some value) :
    ValuesOf index valueOf? (PrintedLine.rows lines) entries := by
  have read := congrArg
    (List.map fun field => (field.1, valueOf? (field.2.getD ""))) writes.named
  simp only [List.map_map, Function.comp_def, Option.getD_some, reads] at read
  exact read.symm

/-- Values are read back if each is read back from its name. -/
theorem values (reads : ∀ value, valueOf? (nameOf value) = some value)
    (within : format.leastFields ≤ index + 1) (unmarked : ∀ marker ∈ format.marker,
      ∀ line ∈ Text.lines (PrintedLine.fileText lines).toList, ¬marker.toList <:+: line) :
    values format index valueOf? (PrintedLine.fileText lines) = .ok entries := by
  refine values_of_items ?_ (writes.valuesOf reads)
  rw [items_unmarked unmarked]
  refine PrintedLine.items_fileText writes.proper fun row member => ?_
  have wide := writes.wide member
  omega

end Writes

end DataFile

/-- The text of a file writes values, and no line of it has the marker of the format. -/
def Source.Writes (source : Source) (file : SourceFile) (format : DataFile.Format)
    (nameOf : α → String) (index : Nat) (entries : List (CodepointRange × α)) : Prop :=
  ∃ lines, source file = .ok (DataFile.PrintedLine.fileText lines) ∧
    DataFile.Writes nameOf index lines entries ∧ ∀ marker ∈ format.marker,
      ∀ line ∈ Text.lines (DataFile.PrintedLine.fileText lines).toList, ¬marker.toList <:+: line

theorem Source.Writes.read {source : Source} {file : SourceFile} {format : DataFile.Format}
    {nameOf : α → String} {valueOf? : String → Option α} {index : Nat}
    {entries : List (CodepointRange × α)} (writes : source.Writes file format nameOf index entries)
    (reads : ∀ value, valueOf? (nameOf value) = some value)
    (within : format.leastFields ≤ index + 1) :
    source.read file (DataFile.values format index valueOf?) = .ok entries := by
  obtain ⟨lines, given, writes, unmarked⟩ := writes
  simp only [Source.read, given, writes.values reads within unmarked]
  rfl

/-- A spelling of its own takes nothing from the names of the values. -/
theorem reads_ownSpelling {nameOf : α → String} {valueOf? : String → Option α}
    (reads : ∀ value, valueOf? (nameOf value) = some value) {own : String}
    (unknown : valueOf? own = none) (other value : α) :
    (if nameOf value == own then some other else valueOf? (nameOf value)) = some value := by
  split
  · rename_i same
    have read := reads value
    rw [eq_of_beq same, unknown] at read
    contradiction
  · exact reads value

namespace Readings

theorem syllabicOverlayValue?_ucdName (value : SyllabicCategory) :
    syllabicOverlayValue? value.ucdName = some value :=
  reads_ownSpelling SyllabicCategory.ofUcdName?_ucdName (by decide) _ value

theorem positionalOverlayValue?_ucdName (value : PositionalCategory) :
    positionalOverlayValue? value.ucdName = some value :=
  reads_ownSpelling PositionalCategory.ofUcdName?_ucdName (by decide) _ value

/-- A source that writes the values of each property by their names is read back. -/
theorem ofSource_writes {source : Source}
    {syllabic syllabicOverlay : List (CodepointRange × SyllabicCategory)}
    {positional positionalOverlay : List (CodepointRange × PositionalCategory)}
    {general : List (CodepointRange × GeneralCategory)}
    {joining : List (CodepointRange × JoiningType)} {blocks : BlockTable}
    (syllabicFile : source.Writes .syllabicCategory .plain SyllabicCategory.ucdName 1 syllabic)
    (syllabicOverlayFile : source.Writes .syllabicOverlay syllabicOverlayFormat
      SyllabicCategory.ucdName 1 syllabicOverlay)
    (positionalFile : source.Writes .positionalCategory .plain PositionalCategory.ucdName 1
      positional)
    (positionalOverlayFile : source.Writes .positionalOverlay .plain PositionalCategory.ucdName 1
      positionalOverlay)
    (generalFile : source.Writes .unicodeData databaseFormat GeneralCategory.ucdName 2 general)
    (joiningFile : source.Writes .arabicShaping databaseFormat JoiningType.ucdName 2 joining)
    (blocksFile : source.read .blocks BlockTable.ofText = .ok blocks) :
    ofSource source = .ok ⟨syllabic ++ syllabicOverlay ++ syllabicOverrides,
      positional ++ positionalOverlay, general, joining, blocks⟩ := by
  rw [ofSource, syllabicFile.read SyllabicCategory.ofUcdName?_ucdName (by decide),
    syllabicOverlayFile.read syllabicOverlayValue?_ucdName (by decide),
    positionalFile.read PositionalCategory.ofUcdName?_ucdName (by decide),
    positionalOverlayFile.read positionalOverlayValue?_ucdName (by decide),
    generalFile.read GeneralCategory.ofUcdName?_ucdName (by decide),
    joiningFile.read JoiningType.ofUcdName?_ucdName (by decide), blocksFile]
  rfl

end Readings

end ShapingTables
