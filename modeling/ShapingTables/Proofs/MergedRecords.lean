import ShapingTables.Proofs.DataLines
import ShapingTables.Record

/-! Which codepoints get a record, and what is in it. The data lines of four files and
the overrides introduce codepoints, the block decides whether they stay, and every
attribute comes from the last line that covers the codepoint. -/
namespace ShapingTables

open DataFile (Row lastValue?)
open CodepointMap (lastAt? lastAt?_append)

/-- The data lines of the files that give attributes. -/
structure AttributeRows where
  syllabic : List Row
  syllabicOverlay : List Row
  positional : List Row
  positionalOverlay : List Row
  general : List Row
  joining : List Row

/-- The rows of a file, each with a value that is known. -/
def Source.Lists (source : Source) (file : SourceFile) (format : DataFile.Format) (index : Nat)
    (valueOf? : String → Option α) (rows : List Row) : Prop :=
  ∃ text, source file = .ok text ∧ DataFile.rows format text = .ok rows ∧
    ∀ row ∈ rows, (row.value? index valueOf?).isSome = true

def BlockTable.ReadFrom (blocks : BlockTable) (source : Source) : Prop :=
  ∃ text, source .blocks = .ok text ∧ ofText text = .ok blocks

/-- The block of the codepoint is that of one of the names. -/
def BlockTable.Excludes (blocks : BlockTable) (names : List String) (u : Nat) : Prop :=
  ∃ name ∈ names, blocks.find? name = some (blocks.blockOf u)

namespace AttributeRows

variable (rows : AttributeRows)

structure ReadFrom (source : Source) : Prop where
  syllabic : source.Lists .syllabicCategory .plain 1 SyllabicCategory.ofUcdName? rows.syllabic
  syllabicOverlay : source.Lists .syllabicOverlay Readings.syllabicOverlayFormat 1
    Readings.syllabicOverlayValue? rows.syllabicOverlay
  positional : source.Lists .positionalCategory .plain 1 PositionalCategory.ofUcdName?
    rows.positional
  positionalOverlay : source.Lists .positionalOverlay .plain 1 Readings.positionalOverlayValue?
    rows.positionalOverlay
  general : source.Lists .unicodeData Readings.databaseFormat 2 GeneralCategory.ofUcdName?
    rows.general
  joining : source.Lists .arabicShaping Readings.databaseFormat 2 JoiningType.ofUcdName?
    rows.joining

/-- The other files introduce no codepoint. -/
def Introduces (u : Nat) : Prop :=
  (∃ entry ∈ Readings.syllabicOverrides, entry.1.contains u = true) ∨
    ∃ row ∈ rows.syllabic ++ rows.syllabicOverlay ++ rows.positional ++ rows.positionalOverlay,
      row.range.contains u = true

/-- Overrides come before overlays, overlays before the files that they lie over, and what
nothing is said of has the value of codepoints that are not listed. -/
def attributesOf (u : Nat) : Attributes where
  codepoint := u
  syllabic := (((lastAt? Readings.syllabicOverrides u).or
    (lastValue? 1 Readings.syllabicOverlayValue? rows.syllabicOverlay u)).or
    (lastValue? 1 SyllabicCategory.ofUcdName? rows.syllabic u)).getD .other
  positional := ((lastValue? 1 Readings.positionalOverlayValue? rows.positionalOverlay u).or
    (lastValue? 1 PositionalCategory.ofUcdName? rows.positional u)).getD .notApplicable
  general := (lastValue? 2 GeneralCategory.ofUcdName? rows.general u).getD .unassigned
  joining := (lastValue? 2 JoiningType.ofUcdName? rows.joining u).getD .unlisted

/-- The readings of the files say what their rows say. -/
structure Gives (readings : Readings) : Prop where
  introduced : ∀ u, (∃ entry ∈ readings.syllabic, entry.1.contains u = true) ∨
    (∃ entry ∈ readings.positional, entry.1.contains u = true) ↔ rows.Introduces u
  syllabic : ∀ u, (lastAt? readings.syllabic u).getD default = (rows.attributesOf u).syllabic
  positional : ∀ u, (lastAt? readings.positional u).getD default =
    (rows.attributesOf u).positional
  general : ∀ u, (lastAt? readings.general u).getD default = (rows.attributesOf u).general
  joining : ∀ u, (lastAt? readings.joining u).getD default = (rows.attributesOf u).joining

end AttributeRows

/-- A file that is read for its values has rows that give them. -/
theorem Source.exists_rows {source : Source} {file : SourceFile} {format : DataFile.Format}
    {index : Nat} {valueOf? : String → Option α} {entries : List (CodepointRange × α)}
    (read : source.read file (DataFile.values format index valueOf?) = .ok entries) :
    ∃ rows, source.Lists file format index valueOf? rows ∧
      DataFile.ValuesOf index valueOf? rows entries := by
  obtain ⟨text, given, parsed⟩ := read_eq_ok read
  obtain ⟨rows, listed, same⟩ := DataFile.values_eq_ok parsed
  exact ⟨rows, ⟨text, given, listed, fun row => same.known⟩, same⟩

/-- What is read of a source is what the rows of its files say. -/
theorem Readings.ofSource_gives {source : Source} {readings : Readings}
    (read : ofSource source = .ok readings) :
    ∃ rows : AttributeRows, rows.ReadFrom source ∧ rows.Gives readings ∧
      readings.blocks.ReadFrom source := by
  rw [ofSource] at read
  obtain ⟨syllabic, readSyllabic, read⟩ := bind_eq_ok read
  obtain ⟨syllabicOverlay, readSyllabicOverlay, read⟩ := bind_eq_ok read
  obtain ⟨positional, readPositional, read⟩ := bind_eq_ok read
  obtain ⟨positionalOverlay, readPositionalOverlay, read⟩ := bind_eq_ok read
  obtain ⟨general, readGeneral, read⟩ := bind_eq_ok read
  obtain ⟨joining, readJoining, read⟩ := bind_eq_ok read
  obtain ⟨blocks, readBlocks, read⟩ := bind_eq_ok read
  cases read
  obtain ⟨syllabicRows, syllabicLines, syllabicSame⟩ := Source.exists_rows readSyllabic
  obtain ⟨syllabicOverlayRows, syllabicOverlayLines, syllabicOverlaySame⟩ :=
    Source.exists_rows readSyllabicOverlay
  obtain ⟨positionalRows, positionalLines, positionalSame⟩ := Source.exists_rows readPositional
  obtain ⟨positionalOverlayRows, positionalOverlayLines, positionalOverlaySame⟩ :=
    Source.exists_rows readPositionalOverlay
  obtain ⟨generalRows, generalLines, generalSame⟩ := Source.exists_rows readGeneral
  obtain ⟨joiningRows, joiningLines, joiningSame⟩ := Source.exists_rows readJoining
  refine ⟨⟨syllabicRows, syllabicOverlayRows, positionalRows, positionalOverlayRows, generalRows,
    joiningRows⟩, ⟨syllabicLines, syllabicOverlayLines, positionalLines, positionalOverlayLines,
    generalLines, joiningLines⟩, ?_, Source.read_eq_ok readBlocks⟩
  constructor
  · intro u
    simp only [List.mem_append, or_and_right, exists_or, syllabicSame.covers_iff,
      syllabicOverlaySame.covers_iff, positionalSame.covers_iff, positionalOverlaySame.covers_iff,
      AttributeRows.Introduces]
    simp only [or_assoc, or_comm, or_left_comm]
  · intro u
    rw [lastAt?_append, lastAt?_append, syllabicSame.lastAt?_eq,
      syllabicOverlaySame.lastAt?_eq, ← Option.or_assoc]
    rfl
  · intro u
    rw [lastAt?_append, positionalSame.lastAt?_eq,
      positionalOverlaySame.lastAt?_eq]
    rfl
  · intro u
    rw [generalSame.lastAt?_eq]
    rfl
  · intro u
    rw [joiningSame.lastAt?_eq]
    rfl

theorem Readings.mem_blacklisted {readings : Readings} {names : List String} {blocks : List Block}
    (found : readings.blacklisted names = .ok blocks) (block : Block) :
    block ∈ blocks ↔ ∃ name ∈ names, readings.blocks.find? name = some block := by
  rw [blacklisted] at found
  induction names generalizing blocks with
  | nil =>
    cases found
    simp
  | cons name rest ih =>
    obtain ⟨first, others, here, later, rfl⟩ := mapM_cons_eq_ok found
    cases known : readings.blocks.find? name with
    | none =>
      rw [known] at here
      contradiction
    | some handle =>
      rw [known] at here
      cases here
      simp [ih later, known, @eq_comm _ block]

theorem Readings.isSome_introduced (readings : Readings) (u : Nat) :
    (readings.introduced[u]?).isSome = true ↔
      (∃ entry ∈ readings.syllabic, entry.1.contains u = true) ∨
        ∃ entry ∈ readings.positional, entry.1.contains u = true := by
  rw [introduced, CodepointMap.getElem?_ofEntries, CodepointMap.lastAt?_isSome]
  simp [or_and_right, exists_or]

/-- A codepoint that is introduced and not in an excluded block has the merged record. -/
theorem Readings.getElem?_records {readings : Readings} {rows : AttributeRows}
    (given : rows.Gives readings) {names : List String} {blocks : List Block}
    (found : readings.blacklisted names = .ok blocks) (u : Nat) (record : Record) :
    (readings.records blocks)[u]? = some record ↔
      (rows.Introduces u ∧ ¬readings.blocks.Excludes names u) ∧
        record = ⟨rows.attributesOf u, readings.blocks.blockOf u⟩ := by
  have excluded : blocks.contains (readings.blocks.blockOf u) = true ↔
      readings.blocks.Excludes names u := by
    rw [List.contains_iff_mem, mem_blacklisted found]
    rfl
  rw [records, Std.TreeMap.getElem?_filterMap', ← given.introduced, ← isSome_introduced, ← excluded]
  cases readings.introduced[u]? with
  | none => simp
  | some value =>
    have merged : (⟨⟨u, (rows.attributesOf u).syllabic, (rows.attributesOf u).positional,
        (rows.attributesOf u).general, (rows.attributesOf u).joining⟩,
        readings.blocks.blockOf u⟩ : Record) =
          ⟨rows.attributesOf u, readings.blocks.blockOf u⟩ := rfl
    simp only [Option.bind_some, Std.TreeMap.getD_eq_getD_getElem?, CodepointMap.getElem?_ofEntries,
      given.syllabic, given.positional, given.general, given.joining, merged]
    cases blocks.contains (readings.blocks.blockOf u) <;> simp [@eq_comm _ record]

theorem Readings.syllabicOverrides_disjoint : syllabicOverrides.Pairwise fun one other =>
    one.1.last < other.1.first ∨ other.1.last < one.1.first := by
  decide

/-- The records of a source in terms of the data lines of its files. -/
structure RecordSet.Merged (set : RecordSet) (source : Source) (blacklist : List String)
    (rows : AttributeRows) : Prop where
  lines : rows.ReadFrom source
  /-- The overlay is read with the rows that are commented out below its marker. -/
  overlay : ∀ text, source .syllabicOverlay = .ok text → ∀ row, row ∈ rows.syllabicOverlay ↔
    ∃ place line, (Text.lines text.toList)[place]? = some line ∧
      DataFile.item? 2 (1 + place) (DataFile.lineBelow "USE_Syllabic_Category".toList
        ((Text.lines text.toList).take place) line) = some (.ok row)
  blocks : set.blocks.ReadFrom source
  mem : ∀ u, u ∈ set.records ↔ rows.Introduces u ∧ ¬set.blocks.Excludes blacklist u
  record : ∀ u record, set.records[u]? = some record →
    record.toAttributes = rows.attributesOf u ∧ record.block = set.blocks.blockOf u
  overridden : ∀ u, ∀ entry ∈ Readings.syllabicOverrides, entry.1.contains u = true →
    (rows.attributesOf u).syllabic = entry.2
  finalModifier : ∀ u row, (DataFile.covering u rows.syllabicOverlay).getLast? = some row →
    row.field? 1 = some "Consonant_Final_Modifier" →
    (∀ entry ∈ Readings.syllabicOverrides, entry.1.contains u = false) →
    (rows.attributesOf u).syllabic = .syllableModifier
  notApplicable : ∀ u row, (DataFile.covering u rows.positionalOverlay).getLast? = some row →
    row.field? 1 = some "NA" → (rows.attributesOf u).positional = .notApplicable

namespace AttributeRows

variable (rows : AttributeRows)

theorem syllabic_overridden {u : Nat} {entry : CodepointRange × SyllabicCategory}
    (member : entry ∈ Readings.syllabicOverrides) (held : entry.1.contains u = true) :
    (rows.attributesOf u).syllabic = entry.2 := by
  have found := CodepointMap.lastAt?_of_disjoint Readings.syllabicOverrides_disjoint member held
  simp [attributesOf, found]

theorem syllabic_finalModifier {u : Nat} {row : Row}
    (last : (DataFile.covering u rows.syllabicOverlay).getLast? = some row)
    (written : row.field? 1 = some "Consonant_Final_Modifier")
    (free : ∀ entry ∈ Readings.syllabicOverrides, entry.1.contains u = false) :
    (rows.attributesOf u).syllabic = .syllableModifier := by
  have unforced : lastAt? Readings.syllabicOverrides u = none := by
    rw [← Option.not_isSome_iff_eq_none, CodepointMap.lastAt?_isSome]
    rintro ⟨entry, member, held⟩
    simp [free entry member] at held
  simp [attributesOf, unforced, lastValue?, last, Row.value?, written,
    Readings.syllabicOverlayValue?]

theorem positional_notApplicable {u : Nat} {row : Row}
    (last : (DataFile.covering u rows.positionalOverlay).getLast? = some row)
    (written : row.field? 1 = some "NA") :
    (rows.attributesOf u).positional = .notApplicable := by
  simp [attributesOf, lastValue?, last, Row.value?, written, Readings.positionalOverlayValue?]

end AttributeRows

/-- Which rows, blocks and excluded handles a record set is built from. -/
theorem RecordSet.ofSource_eq_ok {source : Source} {blacklist : List String} {set : RecordSet}
    (read : ofSource source blacklist = .ok set) :
    ∃ readings blocks, Readings.ofSource source = .ok readings ∧
      readings.blacklisted blacklist = .ok blocks ∧
      set = ⟨readings.records blocks, readings.blocks⟩ := by
  rw [ofSource] at read
  obtain ⟨readings, readReadings, read⟩ := bind_eq_ok read
  obtain ⟨blocks, found, read⟩ := bind_eq_ok read
  cases read
  exact ⟨readings, blocks, readReadings, found, rfl⟩

/-- Whenever the records of a source can be built they are the merged ones: a codepoint has a
record exactly if lines of the four introducing files or the overrides cover it and its
block stays, and the record holds what the last covering lines say. -/
theorem RecordSet.ofSource_merged (source : Source) (blacklist : List String) (set : RecordSet)
    (read : ofSource source blacklist = .ok set) :
    ∃ rows, set.Merged source blacklist rows := by
  obtain ⟨readings, blocks, readReadings, found, rfl⟩ := ofSource_eq_ok read
  obtain ⟨rows, lines, given, blocksRead⟩ := Readings.ofSource_gives readReadings
  refine ⟨rows, lines, ?_, blocksRead, ?_, ?_, fun u entry => rows.syllabic_overridden,
    fun u row => rows.syllabic_finalModifier, fun u row => rows.positional_notApplicable⟩
  · intro text readText row
    obtain ⟨_, sameText, listed, _⟩ := lines.syllabicOverlay
    cases readText.symm.trans sameText
    exact DataFile.mem_rows_marked listed row
  · intro u
    rw [Std.TreeMap.mem_iff_isSome_getElem?, Option.isSome_iff_exists]
    simp only [Readings.getElem?_records given found, exists_and_left, exists_eq, and_true]
  · intro u record stored
    obtain ⟨_, rfl⟩ := (Readings.getElem?_records given found u record).mp stored
    exact ⟨rfl, rfl⟩

/-- One overlay line below the marker is commented out, and one block is excluded. -/
def Source.fewLines : Source := .ofTexts fun
  | .syllabicCategory => some "0915..0917 ; Consonant\n0E01 ; Consonant\n"
  | .syllabicOverlay => some
    "# USE_Syllabic_Category\n0917 ; Consonant_Final_Modifier\n# 0918 ; Consonant\n"
  | .positionalCategory => some "0940 ; Right\n"
  | .positionalOverlay => some "0940 ; NA\n"
  | .unicodeData => some "0915..0917;LETTERS;Lo\n0041;LETTER A;Lu\n"
  | .arabicShaping => some "0640; TATWEEL; C\n"
  | .blocks => some "0900..097F; Devanagari\n0E00..0E7F; Thai\n"
  | _ => none

theorem RecordSet.ofSource_fewLines : ∃ set rows, ofSource .fewLines ["Thai"] = .ok set ∧
    set.Merged .fewLines ["Thai"] rows ∧ rows.Introduces 0x0918 ∧ ¬rows.Introduces 0x0041 ∧
    set.blocks.Excludes ["Thai"] 0x0E01 := by
  obtain ⟨set, read, recorded⟩ : ∃ set, ofSource .fewLines ["Thai"] = .ok set ∧
      decide (0x0918 ∈ set.records ∧ 0x0041 ∉ set.records ∧
        set.blocks.find? "Thai" = some (set.blocks.blockOf 0x0E01) ∧
        set.blocks.blockOf 0x0041 = .unnamed ∧ set.blocks.find? "Thai" = some ⟨2⟩) = true :=
    exists_of_any (by decide +kernel)
  obtain ⟨present, absent, thai, outside, handle⟩ := of_decide_eq_true recorded
  obtain ⟨rows, merged⟩ := ofSource_merged _ _ set read
  refine ⟨set, rows, read, merged, ((merged.mem _).mp present).1, ?_, "Thai", by simp, thai⟩
  intro introduced
  refine absent ((merged.mem _).mpr ⟨introduced, ?_⟩)
  rintro ⟨name, listed, found⟩
  obtain rfl : name = "Thai" := by simpa using listed
  rw [handle, outside] at found
  contradiction

end ShapingTables
