import ShapingTables.Proofs.FirstFault
import ShapingTables.Proofs.LineFeeds
import ShapingTables.Proofs.WrittenRanges

/-! Written data files. Whatever blanks and remarks the rows of a file are written with, and
whatever lines without a row stand between them, the rows are read back, each with the number
of its line. Every line of every text gives at most one item, and nothing but the line itself
decides what it gives. -/
namespace ShapingTables

namespace Text

/-- Nothing, or a `#` and what follows it. -/
def IsRemark (text : List Char) : Prop := text.head? ∈ [none, some '#']

instance (text : List Char) : Decidable (IsRemark text) :=
  inferInstanceAs (Decidable (text.head? ∈ [none, some '#']))

theorem before_remark {data remark : List Char} (unsigned : '#' ∉ data) (starts : IsRemark remark) :
    before '#' (data ++ remark) = data := by
  have kept : ∀ c ∈ data, (c != '#') = true := by
    intro c member
    exact bne_iff_ne.mpr fun same => unsigned (same ▸ member)
  rw [before, List.takeWhile_append_of_pos kept]
  cases remark with
  | nil => simp
  | cons c rest =>
    have sign : c = '#' := by simpa [IsRemark] using starts
    simp [sign]

end Text

namespace CodepointRange

/-- A character that is neither a blank nor a digit nor a dot stands in no range. -/
theorem Denotes.notMem {text : List Char} {range : CodepointRange} (denotes : Denotes text range)
    {c : Char} (solid : Text.isBlank c = false) (foreign : Text.isHexDigit c = false)
    (other : c ≠ '.') : c ∉ text := by
  have absent {word part : List Char} (padded : Text.Padded word part)
      (numeral : Text.IsNumeral word) : c ∉ part := by
    intro member
    rcases padded.blank_or_digit numeral c member with blank | digit
    · exact absurd blank (Bool.eq_false_iff.mp solid)
    · exact absurd digit (Bool.eq_false_iff.mp foreign)
  cases denotes with
  | single padded numeral => exact absent padded numeral
  | pair split padded numeral otherPadded otherNumeral =>
    rw [split]
    simp [other, absent padded numeral, absent otherPadded otherNumeral]

theorem Denotes.trim_ne_nil {text : List Char} {range : CodepointRange}
    (denotes : Denotes text range) : Text.trim text ≠ [] := by
  intro empty
  have read := ends?_eq_some_iff.mpr (denotes_trim.mpr denotes)
  rw [empty] at read
  contradiction

end CodepointRange

namespace DataFile

open Text (Trimmed IsRemark)
open CodepointRange (Denotes)

/-- A field and the blanks that it is written with. -/
structure PrintedField where
  lead : List Char
  content : List Char
  tail : List Char

namespace PrintedField

def text (field : PrintedField) : List Char := field.lead ++ field.content ++ field.tail

@[mk_iff]
structure Proper (field : PrintedField) : Prop where
  lead : field.lead.all Text.isBlank = true
  tail : field.tail.all Text.isBlank = true
  trimmed : Trimmed field.content
  unsigned : '#' ∉ field.content
  unsplit : ';' ∉ field.content

instance (field : PrintedField) : Decidable field.Proper :=
  decidable_of_iff _ (proper_iff field).symm

theorem Proper.trim_text {field : PrintedField} (proper : field.Proper) :
    Text.trim field.text = field.content :=
  Text.Padded.trim_eq ⟨field.lead, field.tail, rfl, proper.lead, proper.tail⟩ proper.trimmed

theorem Proper.notMem {field : PrintedField} (proper : field.Proper) {c : Char}
    (solid : Text.isBlank c = false) (absent : c ∉ field.content) : c ∉ field.text := by
  rw [text, List.mem_append, List.mem_append, not_or, not_or]
  exact ⟨⟨Text.notMem_of_blank solid proper.lead, absent⟩,
    Text.notMem_of_blank solid proper.tail⟩

end PrintedField

/-- A row as it is written: its range with the blanks around it, and a semicolon in front of
each field. -/
structure PrintedRow where
  range : CodepointRange
  head : List Char
  fields : List PrintedField

namespace PrintedRow

def text (row : PrintedRow) : List Char :=
  row.head ++ row.fields.flatMap fun field => ';' :: field.text

structure Proper (row : PrintedRow) : Prop where
  denotes : Denotes row.head row.range
  ordered : row.range.first ≤ row.range.last
  inside : row.range.last ≤ maxCodepoint
  fields : ∀ field ∈ row.fields, field.Proper

/-- The row that is written, on the line with the number. -/
def row (printed : PrintedRow) (line : Nat) : Row :=
  ⟨line, printed.range, printed.fields.map fun field => String.ofList field.content⟩

variable {row : PrintedRow} (proper : row.Proper)
include proper

theorem Proper.unsigned : '#' ∉ row.text := by
  simp only [text, List.mem_append, List.mem_flatMap, List.mem_cons, not_or, not_exists, not_and]
  refine ⟨proper.denotes.notMem (by decide) (by decide) (by decide), fun field listed =>
    ⟨by decide, ?_⟩⟩
  exact (proper.fields field listed).notMem (by decide) (proper.fields field listed).unsigned

theorem Proper.trim_ne_nil : Text.trim row.text ≠ [] := by
  intro empty
  have blank := Text.trim_eq_nil_iff.mp empty
  rw [text, List.all_append, Bool.and_eq_true] at blank
  exact proper.denotes.trim_ne_nil (Text.trim_eq_nil_iff.mpr blank.1)

theorem Proper.splitWhere_text : Text.splitWhere (· == ';') row.text =
    (row.head, row.fields.map (·.text)) := by
  have plain {part : List Char} (absent : ';' ∉ part) : ∀ c ∈ part, (c == ';') = false :=
    fun c member => beq_eq_false_iff_ne.mpr fun same => absent (same ▸ member)
  rw [text, ← List.flatMap_map (f := PrintedField.text) (g := (';' :: ·))]
  refine Text.splitWhere_fields rfl
    (plain (proper.denotes.notMem (by decide) (by decide) (by decide)))
    (List.forall_mem_map.mpr fun field listed => ?_)
  have fieldProper := proper.fields field listed
  exact plain (fieldProper.notMem (by decide) fieldProper.unsplit)

theorem Proper.fieldsOf? {remark : List Char} (starts : IsRemark remark) :
    fieldsOf? (row.text ++ remark) =
      some (Text.trim row.head, row.fields.map (·.content)) := by
  have solid : ∀ c, Text.isBlank c = true → (c == ';') = false := by
    intro c blank
    refine beq_eq_false_iff_ne.mpr ?_
    rintro rfl
    contradiction
  -- The line is trimmed before it is cut, which takes blanks from its first and its last field.
  have fields := Text.fields_trim solid row.text
  rw [proper.splitWhere_text, List.map_cons, List.map_cons, List.map_map] at fields
  obtain ⟨first, others⟩ := List.cons.inj fields
  have contents : row.fields.map (Text.trim ∘ (·.text)) = row.fields.map (·.content) :=
    List.map_congr_left fun field listed => (proper.fields field listed).trim_text
  rw [DataFile.fieldsOf?, Text.before_remark proper.unsigned starts]
  simp only [List.isEmpty_eq_false_iff.mpr proper.trim_ne_nil, first, others, contents]
  rfl

/-- A row is read where it has enough fields. -/
theorem Proper.item? {remark : List Char} (starts : IsRemark remark) {least : Nat}
    (enough : least ≤ row.fields.length + 1) (line : Nat) :
    item? least line (row.text ++ remark) = some (.ok (row.row line)) := by
  have read : CodepointRange.read? (Text.trim row.head) = some row.range :=
    CodepointRange.read?_eq_some_iff.mpr
      ⟨CodepointRange.denotes_trim.mpr proper.denotes, proper.ordered, proper.inside⟩
  rw [item?_eq, proper.fieldsOf? starts, Option.map_some, rowOf, List.length_map,
    if_neg (Nat.not_lt.mpr enough), read, PrintedRow.row, List.map_map]
  rfl

end PrintedRow

/-- A line with a row, or with nothing but blanks, and a remark behind it. -/
inductive PrintedLine where
  | row (written : PrintedRow) (remark : List Char)
  | skipped (blanks remark : List Char)

namespace PrintedLine

def text : PrintedLine → List Char
  | .row written remark => written.text ++ remark
  | .skipped blanks remark => blanks ++ remark

inductive Proper : PrintedLine → Prop
  | row : written.Proper → IsRemark remark → '\n' ∉ text (.row written remark) →
      Proper (.row written remark)
  | skipped : blanks.all Text.isBlank = true → IsRemark remark →
      '\n' ∉ text (.skipped blanks remark) → Proper (.skipped blanks remark)

/-- The row of a line with the number. -/
def row? (line : Nat) : PrintedLine → Option Row
  | .row written _ => some (written.row line)
  | .skipped _ _ => none

/-- The text of a file. It ends in a line feed if its last line is empty. -/
def fileText (lines : List PrintedLine) : String :=
  String.ofList (['\n'].intercalate (lines.map text))

/-- The rows of a file, each with the number of its line. -/
def rows (lines : List PrintedLine) : List Row :=
  (lines.zipIdx 1).filterMap fun (line, number) => line.row? number

theorem Proper.single {line : PrintedLine} (proper : line.Proper) : '\n' ∉ line.text := by
  cases proper with
  | row _ _ single => exact single
  | skipped _ _ single => exact single

theorem Proper.item? {line : PrintedLine} (proper : line.Proper) {least number : Nat}
    (enough : ∀ row ∈ line.row? number, least ≤ row.fields.length + 1) :
    item? least number line.text = (line.row? number).map .ok := by
  cases proper with
  | row proper starts =>
    have fields := enough _ rfl
    rw [PrintedRow.row, List.length_map] at fields
    exact proper.item? starts fields number
  | @skipped blanks remark blank starts =>
    have unsigned := Text.notMem_of_blank (by decide : Text.isBlank '#' = false) blank
    rw [item?_eq, text, fieldsOf?, Text.before_remark unsigned starts,
      Text.trim_eq_nil_iff.mpr blank]
    rfl

theorem items_fileText {lines : List PrintedLine} (proper : ∀ line ∈ lines, line.Proper)
    {least : Nat} (enough : ∀ row ∈ rows lines, least ≤ row.fields.length + 1) :
    items ⟨least, none⟩ (fileText lines) = (rows lines).map .ok := by
  have single : ∀ own ∈ lines.map text, '\n' ∉ own :=
    List.forall_mem_map.mpr fun line member => (proper line member).single
  rw [items_pieces, fileText, String.toList_ofList]
  by_cases empty : lines = []
  · rw [empty]
    rfl
  · rw [List.splitOn_intercalate '\n' single (by simpa using empty), itemsFrom_eq_filterMap,
      List.zipIdx_map, List.filterMap_map, rows, List.map_filterMap]
    apply List.filterMap_congr
    rintro ⟨line, number⟩ member
    have listed : line ∈ lines := by
      rw [← List.zipIdx_map_fst 1 lines]
      exact List.mem_map_of_mem member
    refine (proper line listed).item? fun row own => max_le ?_ (Nat.le_add_left 1 _)
    exact enough row (List.mem_filterMap.mpr ⟨_, member, own⟩)

end PrintedLine

/-- An item apart from the number of its line. -/
abbrev Content := Except LineFault (CodepointRange × List String)

def Content.ofItem : Item → Content
  | .error (_, fault) => .error fault
  | .ok row => .ok (row.range, row.fields)

def Content.numbered (line : Nat) : Content → Item
  | .error fault => .error (line, fault)
  | .ok (range, fields) => .ok ⟨line, range, fields⟩

/-- What a line gives, whatever its number. -/
def content? (least : Nat) (text : List Char) : Option Content :=
  (item? least 0 text).map Content.ofItem

theorem item?_numbered (least line : Nat) (text : List Char) :
    item? least line text = (content? least text).map (Content.numbered line) := by
  rw [content?, item?_eq, item?_eq]
  cases fieldsOf? text with
  | none => rfl
  | some found =>
    simp only [Option.map_some, rowOf]
    split
    · rfl
    · split <;> rfl

/-- A written file is read back: exactly its rows, each with the number of its line. Printed
ranges are among those that can be written, and in every text each line gives at most one item,
on which the other lines have no bearing. -/
theorem items_readBack (least : Nat) :
    (∀ lines : List PrintedLine, (∀ line ∈ lines, line.Proper) →
      (∀ row ∈ PrintedLine.rows lines, least ≤ row.fields.length + 1) →
      items ⟨least, none⟩ (PrintedLine.fileText lines) = (PrintedLine.rows lines).map .ok) ∧
    (∀ range : CodepointRange, range.first ≤ range.last → range.last ≤ maxCodepoint →
      Denotes (Text.hex4 range.first ++ ".." ++ Text.hex4 range.last).toList range ∧
      (range.first = range.last → Denotes (Text.hex4 range.first).toList range)) ∧
    ∀ text : String, items ⟨least, none⟩ text =
      ((text.toList.splitOn '\n').zipIdx 1).filterMap fun (line, number) =>
        (content? (max least 1) line).map (Content.numbered number) := by
  refine ⟨fun _ proper enough => PrintedLine.items_fileText proper enough,
    fun _ => CodepointRange.denotes_hex4, fun text => ?_⟩
  rw [items_pieces, itemsFrom_eq_filterMap]
  simp only [item?_numbered]

/-- A remark, a row with a remark behind it, blanks, a row with an empty field, and an empty
line at the end. -/
def scatteredRows : List PrintedLine := [
  .skipped [] "# BLOCKS".toList,
  .row ⟨⟨0x900, 0x97F⟩, "0900..097f".toList, [⟨[' '], "Devanagari".toList, ['\t']⟩]⟩
    "# 0980".toList,
  .skipped [' ', '\r'] [],
  .row ⟨⟨0x41, 0x41⟩, " 0041 ".toList, [⟨[], [], [' ']⟩, ⟨[' '], "Lu".toList, ['\r']⟩]⟩ [],
  .skipped [] []]

theorem items_readBack_scatteredRows :
    (∀ line ∈ scatteredRows, line.Proper) ∧
      items ⟨2, none⟩ (PrintedLine.fileText scatteredRows) =
        [.ok ⟨2, ⟨0x900, 0x97F⟩, ["Devanagari"]⟩, .ok ⟨4, ⟨0x41, 0x41⟩, ["", "Lu"]⟩] ∧
      Denotes (Text.hex4 0x900 ++ ".." ++ Text.hex4 0x97F).toList ⟨0x900, 0x97F⟩ := by
  have block : Denotes "0900..097f".toList ⟨0x900, 0x97F⟩ :=
    .pair (by decide) (.refl "0900".toList) (by decide) (.refl "097f".toList) (by decide)
  have single : Text.Padded "0041".toList " 0041 ".toList := ⟨[' '], [' '], by decide⟩
  have letter : Denotes " 0041 ".toList ⟨0x41, 0x41⟩ :=
    .single single (by decide)
  have proper : ∀ line ∈ scatteredRows, line.Proper := by
    simp only [scatteredRows, List.forall_mem_cons, List.not_mem_nil, false_implies, implies_true,
      and_true]
    exact ⟨.skipped (by decide) (by decide) (by decide),
      .row ⟨block, by decide, by decide, by decide⟩ (by decide) (by decide),
      .skipped (by decide) (by decide) (by decide),
      .row ⟨letter, by decide, by decide, by decide⟩ (by decide) (by decide),
      .skipped (by decide) (by decide) (by decide)⟩
  exact ⟨proper, (items_readBack 2).1 scatteredRows proper (by decide),
    ((items_readBack 2).2.1 ⟨0x900, 0x97F⟩ (by decide) (by decide)).1⟩

end DataFile

end ShapingTables
