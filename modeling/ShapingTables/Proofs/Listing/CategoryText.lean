import ShapingTables.Proofs.Generated.Reader
import ShapingTables.Proofs.Listing.CategoryProgram

/-! The text of a category listing is read as its program: the rows give the table,
one line each the offsets, and every page of the function its tests. -/
namespace ShapingTables.CategoryListing

open Generated
open Text (Outline)

theorem ofLetters_offsetName (first : Nat) :
    Token.ofLetters (offsetName first).toList = .name (offsetName first) := by
  have written : (offsetName first).toList =
      "USE_OFFSET_0X".toList ++ (Text.hex4 first).toList := by
    rw [offsetName, String.toList_append]
  have named : Token.ofLetters (offsetName first).toList =
      .name (String.ofList (offsetName first).toList) := by
    rw [written]
    rfl
  rw [named, String.ofList_toList]

theorem scan_offsetName (first : Nat) :
    scan .between (offsetName first).toList = ([], .word (offsetName first).toList) := by
  apply scan_word
  · intro empty
    have member := underscore_offsetName first
    rw [empty] at member
    exact absurd member (by simp)
  · intro c member
    rw [offsetName, String.toList_append] at member
    have literal : "USE_OFFSET_0X".toList.all isLetter = true := rfl
    rcases List.mem_append.mp member with front | digit
    · exact List.all_eq_true.mp literal c front
    · exact isLetter_hex c digit

theorem category_letters (category : Category) : category.name.toList.isEmpty = false ∧
    category.name.toList.all isLetter = true ∧
    Token.ofLetters category.name.toList = .name category.name := by
  obtain ⟨role, position⟩ := category
  cases role <;> cases position with
  | none => exact ⟨rfl, rfl, rfl⟩
  | some position => cases position <;> exact ⟨rfl, rfl, rfl⟩

theorem scan_cell (category : Category) :
    scan .between (cell category).toList = ([.name category.name], .symbol [',']) := by
  obtain ⟨nonempty, letters, named⟩ := category_letters category
  have word := scan_word (List.isEmpty_eq_false_iff.mp nonempty) (List.all_eq_true.mp letters)
  have comma : scan (.word category.name.toList) [','] = ([.name category.name], .symbol [',']) := by
    rw [← named]
    rfl
  rw [cell, String.toList_append, String.toList_ofList, List.leftpad, List.append_assoc]
  exact scan_append (scan_blanks _) (scan_append word comma)

/-- A comma is a token of its own, whatever follows it. -/
theorem scan_behindComma {text : List Char} {found : List Token} {last : Mode}
    (nonempty : text ≠ []) (scanned : scan .between text = (found, last)) :
    scan (.symbol [',']) text = (.symbol .comma :: found, last) := by
  cases text with
  | nil => exact absurd rfl nonempty
  | cons c rest =>
    obtain ⟨rfl, rfl⟩ := Prod.mk.inj scanned
    have comma : Mode.step c (.symbol [',']) = ([.symbol .comma], .begin c) := rfl
    exact scan_cons comma rfl

def cellTokens (categories : List Category) : List Token :=
  categories.flatMap fun category => [.name category.name, .symbol .comma]

theorem scan_cells (categories : List Category) :
    scan .between (categories.flatMap (fun category => (cell category).toList) ++ ['\n']) =
      (cellTokens categories, .between) := by
  induction categories with
  | nil => decide
  | cons category rest ih =>
    have whole : cellTokens (category :: rest) =
        [.name category.name] ++ (.symbol .comma :: cellTokens rest) := rfl
    rw [List.flatMap_cons, List.append_assoc, whole]
    exact scan_append (scan_cell category) (scan_behindComma (by simp) ih)

/-- A comment of its own is passed over with the blanks around it. -/
theorem scan_comment {text : List Char} (opens : Text.occursIn ['/', '*'] text = false)
    (closes : Text.occursIn ['*', '/'] text = false) :
    scan .between ("  /* ".toList ++ (text ++ " */".toList)) = ([], .between) := by
  have opensBehind : Text.occursIn ['/', '*'] (' ' :: text) = false := by
    rw [Text.occursIn, opens]
    rfl
  have closesBehind : Text.occursIn ['*', '/'] (' ' :: text) = false := by
    rw [Text.occursIn, closes]
    rfl
  obtain ⟨last, inside⟩ := scan_blockComment 0 ' ' text opensBehind closesBehind
  have opening : scan .between "  /* ".toList = ([], .blockComment 0 ' ') := by decide
  have closing : scan (.blockComment 0 last) " */".toList = ([], .between) := by
    have blank : Mode.step ' ' (.blockComment 0 last) = ([], .blockComment 0 ' ') := by
      rw [Mode.step, if_neg (by simp), if_neg (by simp)]
    exact scan_cons blank (by decide)
  exact scan_append opening (scan_append inside closing)

theorem occursIn_absent {part text : List Char} {c : Char} (used : c ∈ part) (absent : c ∉ text) :
    Text.occursIn part text = false := by
  induction text with
  | nil =>
    cases part with
    | nil => simp at used
    | cons first rest => rfl
  | cons head rest ih =>
    rw [Text.occursIn, Bool.or_eq_false_iff]
    refine ⟨?_, ih fun member => absent (List.mem_cons_of_mem head member)⟩
    apply Bool.eq_false_iff.mpr
    intro front
    exact absent ((List.isPrefixOf_iff_prefix.mp front).mem used)

theorem scan_hexComment (n : Nat) :
    scan .between ("  /* ".toList ++ ((Text.hex4 n).toList ++ " */".toList)) = ([], .between) := by
  have absent : '*' ∉ (Text.hex4 n).toList := fun member => absurd (isLetter_hex '*' member) (by decide)
  exact scan_comment (occursIn_absent (by decide) absent) (occursIn_absent (by decide) absent)

/-- Inside the table, behind so many entries. -/
def tableReader (categories : List Category) : Reader where
  focus := .operand
  frames := [.list (categories.map fun category => .name category.name), .borrow,
    .constant tableName]
  program := ⟨[], []⟩

theorem foldlM_cells (done categories : List Category) :
    (cellTokens categories).foldlM Reader.step (tableReader done) =
      some (tableReader (done ++ categories)) := by
  induction categories generalizing done with
  | nil => simp [cellTokens]
  | cons category rest ih =>
    have whole : cellTokens (category :: rest) =
        [.name category.name, .symbol .comma] ++ cellTokens rest := rfl
    have one : [Token.name category.name, .symbol .comma].foldlM Reader.step (tableReader done) =
        some (tableReader (done ++ [category])) := by
      simp only [tableReader, List.map_append]
      rfl
    rw [whole, List.foldlM_append, one]
    have later := ih (done ++ [category])
    rwa [List.append_assoc, List.singleton_append] at later

/-- The block names of the rows are free of the marks of comments. -/
def PlainLabels (rows : List (List String × TableRow)) : Prop :=
  ∀ row ∈ rows, ∀ label ∈ row.1,
    Text.occursIn ['/', '*'] label.toList = false ∧ Text.occursIn ['*', '/'] label.toList = false

theorem reads_label (label : String) (reader : Reader)
    (opens : Text.occursIn ['/', '*'] label.toList = false)
    (closes : Text.occursIn ['*', '/'] label.toList = false) :
    Reads (Outline.linesOfAll 0 [.line "", .line ("  /* " ++ label ++ " */")]) reader reader := by
  refine .cons 0 (.line 0 [] rfl rfl) (.cons 0 (.line 0 [] ?_ rfl) (.nil reader))
  rw [String.toList_append, String.toList_append, List.append_assoc "  /* ".toList]
  exact scan_append (scan_comment opens closes) (by decide)

theorem reads_row (row : List String × TableRow)
    (plain : ∀ label ∈ row.1, Text.occursIn ['/', '*'] label.toList = false ∧
      Text.occursIn ['*', '/'] label.toList = false) (done : List Category) :
    Reads (Outline.linesOfAll 0 (rowLines row)) (tableReader done)
      (tableReader (done ++ row.2.categories)) := by
  rw [rowLines]
  refine .appendAll 0 (.flatMap 0 _ (fun _ => tableReader done) row.1 ?_ [])
    (.cons 0 (.line 0 (cellTokens row.2.categories) ?_ (foldlM_cells done _)) (.nil _))
  · intro label member _
    exact reads_label label _ (plain label member).1 (plain label member).2
  · rw [String.toList_append, String.toList_append, String.toList_append, String.toList_join,
      List.flatMap_map, List.append_assoc "  /* ".toList, List.append_assoc]
    exact scan_append (scan_hexComment row.2.range.first) (scan_cells row.2.categories)

theorem reads_rows {rows : List (List String × TableRow)} (plain : PlainLabels rows) :
    Reads (Outline.linesOfAll 0 (rows.flatMap rowLines)) (tableReader [])
      (tableReader (rows.flatMap (·.2.categories))) := by
  refine .flatMap 0 rowLines (fun done => tableReader (done.flatMap (·.2.categories))) rows
    (fun row member done => ?_) []
  rw [List.flatMap_append, List.flatMap_singleton]
  exact reads_row row (plain row member) _

def offsetLine (offset : Nat × Nat) : Outline :=
  .line ("const " ++ offsetName offset.1 ++ ": usize = " ++ toString offset.2 ++ ";")

/-- Between the items of the file, behind some constants. -/
def itemReader (constants : List (String × Expression)) : Reader := ⟨.item, [], ⟨constants, []⟩⟩

theorem reads_offset (depth : Nat) (constants : List (String × Expression)) (offset : Nat × Nat) :
    Reads ((offsetLine offset).lines depth) (itemReader constants)
      (itemReader (constants ++ [offsetConstant offset])) := by
  refine .line depth [.keyword .constant, .name (offsetName offset.1), .symbol .colon,
    .name "usize", .symbol .equals, .number offset.2, .symbol .semicolon] ?_ rfl
  have head : scan .between "const ".toList = ([.keyword .constant], .between) := rfl
  have middle : scan (.word (offsetName offset.1).toList) ": usize = ".toList =
      ([.name (offsetName offset.1), .symbol .colon, .name "usize", .symbol .equals], .between) := by
    rw [← ofLetters_offsetName]
    rfl
  have value := scan_word (Text.toString_ne_nil offset.2) isLetter_toString
  have tail : scan (.word (toString offset.2).toList) (";".toList ++ ['\n']) =
      ([.number offset.2, .symbol .semicolon], .between) := by
    rw [← ofLetters_toString]
    rfl
  simp only [String.toList_append, List.append_assoc]
  exact scan_append head (scan_append (scan_offsetName _) (scan_append middle
    (scan_append value tail)))

def regionTokens (range : CodepointRange) : List Token := [
  .keyword .when, .symbol .openRound, .number range.first, .symbol .through, .number range.last,
  .symbol .closeRound, .symbol .dot, .name "contains", .symbol .openRound, .symbol .ampersand,
  .name "u", .symbol .closeRound, .symbol .openCurly, .keyword .giveBack, .name tableName,
  .symbol .openSquare, .name "u", .keyword .cast, .name "usize", .symbol .minus,
  .number range.first, .symbol .plus, .name (offsetName range.first), .symbol .closeSquare,
  .symbol .semicolon, .symbol .closeCurly]

set_option maxRecDepth 2000 in
theorem scan_regionLine (range : CodepointRange) :
    scan .between (("if (0x" ++ Text.hex4 range.first ++ "..=0x" ++ Text.hex4 range.last ++
      ").contains(&u) \x7b return USE_TABLE[u as usize - 0x" ++ Text.hex4 range.first ++ " + " ++
      offsetName range.first ++ "]; \x7d").toList ++ ['\n']) = (regionTokens range, .between) := by
  have hex (n : Nat) : scan (.word ['0', 'x']) (Text.hex4 n).toList =
      ([], .word (['0', 'x'] ++ (Text.hex4 n).toList)) := scan_letters _ isLetter_hex
  have head : scan .between "if (0x".toList =
      ([.keyword .when, .symbol .openRound], .word ['0', 'x']) := rfl
  have first : scan (.word (['0', 'x'] ++ (Text.hex4 range.first).toList)) "..=0x".toList =
      ([.number range.first, .symbol .through], .word ['0', 'x']) := by
    rw [← ofLetters_hex 4 range.first]
    rfl
  have last : scan (.word (['0', 'x'] ++ (Text.hex4 range.last).toList))
      ").contains(&u) \x7b return USE_TABLE[u as usize - 0x".toList =
      ([.number range.last, .symbol .closeRound, .symbol .dot, .name "contains",
        .symbol .openRound, .symbol .ampersand, .name "u", .symbol .closeRound, .symbol .openCurly,
        .keyword .giveBack, .name tableName, .symbol .openSquare, .name "u", .keyword .cast,
        .name "usize", .symbol .minus], .word ['0', 'x']) := by
    rw [← ofLetters_hex 4 range.last]
    rfl
  have start : scan (.word (['0', 'x'] ++ (Text.hex4 range.first).toList)) " + ".toList =
      ([.number range.first, .symbol .plus], .between) := by
    rw [← ofLetters_hex 4 range.first]
    rfl
  have tail : scan (.word (offsetName range.first).toList) ("]; \x7d".toList ++ ['\n']) =
      ([.name (offsetName range.first), .symbol .closeSquare, .symbol .semicolon,
        .symbol .closeCurly], .between) := by
    rw [← ofLetters_offsetName]
    rfl
  simp only [String.toList_append, List.append_assoc]
  exact scan_append head (scan_append (hex _) (scan_append first (scan_append (hex _)
    (scan_append last (scan_append (hex _) (scan_append start (scan_append (scan_offsetName _)
      tail)))))))

theorem reads_region (depth : Nat) (statements : List Expression) (frames : List Frame)
    (program : Program) (range : CodepointRange) :
    Reads ((regionLine range).lines depth) ⟨.operand, .block statements :: frames, program⟩
      ⟨.operand, .block (statements ++ [rangeTest range]) :: frames, program⟩ :=
  .line depth (regionTokens range) (scan_regionLine range) rfl

def pageOutline (page : Nat × List CodepointRange) : Outline :=
  .block ("0x" ++ Text.hex 1 page.1 ++ " =>") (page.2.map regionLine) ""

theorem reads_page (depth : Nat) (subject : Expression) (arms : List Arm) (frames : List Frame)
    (program : Program) (page : Nat × List CodepointRange) :
    Reads ((pageOutline page).lines depth) ⟨.pattern, .arms subject arms :: frames, program⟩
      ⟨.pattern, .arms subject (arms ++ [pageArm page]) :: frames, program⟩ := by
  have middle := Reads.map (depth + 1) regionLine
    (fun done => ⟨.operand, .block (done.map rangeTest) :: .arm (.number page.1) ::
      .arms subject arms :: frames, program⟩) page.2 (fun range done => by
        rw [List.map_append]
        exact reads_region (depth + 1) _ _ program range)
  refine .block depth (.line depth [.number page.1, .symbol .arrow, .symbol .openCurly]
    ?_ rfl) middle (.line depth [.symbol .closeCurly] rfl rfl)
  have head : scan .between "0x".toList = ([], .word ['0', 'x']) := rfl
  have tail : scan (.word (['0', 'x'] ++ (Text.hex 1 page.1).toList))
      (" =>".toList ++ (" \x7b".toList ++ ['\n'])) =
      ([.number page.1, .symbol .arrow, .symbol .openCurly], .between) := by
    rw [← ofLetters_hex 1 page.1]
    rfl
  simp only [String.toList_append, List.append_assoc]
  exact scan_append head (scan_append (scan_letters _ isLetter_hex) tail)

variable (listing : CategoryListing)

theorem reads_selection (depth : Nat) (frames : List Frame) (program : Program) :
    Reads ((Outline.block ("match u >> " ++ toString listing.pageBits)
        (listing.pages.map pageOutline ++ [.line "_ => \x7b\x7d"]) "").lines depth)
      ⟨.operand, .block [] :: frames, program⟩
      ⟨.operand, .block [listing.selection] :: frames, program⟩ := by
  have pages := Reads.map (depth + 1) pageOutline
    (fun done => ⟨.pattern, .arms listing.pageNumber (done.map pageArm) :: .block [] :: frames,
      program⟩) listing.pages (fun page done => by
        rw [List.map_append]
        exact reads_page (depth + 1) _ _ _ program page)
  have other (arms : List Arm) : Reads ((Outline.line "_ => \x7b\x7d").lines (depth + 1))
      ⟨.pattern, .arms listing.pageNumber arms :: .block [] :: frames, program⟩
      ⟨.pattern, .arms listing.pageNumber (arms ++ [otherArm]) :: .block [] :: frames, program⟩ :=
    .line (depth + 1) [.keyword .anything, .symbol .arrow, .symbol .openCurly,
      .symbol .closeCurly] rfl rfl
  refine .block depth (.line depth [.keyword .select, .name "u", .symbol .shiftRight,
    .number listing.pageBits, .symbol .openCurly] ?_ rfl)
    (.appendAll (depth + 1) pages (.cons (depth + 1) (other _) (.nil _)))
    (.line depth [.symbol .closeCurly] rfl rfl)
  have head : scan .between "match u >> ".toList =
      ([.keyword .select, .name "u", .symbol .shiftRight], .between) := rfl
  have value := scan_word (Text.toString_ne_nil listing.pageBits) isLetter_toString
  have tail : scan (.word (toString listing.pageBits).toList) (" \x7b".toList ++ ['\n']) =
      ([.number listing.pageBits, .symbol .openCurly], .between) := by
    rw [← ofLetters_toString]
    rfl
  simp only [String.toList_append, List.append_assoc]
  exact scan_append head (scan_append value tail)

theorem reads_lookupFunction (constants : List (String × Expression)) :
    Reads (listing.lookupFunction.lines 0) (itemReader constants)
      ⟨.item, [], ⟨constants, [⟨functionName, "u", listing.lookupBody⟩]⟩⟩ := by
  have opened : Reads ((Outline.line
        ("pub fn get_category(u: u32) -> Category" ++ " \x7b")).lines 0) (itemReader constants)
      ⟨.operand, [.block [], .function functionName "u"], ⟨constants, []⟩⟩ :=
    .line 0 [.keyword .exported, .keyword .function, .name functionName, .symbol .openRound,
      .name "u", .symbol .colon, .name "u32", .symbol .closeRound, .symbol .gives,
      .name "Category", .symbol .openCurly] rfl rfl
  have selected := listing.reads_selection 1 [.function functionName "u"] ⟨constants, []⟩
  have answered : Reads ((Outline.line Category.other.name).lines 1)
      ⟨.operand, [.block [listing.selection], .function functionName "u"], ⟨constants, []⟩⟩
      ⟨.operator (.name Category.other.name), [.block [listing.selection],
        .function functionName "u"], ⟨constants, []⟩⟩ :=
    .line 1 [.name Category.other.name] rfl rfl
  exact .block 0 opened (.cons 1 selected (.cons 1 (.line 1 [] rfl rfl)
    (.cons 1 answered (.nil _)))) (.line 0 [.symbol .closeCurly] rfl rfl)

theorem no_lineFeed_toString (n : Nat) : ∀ c ∈ (toString n).toList, c ≠ '\n' := by
  rintro c member rfl
  exact absurd (Text.mem_toString_digit member) (by decide)

theorem no_lineFeed_fixed (places : Nat) (fraction : BinaryFraction) :
    ∀ c ∈ (fraction.fixed places).toList, c ≠ '\n' := by
  intro c member
  simp only [BinaryFraction.fixed, String.toList_append, String.toList_ofList, List.leftpad,
    List.mem_append] at member
  rcases member with (whole | point) | (zero | decimal)
  · exact no_lineFeed_toString _ c whole
  · rintro rfl
    exact absurd point (by decide)
  · rw [List.eq_of_mem_replicate zero]
    decide
  · exact no_lineFeed_toString _ c decimal

def occupancyLine : Outline :=
  .line ("// " ++ toString listing.used ++ " of " ++ toString listing.total ++
    " entries used (" ++ (listing.occupancy.times 100).fixed 2 ++ "%)")

theorem reads_occupancy (reader : Reader) :
    Reads (listing.occupancyLine.lines 0) reader reader := by
  refine .line 0 [] ?_ rfl
  have head : scan .between "// ".toList = ([], .lineComment) := rfl
  have used := scan_lineComment (no_lineFeed_toString listing.used)
  have total := scan_lineComment (no_lineFeed_toString listing.total)
  have share := scan_lineComment (no_lineFeed_fixed 2 (listing.occupancy.times 100))
  have between : scan .lineComment " of ".toList = ([], .lineComment) := rfl
  have behind : scan .lineComment " entries used (".toList = ([], .lineComment) := rfl
  have tail : scan .lineComment ("%)".toList ++ ['\n']) = ([], .between) := rfl
  simp only [String.toList_append, List.append_assoc]
  exact scan_append head (scan_append used (scan_append between (scan_append total
    (scan_append behind (scan_append share tail)))))

theorem outlines_eq : listing.outlines =
    [generatedNotice, listing.occupancyLine, .line "",
      .line "use super::universal::\x7bCategory, category::*\x7d;", .line "",
      .line "#[rustfmt::skip]", .line "const USE_TABLE: &[Category] = &["] ++
    (listing.rows.flatMap rowLines ++ ([.line "];", .line ""] ++
      (listing.offsets.map offsetLine ++
        [.line "", .line "#[rustfmt::skip]", listing.lookupFunction]))) := by
  simp only [outlines, List.append_assoc]
  rfl

theorem reads_empty (reader : Reader) : Reads ((Outline.line "").lines 0) reader reader :=
  .line 0 [] rfl rfl

theorem reads_attribute (constants : List (String × Expression)) :
    Reads ((Outline.line "#[rustfmt::skip]").lines 0) (itemReader constants)
      (itemReader constants) :=
  .line 0 [.symbol .hash, .symbol .openSquare, .name "rustfmt", .symbol .doubleColon,
    .name "skip", .symbol .closeSquare] rfl rfl

theorem reads_head : Reads (Outline.linesOfAll 0 [generatedNotice, listing.occupancyLine, .line "",
      .line "use super::universal::\x7bCategory, category::*\x7d;", .line "",
      .line "#[rustfmt::skip]", .line "const USE_TABLE: &[Category] = &["])
    .start (tableReader []) := by
  have notice : Reads (generatedNotice.lines 0) .start (itemReader []) :=
    .line 0 [] rfl rfl
  have use_ : Reads ((Outline.line "use super::universal::\x7bCategory, category::*\x7d;").lines 0)
      (itemReader []) (itemReader []) :=
    .line 0 [.keyword .use, .name "super", .symbol .doubleColon, .name "universal",
      .symbol .doubleColon, .symbol .openCurly, .name "Category", .symbol .comma,
      .name "category", .symbol .doubleColon, .symbol .star, .symbol .closeCurly,
      .symbol .semicolon] rfl rfl
  have table : Reads ((Outline.line "const USE_TABLE: &[Category] = &[").lines 0)
      (itemReader []) (tableReader []) :=
    .line 0 [.keyword .constant, .name tableName, .symbol .colon, .symbol .ampersand,
      .symbol .openSquare, .name "Category", .symbol .closeSquare, .symbol .equals,
      .symbol .ampersand, .symbol .openSquare] rfl rfl
  exact .cons 0 notice (.cons 0 (listing.reads_occupancy _) (.cons 0 (reads_empty _)
    (.cons 0 use_ (.cons 0 (reads_empty _) (.cons 0 (reads_attribute []) (.cons 0 table
      (.nil _)))))))

/-- The text of a listing is read as its program. -/
theorem read?_text (plain : PlainLabels listing.rows) :
    Program.read? listing.text = some listing.program := by
  have closed : Reads ((Outline.line "];").lines 0) (tableReader listing.entries)
      (itemReader [tableConstant listing.entries]) :=
    .line 0 [.symbol .closeSquare, .symbol .semicolon] rfl rfl
  have offsets := Reads.map 0 offsetLine
    (fun done => itemReader (tableConstant listing.entries :: done.map offsetConstant))
    listing.offsets (fun offset done => by
      rw [List.map_append]
      exact reads_offset 0 _ offset)
  have function := listing.reads_lookupFunction listing.program.constants
  apply Reads.read?
  rw [outlines_eq]
  exact .appendAll 0 listing.reads_head (.appendAll 0 (reads_rows plain)
    (.appendAll 0 (.cons 0 closed (.cons 0 (reads_empty _) (.nil _)))
      (.appendAll 0 offsets (.cons 0 (reads_empty _) (.cons 0 (reads_attribute _)
        (.cons 0 function (.nil _)))))))

end ShapingTables.CategoryListing
