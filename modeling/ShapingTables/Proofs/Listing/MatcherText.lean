import ShapingTables.Listing.MatcherListing
import ShapingTables.Proofs.Generated.MatcherFile
import ShapingTables.Proofs.Listing.MatcherReading

/-! The text of a listing of matchers is read as the listing. Names of scripts come back from
their string literals whatever their characters are, and the names of functions are scanned as
names. -/
namespace ShapingTables

open Generated
open BufferProgram (IsName)
open Text (Outline)

theorem scan_digits (characters : List Char) {written : List Char} {digits : List Nat}
    (read : written.mapM Text.hexDigitValue? = some digits) (found : List Nat) :
    scan (.literal characters (.number found)) written =
      ([], .literal characters (.number (found ++ digits))) := by
  induction written generalizing found digits with
  | nil =>
    rw [List.mapM_nil] at read
    cases read
    rw [List.append_nil]
    rfl
  | cons c rest ih =>
    rw [List.mapM_cons] at read
    obtain ⟨digit, value, read⟩ := Option.bind_eq_some_iff.mp read
    obtain ⟨others, later, same⟩ := Option.bind_eq_some_iff.mp read
    cases same
    have inside : c ≠ '\x7d' := by
      rintro rfl
      contradiction
    have step : Mode.step c (.literal characters (.number found)) =
        ([], .literal characters (.number (found ++ [digit]))) := by
      rw [Mode.step, Mode.stepLiteral, if_neg inside, value]
    have scanned := scan_cons step (ih later (found ++ [digit]))
    rwa [List.append_assoc] at scanned

/-- A character that is written as its number. -/
theorem scan_numbered (characters : List Char) (c : Char) :
    scan (.literal characters .none)
      (['\\', 'u', '\x7b'] ++ (Text.hexDigits c.toNat).map Char.toLower ++ ['\x7d']) =
      ([], .literal (characters ++ [c]) .none) := by
  obtain ⟨digits, read, value, length⟩ := Text.mapM_lower c.toNat
  have known : numbered? digits = some c := by
    have inside : c.toNat < 0x1000000 := by
      have valid := c.valid
      simp only [UInt32.isValidChar, Nat.isValidChar] at valid
      simp only [Char.toNat]
      omega
    have few := Text.length_hexDigits_le inside
    have any := List.length_pos_iff.mpr (Text.hexDigits_ne_nil c.toNat)
    have counted : ¬(digits.isEmpty = true ∨ 6 < digits.length) := by
      rw [List.isEmpty_iff_length_eq_zero]
      omega
    have valid : c.toNat.isValidChar := c.valid
    rw [numbered?, if_neg counted, value, if_pos valid, Char.ofNat_toNat]
  have ended : Mode.step '\x7d' (.literal characters (.number digits)) =
      ([], .literal (characters ++ [c]) .none) := by
    rw [Mode.step, Mode.stepLiteral, if_pos rfl, known]
  have opened : scan (.literal characters .none) ['\\', 'u', '\x7b'] =
      ([], .literal characters (.number [])) := rfl
  exact scan_append (scan_append opened (scan_digits characters read [])) (scan_cons ended rfl)

theorem scan_escape (characters : List Char) (c : Char) :
    scan (.literal characters .none) (MatcherListing.escape c) =
      ([], .literal (characters ++ [c]) .none) := by
  by_cases marked : c ∈ ['"', '\\', '\t', '\r', '\n', '\x00']
  · simp only [List.mem_cons, List.not_mem_nil, or_false] at marked
    rcases marked with rfl | rfl | rfl | rfl | rfl | rfl <;> rfl
  · simp only [List.mem_cons, List.not_mem_nil, or_false, not_or] at marked
    obtain ⟨quote, backslash, tab, carriageReturn, lineFeed, null⟩ := marked
    rw [MatcherListing.escape, if_neg quote, if_neg backslash, if_neg tab, if_neg carriageReturn,
      if_neg lineFeed, if_neg null]
    split
    · have step : Mode.step c (.literal characters .none) =
          ([], .literal (characters ++ [c]) .none) := by
        rw [Mode.step, Mode.stepLiteral, if_neg quote, if_neg backslash]
      exact scan_cons step rfl
    · exact scan_numbered characters c

theorem scan_escapes (characters written : List Char) :
    scan (.literal characters .none) (written.flatMap MatcherListing.escape) =
      ([], .literal (characters ++ written) .none) := by
  induction written generalizing characters with
  | nil =>
    rw [List.append_nil]
    rfl
  | cons c rest ih =>
    have scanned := scan_append (scan_escape characters c) (ih (characters ++ [c]))
    rwa [List.append_assoc] at scanned

/-- A string literal stands for its text, whatever characters the text has. -/
theorem scan_stringLiteral (text : String) :
    scan .between (MatcherListing.stringLiteral text).toList = ([.text text], .between) := by
  have opened : Mode.step '"' .between = ([], .literal [] .none) := rfl
  have closed : scan (.literal text.toList .none) ['"'] = ([.text text], .between) := by
    have step : Mode.step '"' (.literal text.toList .none) = ([.text text], .between) := by
      rw [Mode.step, Mode.stepLiteral, if_pos rfl, String.ofList_toList]
    exact scan_cons step rfl
  rw [MatcherListing.stringLiteral, String.toList_ofList]
  exact scan_cons opened (scan_append (scan_escapes [] text.toList) closed)

theorem isLetter_toLower {c : Char} (letter : c.isAlphanum = true) : isLetter c.toLower = true := by
  have ascii : ∀ n < 128, (Char.ofNat n).isAlphanum = true →
      isLetter (Char.ofNat n).toLower = true := by decide
  have small : c.toNat < 128 := by
    change ((decide (65 ≤ c.val ∧ c.val ≤ 90) || (decide (97 ≤ c.val) && decide (c.val ≤ 122))) ||
      (decide (48 ≤ c.val) && decide (c.val ≤ 57))) = true at letter
    simp only [Bool.or_eq_true, Bool.and_eq_true, decide_eq_true_eq,
      UInt32.le_iff_toNat_le] at letter
    change ((65 ≤ c.toNat ∧ c.toNat ≤ 90) ∨ (97 ≤ c.toNat ∧ c.toNat ≤ 122)) ∨
      (48 ≤ c.toNat ∧ c.toNat ≤ 57) at letter
    omega
  rw [← Char.ofNat_toNat c] at letter ⊢
  exact ascii c.toNat small letter

theorem isName_functionName (script : String) : IsName (MatcherListing.functionName script) := by
  have written : (MatcherListing.functionName script).toList = ['m', 'a', 't', 'c', 'h', '_'] ++
      script.toList.map fun c => if c.isAlphanum then c.toLower else '_' := by
    rw [MatcherListing.functionName, String.toList_append, String.toList_ofList,
      String.toList_ofList]
  refine ⟨by simp [written], ?_, ?_, ?_⟩
  · intro c member
    have front : ['m', 'a', 't', 'c', 'h', '_'].all isLetter = true := rfl
    rw [written] at member
    rcases List.mem_append.mp member with begins | member
    · exact List.all_eq_true.mp front c begins
    · obtain ⟨origin, _, rfl⟩ := List.mem_map.mp member
      split
      · rename_i letter
        exact isLetter_toLower letter
      · rfl
  · have named : Token.ofLetters (MatcherListing.functionName script).toList =
        .name (String.ofList (MatcherListing.functionName script).toList) := by
      rw [written]
      rfl
    rw [named, String.ofList_toList]
  · intro reserved
    have letters := List.mem_map_of_mem (f := String.toList) reserved
    rw [written] at letters
    simp [BufferProgram.Parser.reserved] at letters

theorem scan_name {called : String} (known : IsName called) :
    scan .between called.toList = ([], .word called.toList) :=
  scan_word known.nonempty known.letters

namespace MatcherListing

/-- Names are scanned as such, and what is measured consists of words. -/
structure Readable (listing : MatcherListing) : Prop where
  functions : ∀ function ∈ listing.functions, IsName function.1 ∧
    ∀ body, function.2 = some body → body.OfWords
  cases : ∀ entry ∈ listing.cases, IsName entry.2

def bodyTokens : Option MatchExpression → List Token
  | some body => body.tokens
  | none => [.name "None"]

def tokensOf (function : String × Option MatchExpression) : List Token :=
  MatcherFile.functionTokens function.1 (bodyTokens function.2)

/-- What a function is read as. -/
def codeOf (function : String × Option MatchExpression) : String × Matching :=
  (function.1, (function.2.map (·.code)).getD (.answer none))

theorem scans_function {function : String × Option MatchExpression} (known : IsName function.1)
    (words : ∀ body, function.2 = some body → body.OfWords) :
    Scans ((functionOutline function).lines 0) (tokensOf function) := by
  have front : scan .between "fn ".toList = ([.keyword .function], .between) := by decide
  have rest : scan (.word function.1.toList) "(glyphs: &[u32]) -> Option<usize> \x7b\n".toList =
      (.ofLetters function.1.toList :: .symbol .openRound :: MatcherFile.glyphsTokens, .between) :=
    rfl
  rw [known.scanned] at rest
  have head : Scans ((Outline.line ("fn " ++ function.1 ++ "(glyphs: &[u32]) -> Option<usize>" ++
      " \x7b")).lines 0)
      (.keyword .function :: .name function.1 :: .symbol .openRound :: MatcherFile.glyphsTokens) := by
    apply Scans.line 0
    have whole := scan_append front (scan_append (scan_name known) rest)
    simp only [String.toList_append, List.append_assoc] at whole ⊢
    exact whole
  have last : Scans ((Outline.line ("\x7d" ++ "")).lines 0) [.symbol .closeCurly] :=
    Scans.line 0 (by decide)
  have inside : Scans (Outline.linesOfAll 1 [match function.2 with
      | some body => body.outline "" ""
      | none => .line "None"]) (bodyTokens function.2) := by
    obtain ⟨called, measured⟩ := function
    cases measured with
    | some body =>
      have closing : Closing "" [] := ⟨by decide, by decide⟩
      have scanned := body.scans (words body rfl) 1
        (rfl : scan .between "".toList = ([], .between)) closing
      rw [List.append_nil] at scanned
      exact Scans.single 1 scanned
    | none =>
      have nothing : Scans ((Outline.line "None").lines 1) [.name "None"] :=
        Scans.line 1 (by decide)
      exact Scans.single 1 nothing
  have whole := Scans.block 0 head inside last
  exact whole

theorem scans_case {entry : String × String} (known : IsName entry.2) :
    Scans ((caseOutline entry).lines 2) (MatcherFile.caseTokens entry) := by
  have arrow : scan .between " => ".toList = ([.symbol .arrow], .between) := by decide
  have call : scan (.word entry.2.toList) "(glyphs),\n".toList =
      (.ofLetters entry.2.toList :: MatcherFile.callTokens, .between) := rfl
  rw [known.scanned] at call
  apply Scans.line 2
  have whole := scan_append (scan_stringLiteral entry.1)
    (scan_append arrow (scan_append (scan_name known) call))
  simp only [String.toList_append, List.append_assoc] at whole ⊢
  exact whole

theorem scans_cases {entries : List (String × String)}
    (known : ∀ entry ∈ entries, IsName entry.2) :
    Scans (Outline.linesOfAll 2 (entries.map caseOutline)) (entries.flatMap MatcherFile.caseTokens) := by
  rw [List.map_eq_flatMap]
  exact Scans.flatMap 2 _ _ fun entry member => Scans.single 2 (scans_case (known entry member))

theorem scans_selection {listing : MatcherListing}
    (known : ∀ entry ∈ listing.cases, IsName entry.2) :
    Scans ((selectionOutline listing).lines 0) (MatcherFile.selectionTokens ++
      (listing.cases.flatMap MatcherFile.caseTokens ++ MatcherFile.otherwiseTokens)) := by
  have head : Scans ((Outline.line
      ("pub fn prohibited_run(script: &str, glyphs: &[u32]) -> Option<usize>" ++ " \x7b")).lines 0)
      (MatcherFile.selectionTokens.dropLast.dropLast.dropLast) := Scans.line 0 (by decide)
  have select : Scans ((Outline.line ("match script" ++ " \x7b")).lines 1)
      [.keyword .select, .name "script", .symbol .openCurly] := Scans.line 1 (by decide)
  have otherwise : Scans ((Outline.line "_ => None,").lines 2)
      [.keyword .anything, .symbol .arrow, .name "None", .symbol .comma] := Scans.line 2 (by decide)
  have close (depth : Nat) : Scans ((Outline.line ("\x7d" ++ "")).lines depth)
      [.symbol .closeCurly] := Scans.line depth (by decide)
  have inner := Scans.block 1 select
    (Scans.appendAll 2 (scans_cases known) (Scans.single 2 otherwise)) (close 1)
  have whole := Scans.block 0 head (Scans.single 1 inner) (close 0)
  simp only [List.append_assoc] at whole
  exact whole

/-- What a listing is read as. -/
def file (listing : MatcherListing) : MatcherFile where
  circle := dottedCircle
  functions := listing.functions.map codeOf
  cases := listing.cases
  rewriting := BufferProgram.scanAndFix.withoutBlanks

/-- The first lines: comments, a use and the constant of the dotted circle. -/
theorem scans_front : Scans (Outline.linesOfAll 0 [generatedNotice, .line "",
      .line "use super::buffer::\x7bGlyphBuffer, GlyphRecord\x7d;", .line "",
      .line "/// U+25CC DOTTED CIRCLE",
      .line ("pub const DOTTED_CIRCLE: u32 = 0x" ++ Text.hex4 dottedCircle ++ ";")])
    (MatcherFile.useTokens ++ MatcherFile.circleTokens ++ [.number dottedCircle,
      .symbol .semicolon]) := by
  have used : Scans ((Outline.line "use super::buffer::\x7bGlyphBuffer, GlyphRecord\x7d;").lines 0)
      MatcherFile.useTokens := Scans.line 0 (by decide)
  have circle : Scans ((Outline.line
      ("pub const DOTTED_CIRCLE: u32 = 0x" ++ Text.hex4 dottedCircle ++ ";")).lines 0)
      (MatcherFile.circleTokens ++ [.number dottedCircle, .symbol .semicolon]) := by
    apply Scans.line 0
    have begins : scan .between "pub const DOTTED_CIRCLE: u32 = 0x".toList =
        (MatcherFile.circleTokens, .word ['0', 'x']) := by decide
    have letters : ∀ c ∈ (Text.hex4 dottedCircle).toList, isLetter c = true := isLetter_hex
    have digits := scan_letters ['0', 'x'] letters
    have ended : scan (.word (['0', 'x'] ++ (Text.hex4 dottedCircle).toList)) ";\n".toList =
        ([.ofLetters (['0', 'x'] ++ (Text.hex4 dottedCircle).toList), .symbol .semicolon],
          .between) := rfl
    rw [Text.hex4, ofLetters_hex] at ended
    have whole := scan_append begins (scan_append digits ended)
    simp only [String.toList_append, List.append_assoc] at whole ⊢
    exact whole
  rw [List.append_assoc]
  refine Scans.passed 0 (Scans.line 0 (by decide)) (Scans.passed 0 (Scans.line 0 rfl) ?_)
  refine Scans.cons 0 used (Scans.passed 0 (Scans.line 0 rfl) ?_)
  exact Scans.passed 0 (Scans.line 0 (by decide)) (Scans.single 0 circle)

/-- Every function stands behind an empty line. -/
theorem scans_functions {functions : List (String × Option MatchExpression)}
    (known : ∀ function ∈ functions, IsName function.1 ∧
      ∀ body, function.2 = some body → body.OfWords) :
    Scans (Outline.linesOfAll 0
        (functions.flatMap fun function => [.line "", functionOutline function]))
      (functions.flatMap tokensOf) := by
  refine Scans.flatMap 0 _ _ fun function member => ?_
  obtain ⟨named, words⟩ := known function member
  exact Scans.passed 0 (Scans.line 0 rfl) (Scans.single 0 (scans_function named words))

theorem scans_outlines {listing : MatcherListing} (readable : listing.Readable) :
    Scans (Outline.linesOfAll 0 listing.outlines) (MatcherFile.fileTokens dottedCircle
      (listing.functions.flatMap tokensOf) (listing.cases.flatMap MatcherFile.caseTokens)
      BufferProgram.scanAndFix.tokens) := by
  have last : Scans (Outline.linesOfAll 0 [.line "",
      .line "/// Length of the prohibited run at the start of `glyphs`",
      listing.selectionOutline, .line "",
      .line "/// Insert a dotted circle before every prohibited run of `script` in",
      .line "/// `buffer`. Returns whether anything was inserted.",
      BufferProgram.scanAndFix.outline])
      (MatcherFile.selectionTokens ++ (listing.cases.flatMap MatcherFile.caseTokens ++
        MatcherFile.otherwiseTokens) ++ BufferProgram.scanAndFix.tokens) := by
    refine Scans.passed 0 (Scans.line 0 rfl) (Scans.passed 0 (Scans.line 0 (by decide)) ?_)
    refine Scans.cons 0 (scans_selection readable.cases) (Scans.passed 0 (Scans.line 0 rfl) ?_)
    refine Scans.passed 0 (Scans.line 0 (by decide)) (Scans.passed 0 (Scans.line 0 (by decide)) ?_)
    exact BufferProgram.scans_scanAndFix
  have whole := Scans.appendAll 0 (Scans.appendAll 0 scans_front (scans_functions readable.functions))
    last
  rw [MatcherFile.fileTokens]
  simp only [List.append_assoc] at whole ⊢
  exact whole

theorem takes_function {function : String × Option MatchExpression} (known : IsName function.1)
    (words : ∀ body, function.2 = some body → body.OfWords) :
    MatcherFile.Takes MatcherFile.function (tokensOf function) (codeOf function) := by
  apply MatcherFile.takes_function known.free
  obtain ⟨called, measured⟩ := function
  cases measured with
  | some body => exact body.leads_tokens (words body rfl) []
  | none => rfl

/-- The whole text of a listing is read as the listing. -/
theorem read?_text {listing : MatcherListing} (readable : listing.Readable) :
    MatcherFile.read? listing.text = some listing.file := by
  have functions : ∀ function ∈ listing.functions, tokensOf function ≠ [] ∧
      MatcherFile.Takes MatcherFile.function (tokensOf function) (codeOf function) := by
    intro function member
    obtain ⟨named, words⟩ := readable.functions function member
    exact ⟨List.cons_ne_nil _ _, takes_function named words⟩
  have parsed := MatcherFile.parse?_fileTokens functions
    (fun entry member => (readable.cases entry member).free) dottedCircle
    BufferProgram.parse_scanAndFix
  have scanned := scans_outlines readable
  rw [Scans] at scanned
  rw [MatcherFile.read?, text, Outline.text, String.toList_ofList, Generated.tokens, scanned]
  simp only [Mode.pending, List.append_nil]
  exact parsed

end MatcherListing

end ShapingTables
