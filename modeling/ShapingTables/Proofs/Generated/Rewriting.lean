import ShapingTables.Listing.BufferProgram
import ShapingTables.Proofs.Generated.Token

/-! Reading a program that rewrites a buffer. A parser takes tokens from the front; of two
alternatives the second is tried where the first one fails. Blank lines have no tokens. -/
namespace ShapingTables.BufferProgram

open Generated
open Text (Outline)

def callTokens (method : String) : List Token := [
  .name "out", .symbol .dot, .name method, .symbol .openRound]

def endTokens : List Token := [.symbol .closeRound, .symbol .semicolon]

/-- The glyphs of the buffer in front of a place. -/
def glyphsTokens : List Token := [
  .name "buffer", .symbol .dot, .name "glyphs", .symbol .openSquare]

def headTokens : List Token := [
  .keyword .exported, .keyword .function, .name "scan_and_fix", .symbol .openRound,
  .name "buffer", .symbol .colon, .symbol .ampersand, .name "mut", .name "GlyphBuffer",
  .symbol .comma, .name "script", .symbol .colon, .symbol .ampersand, .name "str",
  .symbol .closeRound, .symbol .gives, .name "bool", .symbol .openCurly]

def countTokens : List Token := [
  .name "codepoints", .symbol .dot, .name "len", .symbol .openRound, .symbol .closeRound]

def optedTokens : List Token := [
  .name "buffer", .symbol .dot, .name "do_not_insert_dotted_circle"]

def codepointsTokens : List Token := [
  .name "let", .name "codepoints", .symbol .colon, .name "Vec", .symbol .less, .name "u32",
  .symbol .greater, .symbol .equals, .name "buffer", .symbol .dot, .name "glyphs", .symbol .dot,
  .name "iter", .symbol .openRound, .symbol .closeRound, .symbol .dot, .name "map",
  .symbol .openRound, .symbol .bar, .name "g", .symbol .bar, .name "g", .symbol .dot,
  .name "glyph", .symbol .closeRound, .symbol .dot, .name "collect", .symbol .openRound,
  .symbol .closeRound, .symbol .semicolon]

def outputTokens : List Token := [
  .name "let", .name "mut", .name "out", .symbol .colon, .name "Vec", .symbol .less,
  .name "GlyphRecord", .symbol .greater, .symbol .equals, .name "Vec", .symbol .doubleColon,
  .name "new", .symbol .openRound, .symbol .closeRound, .symbol .semicolon]

def sliceTokens : List Token :=
  callTokens "extend_from_slice" ++ [.symbol .ampersand] ++ glyphsTokens

/-- A dotted circle up to the place that its cluster is from. -/
def circleTokens : List Token :=
  callTokens "push" ++ [.name "GlyphRecord", .symbol .openCurly, .name "glyph", .symbol .colon,
    .name "DOTTED_CIRCLE", .symbol .comma, .name "cluster", .symbol .colon] ++ glyphsTokens

def clusterTokens : List Token := [
  .symbol .closeSquare, .symbol .dot, .name "cluster", .symbol .comma, .name "continuation",
  .symbol .colon, .name "false", .symbol .comma, .symbol .closeCurly]

def runTokens : List Token := [
  .keyword .select, .name "prohibited_run", .symbol .openRound, .name "script", .symbol .comma,
  .symbol .ampersand, .name "codepoints", .symbol .openSquare]

def foundTokens : List Token := [
  .symbol .doubleDot, .symbol .closeSquare, .symbol .closeRound, .symbol .openCurly,
  .name "Some", .symbol .openRound]

def Number.tokens : Number → List Token
  | .literal value => [.number value]
  | .variable name => [.name name]
  | .codepointCount => countTokens
  | .plus left right => left.tokens ++ [.symbol .plus] ++ right.tokens

def Test.tokens : Test → List Token
  | .variable name => [.name name]
  | .negation name => [.symbol .exclamation, .name name]
  | .withoutDottedCircles => optedTokens

mutual

def Statement.tokens : Statement → List Token
  | .blank => []
  | .returnFalse => [.keyword .giveBack, .name "false", .symbol .semicolon]
  | .declareCodepoints => codepointsTokens
  | .declareOutput => outputTokens
  | .declareFlag name =>
    [.name "let", .name "mut", .name name, .symbol .equals, .name "false", .symbol .semicolon]
  | .declareNumber name =>
    [.name "let", .name "mut", .name name, .symbol .equals, .number 0, .symbol .semicolon]
  | .raiseFlag name => [.name name, .symbol .equals, .name "true", .symbol .semicolon]
  | .increase name amount =>
    [.name name, .symbol .plusEquals] ++ amount.tokens ++ [.symbol .semicolon]
  | .reserve count => callTokens "reserve" ++ count.tokens ++ endTokens
  | .copyFront stop =>
    sliceTokens ++ [.symbol .doubleDot] ++ stop.tokens ++ [.symbol .closeSquare] ++ endTokens
  | .copyBetween start stop =>
    sliceTokens ++ start.tokens ++ [.symbol .doubleDot] ++ stop.tokens ++ [.symbol .closeSquare] ++
      endTokens
  | .copyGlyph place =>
    callTokens "push" ++ glyphsTokens ++ place.tokens ++ [.symbol .closeSquare] ++ endTokens
  | .putCircle place => circleTokens ++ place.tokens ++ clusterTokens ++ endTokens
  | .replaceGlyphs =>
    [.name "buffer", .symbol .dot, .name "glyphs", .symbol .equals, .name "out",
      .symbol .semicolon]
  | .when test body =>
    [.keyword .when] ++ test.tokens ++ [.symbol .openCurly] ++ tokensOf body ++
      [.symbol .closeCurly]
  | .whileBelow low high body =>
    [.name "while"] ++ low.tokens ++ [.symbol .less] ++ high.tokens ++ [.symbol .openCurly] ++
      tokensOf body ++ [.symbol .closeCurly]
  | .matchRun place length found otherwise =>
    runTokens ++ place.tokens ++ foundTokens ++
      [.name length, .symbol .closeRound, .symbol .arrow, .symbol .openCurly] ++ tokensOf found ++
      [.symbol .closeCurly, .name "None", .symbol .arrow, .symbol .openCurly] ++
      tokensOf otherwise ++ [.symbol .closeCurly, .symbol .closeCurly]

def tokensOf : List Statement → List Token
  | [] => []
  | statement :: rest => statement.tokens ++ tokensOf rest

end

def Function.tokens (function : Function) : List Token :=
  headTokens ++ tokensOf function.body ++ [.name function.answer, .symbol .closeCurly]

abbrev Parser := StateT (List Token) Option

namespace Parser

/-- Certain tokens one after the other. -/
def expect (certain : List Token) : Parser Unit := fun found =>
  (found.dropPrefix? certain).map ((), ·)

/-- Words that begin a statement or stand for a truth value. -/
def reserved : List String := ["let", "mut", "while", "true", "false"]

def name : Parser String
  | .name text :: rest => if text ∈ reserved then none else some (text, rest)
  | _ => none

def literal : Parser Nat
  | .number value :: rest => some (value, rest)
  | _ => none

def operand : Parser Number :=
  (do expect countTokens; return .codepointCount) <|>
  Number.variable <$> name <|>
  Number.literal <$> literal

def number : Parser Number := do
  let left ← operand
  (do expect [.symbol .plus]; return .plus left (← operand)) <|> return left

def test : Parser Test :=
  (do expect [.symbol .exclamation]; return .negation (← name)) <|>
  (do expect optedTokens; return .withoutDottedCircles) <|>
  Test.variable <$> name

def declaration : Parser Statement :=
  (do expect codepointsTokens; return .declareCodepoints) <|>
  (do expect outputTokens; return .declareOutput) <|>
  (do
    expect [.name "let", .name "mut"]
    let declared ← name
    expect [.symbol .equals]
    (do expect [.name "false", .symbol .semicolon]; return .declareFlag declared) <|>
      (do expect [.number 0, .symbol .semicolon]; return .declareNumber declared))

/-- What is done with the output. -/
def output : Parser Statement :=
  (do
    expect (callTokens "reserve")
    let count ← number
    expect endTokens
    return .reserve count) <|>
  (do
    expect sliceTokens
    (do
      expect [.symbol .doubleDot]
      let stop ← number
      expect (.symbol .closeSquare :: endTokens)
      return .copyFront stop) <|>
    (do
      let start ← number
      expect [.symbol .doubleDot]
      let stop ← number
      expect (.symbol .closeSquare :: endTokens)
      return .copyBetween start stop)) <|>
  (do
    expect (callTokens "push" ++ glyphsTokens)
    let place ← number
    expect (.symbol .closeSquare :: endTokens)
    return .copyGlyph place) <|>
  (do
    expect circleTokens
    let place ← number
    expect (clusterTokens ++ endTokens)
    return .putCircle place)

def assignment : Parser Statement :=
  (do
    expect [.name "buffer", .symbol .dot, .name "glyphs", .symbol .equals, .name "out",
      .symbol .semicolon]
    return .replaceGlyphs) <|>
  (do
    let assigned ← name
    (do
      expect [.symbol .equals, .name "true", .symbol .semicolon]
      return .raiseFlag assigned) <|>
    (do
      expect [.symbol .plusEquals]
      let amount ← number
      expect [.symbol .semicolon]
      return .increase assigned amount))

/-- A statement on one line. -/
def simple : Parser Statement :=
  (do
    expect [.keyword .giveBack, .name "false", .symbol .semicolon]
    return .returnFalse) <|>
  declaration <|> output <|> assignment

mutual

/-- A statement with at most so many others inside. -/
def statement : Nat → Parser Statement
  | 0 => failure
  | fuel + 1 => simple <|>
    (do
      expect [.keyword .when]
      let condition ← test
      expect [.symbol .openCurly]
      return .when condition (← block fuel)) <|>
    (do
      expect [.name "while"]
      let low ← number
      expect [.symbol .less]
      let high ← number
      expect [.symbol .openCurly]
      return .whileBelow low high (← block fuel)) <|>
    (do
      expect runTokens
      let place ← number
      expect foundTokens
      let length ← name
      expect [.symbol .closeRound, .symbol .arrow, .symbol .openCurly]
      let found ← block fuel
      expect [.name "None", .symbol .arrow, .symbol .openCurly]
      let otherwise ← block fuel
      expect [.symbol .closeCurly]
      return .matchRun place length found otherwise)

/-- Statements up to the end of the block. -/
def block : Nat → Parser (List Statement)
  | 0 => failure
  | fuel + 1 =>
    (do expect [.symbol .closeCurly]; return []) <|>
    (do
      let first ← statement fuel
      return first :: (← block fuel))

end

/-- Statements up to the answer. -/
def body : Nat → Parser (List Statement × String)
  | 0 => failure
  | fuel + 1 =>
    (do let answer ← name; expect [.symbol .closeCurly]; return ([], answer)) <|>
    (do
      let first ← statement fuel
      let (rest, answer) ← body fuel
      return (first :: rest, answer))

def function (fuel : Nat) : Parser Function := do
  expect headTokens
  let (statements, answer) ← body fuel
  return ⟨statements, answer⟩

def read? (found : List Token) : Option Function :=
  match function found.length found with
  | some (whole, []) => some whole
  | _ => none

end Parser

/-- The function of a whole text. -/
def Function.read? (text : String) : Option Function := Parser.read? (Generated.tokens text.toList)

/-- The statements that have tokens. -/
def Function.withoutBlanks (function : Function) : Function :=
  { function with body := function.body.filter fun
      | .blank => false
      | _ => true }

/-- A text that is scanned as one name, which nothing reserves. -/
structure IsName (text : String) : Prop where
  nonempty : text.toList ≠ []
  letters : ∀ c ∈ text.toList, isLetter c = true
  scanned : Token.ofLetters text.toList = .name text
  free : text ∉ Parser.reserved

instance (text : String) : Decidable (IsName text) :=
  decidable_of_iff (text.toList ≠ [] ∧ text.toList.all isLetter = true ∧
      Token.ofLetters text.toList = .name text ∧ Parser.reserved.contains text = false)
    ⟨fun ⟨nonempty, letters, scanned, free⟩ =>
        ⟨nonempty, List.all_eq_true.mp letters, scanned, by simpa using free⟩,
      fun name => ⟨name.nonempty, List.all_eq_true.mpr name.letters, name.scanned,
        by simpa using name.free⟩⟩

def Number.Named : Number → Prop
  | .literal _ | .codepointCount => True
  | .variable name => IsName name
  | .plus left right => left.Named ∧ right.Named

def Test.Named : Test → Prop
  | .variable name | .negation name => IsName name
  | .withoutDottedCircles => True

mutual

/-- Every variable has a name. -/
def Statement.Named : Statement → Prop
  | .blank | .returnFalse | .declareCodepoints | .declareOutput | .replaceGlyphs => True
  | .declareFlag name | .declareNumber name | .raiseFlag name => IsName name
  | .increase name amount => IsName name ∧ amount.Named
  | .reserve number | .copyFront number | .copyGlyph number | .putCircle number => number.Named
  | .copyBetween start stop => start.Named ∧ stop.Named
  | .when test body => test.Named ∧ AllNamed body
  | .whileBelow low high body => low.Named ∧ high.Named ∧ AllNamed body
  | .matchRun place length found otherwise =>
    place.Named ∧ IsName length ∧ AllNamed found ∧ AllNamed otherwise

def AllNamed : List Statement → Prop
  | [] => True
  | statement :: rest => statement.Named ∧ AllNamed rest

end

/-- What may stand behind a number. -/
def delimiters : List Char := [' ', ';', '.', ']', ')', '\n']

/-- A text that begins with a letter and has its tokens as soon as a delimiter follows. -/
structure Operand (text : String) (found : List Token) : Prop where
  begins : ∃ c rest, text.toList = c :: rest ∧ isLetter c = true
  scanned : ∀ c ∈ delimiters, scan .between (text.toList ++ [c]) = (found, .begin c)

theorem operand_word {text : String} {token : Token} (nonempty : text.toList ≠ [])
    (letters : ∀ c ∈ text.toList, isLetter c = true)
    (known : Token.ofLetters text.toList = token) : Operand text [token] where
  begins := by
    cases written : text.toList with
    | nil => exact absurd written nonempty
    | cons c rest => exact ⟨c, rest, rfl, letters c (by simp [written])⟩
  scanned c member := by
    have ended : Mode.step c (.word text.toList) = ([token], .begin c) := by
      have sign : isLetter c = false := by
        have signs : delimiters.all (!isLetter ·) = true := rfl
        simpa using List.all_eq_true.mp signs c member
      rw [Mode.step, if_neg (by simp [sign]), known]
    exact scan_append (scan_word nonempty letters) (scan_cons ended rfl)

theorem operand_name {name : String} (known : IsName name) : Operand name [.name name] :=
  operand_word known.nonempty known.letters known.scanned

theorem Number.operand (number : Number) (named : number.Named) :
    Operand number.text number.tokens := by
  match number with
  | .literal value =>
    exact operand_word (Text.toString_ne_nil value) isLetter_toString (ofLetters_toString value)
  | .variable name => exact operand_name named
  | .codepointCount =>
    have front : scan .between "codepoints.len()".toList = (countTokens.dropLast, .symbol [')']) :=
      by decide
    refine ⟨⟨'c', _, rfl, rfl⟩, fun c member => ?_⟩
    have ended : Mode.step c (.symbol [')']) = ([.symbol .closeRound], .begin c) := by
      simp only [delimiters, List.mem_cons, List.not_mem_nil, or_false] at member
      rcases member with rfl | rfl | rfl | rfl | rfl | rfl <;> rfl
    exact scan_append front (scan_cons ended rfl)
  | .plus left right =>
    obtain ⟨⟨first, rest, written, letter⟩, scanned⟩ := left.operand named.1
    have plus : scan .between "+ ".toList = ([.symbol .plus], .between) := by decide
    have text : (Number.plus left right).text.toList =
        left.text.toList ++ [' '] ++ ("+ ".toList ++ right.text.toList) := by
      simp [Number.text]
    -- The blank behind the left operand is its delimiter, so only the right one meets `c`.
    refine ⟨⟨first, rest ++ [' '] ++ ("+ ".toList ++ right.text.toList), ?_, letter⟩, ?_⟩
    · rw [text, written]
      simp
    · intro c member
      have whole := scan_append (scanned ' ' (by decide))
        (scan_append plus ((right.operand named.2).scanned c member))
      rw [text, List.append_assoc, List.append_assoc, Number.tokens,
        List.append_assoc left.tokens]
      rw [List.append_assoc] at whole
      exact whole

section

variable {text : String} {found : List Token} {start last : Mode} {front chars : List Char}
  {before after : List Token} {c : Char} {signs : List Char}

/-- An operand behind a blank, and what follows its delimiter. -/
theorem Operand.through (operand : Operand text found) (first : scan start front = (before, .between))
    (delimits : c ∈ delimiters) (rest : scan (.begin c) chars = (after, last)) :
    scan start (front ++ (text.toList ++ c :: chars)) = (before ++ (found ++ after), last) := by
  have middle := scan_append (operand.scanned c delimits) rest
  rw [List.append_assoc] at middle
  exact scan_append first middle

/-- An operand behind a sign. -/
theorem Operand.throughSign (operand : Operand text found)
    (first : scan start front = (before, .symbol signs)) (delimits : c ∈ delimiters)
    (rest : scan (.begin c) chars = (after, last)) :
    scan start (front ++ (text.toList ++ c :: chars)) =
      (before ++ (.ofSigns signs :: (found ++ after)), last) := by
  have middle := scan_append (operand.scanned c delimits) rest
  obtain ⟨letter, others, written, known⟩ := operand.begins
  rw [List.append_assoc, written] at middle
  rw [written]
  exact scan_append first (scan_letterBehind signs known middle)

end

section

variable {text front : String} {found before after : List Token} {c : Char}
  {signs chars : List Char} (operand : Operand text found) (back : String) (depth : Nat)
include operand

/-- A line with an operand behind a blank. -/
theorem Operand.line (first : scan .between front.toList = (before, .between))
    (delimits : c ∈ delimiters) (rest : scan (.begin c) chars = (after, .between))
    (written : back.toList ++ ['\n'] = c :: chars) :
    Scans ((Outline.line (front ++ text ++ back)).lines depth) (before ++ (found ++ after)) := by
  apply Scans.line depth
  rw [String.toList_append, String.toList_append, List.append_assoc, List.append_assoc, written]
  exact operand.through first delimits rest

/-- A line with an operand behind a sign. -/
theorem Operand.lineBehind (first : scan .between front.toList = (before, .symbol signs))
    (delimits : c ∈ delimiters) (rest : scan (.begin c) chars = (after, .between))
    (written : back.toList ++ ['\n'] = c :: chars) :
    Scans ((Outline.line (front ++ text ++ back)).lines depth)
      (before ++ (.ofSigns signs :: (found ++ after))) := by
  apply Scans.line depth
  rw [String.toList_append, String.toList_append, List.append_assoc, List.append_assoc, written]
  exact operand.throughSign first delimits rest

end

theorem Test.scans_head (test : Test) (named : test.Named) (depth : Nat) :
    Scans ((Outline.line ("if " ++ test.text ++ " \x7b")).lines depth)
      ([.keyword .when] ++ test.tokens ++ [.symbol .openCurly]) := by
  have back : scan (.begin ' ') "\x7b\n".toList = ([.symbol .openCurly], .between) := by decide
  match test with
  | .variable name =>
    have front : scan .between "if ".toList = ([.keyword .when], .between) := by decide
    exact (operand_name named).line " \x7b" depth front (by decide) back rfl
  | .negation name =>
    have front : scan .between ("if " ++ "!").toList = ([.keyword .when], .symbol ['!']) := by
      decide
    rw [Test.text, ← String.append_assoc]
    exact (operand_name named).lineBehind " \x7b" depth front (by decide) back rfl
  | .withoutDottedCircles => exact Scans.line depth (by decide)

theorem scans_close (depth : Nat) :
    Scans ((Outline.line ("\x7d" ++ "")).lines depth) [.symbol .closeCurly] :=
  Scans.line depth (by decide)

section

variable {name : String} (named : IsName name) (depth : Nat)
include named

theorem scans_declareFlag : Scans ((Statement.declareFlag name).outline.lines depth)
    (Statement.declareFlag name).tokens := by
  have front : scan .between "let mut ".toList = ([.name "let", .name "mut"], .between) := by decide
  have back : scan (.begin ' ') "= false;\n".toList =
      ([.symbol .equals, .name "false", .symbol .semicolon], .between) := by decide
  exact (operand_name named).line " = false;" depth front (by decide) back rfl

theorem scans_declareNumber : Scans ((Statement.declareNumber name).outline.lines depth)
    (Statement.declareNumber name).tokens := by
  have front : scan .between "let mut ".toList = ([.name "let", .name "mut"], .between) := by decide
  have back : scan (.begin ' ') "= 0;\n".toList =
      ([.symbol .equals, .number 0, .symbol .semicolon], .between) := by decide
  exact (operand_name named).line " = 0;" depth front (by decide) back rfl

theorem scans_raiseFlag : Scans ((Statement.raiseFlag name).outline.lines depth)
    (Statement.raiseFlag name).tokens := by
  have front : scan .between [] = ([], .between) := rfl
  have back : scan (.begin ' ') "= true;\n".toList =
      ([.symbol .equals, .name "true", .symbol .semicolon], .between) := by decide
  have whole := (operand_name named).through front (by decide) back
  apply Scans.line depth
  simp only [String.toList_append, List.append_assoc] at whole ⊢
  exact whole

theorem scans_increase {amount : Number} (operand : Operand amount.text amount.tokens) :
    Scans ((Statement.increase name amount).outline.lines depth)
      (Statement.increase name amount).tokens := by
  have front : scan .between [] = ([], .between) := rfl
  have middle : scan (.begin ' ') "+= ".toList = ([.symbol .plusEquals], .between) := by decide
  have back : scan (.begin ';') ['\n'] = ([.symbol .semicolon], .between) := by decide
  have whole := (operand_name named).through front (by decide)
    (operand.through middle (by decide) back)
  apply Scans.line depth
  simp only [Statement.tokens, String.toList_append, List.append_assoc] at whole ⊢
  exact whole

end

section

variable {number : Number} (operand : Operand number.text number.tokens) (depth : Nat)
include operand

theorem scans_reserve : Scans ((Statement.reserve number).outline.lines depth)
    (Statement.reserve number).tokens := by
  have front : scan .between "out.reserve(".toList =
      ([.name "out", .symbol .dot, .name "reserve"], .symbol ['(']) := by decide
  have back : scan (.begin ')') ";\n".toList = (endTokens, .between) := by decide
  have whole := operand.lineBehind ");" depth front (by decide) back rfl
  simp only [Statement.tokens, List.append_assoc] at whole ⊢
  exact whole

theorem scans_copyFront : Scans ((Statement.copyFront number).outline.lines depth)
    (Statement.copyFront number).tokens := by
  have front : scan .between "out.extend_from_slice(&buffer.glyphs[..".toList =
      (sliceTokens, .symbol ['.', '.']) := by decide
  have back : scan (.begin ']') ");\n".toList = (.symbol .closeSquare :: endTokens, .between) := by
    decide
  have whole := operand.lineBehind "]);" depth front (by decide) back rfl
  simp only [Statement.tokens, List.append_assoc] at whole ⊢
  exact whole

theorem scans_copyBetween {stop : Number} (other : Operand stop.text stop.tokens) :
    Scans ((Statement.copyBetween number stop).outline.lines depth)
      (Statement.copyBetween number stop).tokens := by
  have front : scan .between "out.extend_from_slice(&buffer.glyphs[".toList =
      (sliceTokens.dropLast, .symbol ['[']) := by decide
  have middle : scan (.begin '.') ['.'] = ([], .symbol ['.', '.']) := by decide
  have back : scan (.begin ']') ");\n".toList = (.symbol .closeSquare :: endTokens, .between) := by
    decide
  have whole := operand.throughSign front (by decide) (other.throughSign middle (by decide) back)
  apply Scans.line depth
  simp only [Statement.tokens, String.toList_append, List.append_assoc] at whole ⊢
  exact whole

theorem scans_copyGlyph : Scans ((Statement.copyGlyph number).outline.lines depth)
    (Statement.copyGlyph number).tokens := by
  have front : scan .between "out.push(buffer.glyphs[".toList =
      ((callTokens "push" ++ glyphsTokens).dropLast, .symbol ['[']) := by decide
  have back : scan (.begin ']') ");\n".toList = (.symbol .closeSquare :: endTokens, .between) := by
    decide
  have whole := operand.lineBehind "]);" depth front (by decide) back rfl
  simp only [Statement.tokens, List.append_assoc] at whole ⊢
  exact whole

/-- Only the line of the cluster names a place. -/
theorem scans_putCircle : Scans ((Statement.putCircle number).outline.lines depth)
    (Statement.putCircle number).tokens := by
  have opened : Scans ((Outline.line ("out.push(GlyphRecord" ++ " \x7b")).lines depth)
      (circleTokens.take 6) := Scans.line depth (by decide)
  have glyph : Scans ((Outline.line "glyph: DOTTED_CIRCLE,").lines (depth + 1))
      ((circleTokens.drop 6).take 4) := Scans.line (depth + 1) (by decide)
  have cluster : Scans ((Outline.line ("cluster: buffer.glyphs[" ++ number.text ++
      "].cluster,")).lines (depth + 1))
      (circleTokens.drop 10 ++ number.tokens ++ clusterTokens.take 4) := by
    have front : scan .between "cluster: buffer.glyphs[".toList =
        ((circleTokens.drop 10).dropLast, .symbol ['[']) := by decide
    have back : scan (.begin ']') ".cluster,\n".toList = (clusterTokens.take 4, .between) := by
      decide
    have whole := operand.lineBehind "].cluster," (depth + 1) front (by decide) back rfl
    rw [List.append_assoc]
    exact whole
  have continuation : Scans ((Outline.line "continuation: false,").lines (depth + 1))
      ((clusterTokens.drop 4).take 4) := Scans.line (depth + 1) (by decide)
  have closed : Scans ((Outline.line ("\x7d" ++ ");")).lines depth)
      (clusterTokens.drop 8 ++ endTokens) := Scans.line depth (by decide)
  have inside := Scans.cons (depth + 1) glyph
    (Scans.cons (depth + 1) cluster (Scans.single (depth + 1) continuation))
  have whole := Scans.block depth opened inside closed
  simp only [Statement.outline, Statement.tokens, List.append_assoc] at whole ⊢
  exact whole

end

theorem scans_whileHead {low high : Number} (first : Operand low.text low.tokens)
    (second : Operand high.text high.tokens) (depth : Nat) :
    Scans ((Outline.line ("while " ++ low.text ++ " < " ++ high.text ++ " \x7b")).lines depth)
      ([.name "while"] ++ low.tokens ++ [.symbol .less] ++ high.tokens ++
        [.symbol .openCurly]) := by
  have front : scan .between "while ".toList = ([.name "while"], .between) := by decide
  have middle : scan (.begin ' ') "< ".toList = ([.symbol .less], .between) := by decide
  have back : scan (.begin ' ') "\x7b\n".toList = ([.symbol .openCurly], .between) := by decide
  have whole := first.through front (by decide) (second.through middle (by decide) back)
  apply Scans.line depth
  simp only [String.toList_append, List.append_assoc] at whole ⊢
  exact whole

theorem scans_runHead {place : Number} (operand : Operand place.text place.tokens) (depth : Nat) :
    Scans ((Outline.line ("match prohibited_run(script, &codepoints[" ++ place.text ++ "..])" ++
        " \x7b")).lines depth) (runTokens ++ place.tokens ++ foundTokens.take 4) := by
  have front : scan .between "match prohibited_run(script, &codepoints[".toList =
      (runTokens.dropLast, .symbol ['[']) := by decide
  have back : scan (.begin '.') ".]) \x7b\n".toList = (foundTokens.take 4, .between) := by decide
  have whole := operand.lineBehind ("..])" ++ " \x7b") depth front (by decide) back rfl
  rw [String.append_assoc, List.append_assoc]
  exact whole

theorem scans_foundHead {length : String} (named : IsName length) (depth : Nat) :
    Scans ((Outline.line ("Some(" ++ length ++ ") =>" ++ " \x7b")).lines depth)
      (foundTokens.drop 4 ++
        [.name length, .symbol .closeRound, .symbol .arrow, .symbol .openCurly]) := by
  have front : scan .between "Some(".toList = ([.name "Some"], .symbol ['(']) := by decide
  have back : scan (.begin ')') " => \x7b\n".toList =
      ([.symbol .closeRound, .symbol .arrow, .symbol .openCurly], .between) := by decide
  rw [String.append_assoc]
  exact (operand_name named).lineBehind (") =>" ++ " \x7b") depth front (by decide) back rfl

mutual

theorem Statement.scans (statement : Statement) (named : statement.Named) (depth : Nat) :
    Scans (statement.outline.lines depth) statement.tokens := by
  match statement with
  | .blank => exact Scans.line depth rfl
  | .returnFalse => exact Scans.line depth (by decide)
  | .declareCodepoints => exact Scans.line depth (by decide)
  | .declareOutput => exact Scans.line depth (by decide)
  | .declareFlag name => exact scans_declareFlag named depth
  | .declareNumber name => exact scans_declareNumber named depth
  | .raiseFlag name => exact scans_raiseFlag named depth
  | .increase name amount => exact scans_increase named.1 depth (amount.operand named.2)
  | .reserve count => exact scans_reserve (count.operand named) depth
  | .copyFront stop => exact scans_copyFront (stop.operand named) depth
  | .copyBetween start stop =>
    exact scans_copyBetween (start.operand named.1) depth (stop.operand named.2)
  | .copyGlyph place => exact scans_copyGlyph (place.operand named) depth
  | .putCircle place => exact scans_putCircle (place.operand named) depth
  | .replaceGlyphs => exact Scans.line depth (by decide)
  | .when test body =>
    have opened := test.scans_head named.1 depth
    have whole := Scans.block depth opened (scans_all body named.2 (depth + 1)) (scans_close depth)
    simp only [Statement.outline, Statement.tokens, List.append_assoc] at whole ⊢
    exact whole
  | .whileBelow low high body =>
    have opened := scans_whileHead (low.operand named.1) (high.operand named.2.1) depth
    have whole :=
      Scans.block depth opened (scans_all body named.2.2 (depth + 1)) (scans_close depth)
    simp only [Statement.outline, Statement.tokens, List.append_assoc] at whole ⊢
    exact whole
  | .matchRun place length found otherwise =>
    have opened := scans_runHead (place.operand named.1) depth
    have first := Scans.block (depth + 1) (scans_foundHead named.2.1 (depth + 1))
      (scans_all found named.2.2.1 (depth + 2)) (scans_close (depth + 1))
    have noneHead : Scans ((Outline.line ("None =>" ++ " \x7b")).lines (depth + 1))
        [.name "None", .symbol .arrow, .symbol .openCurly] := Scans.line (depth + 1) (by decide)
    have second := Scans.block (depth + 1) noneHead
      (scans_all otherwise named.2.2.2 (depth + 2)) (scans_close (depth + 1))
    have whole := Scans.block depth opened
      (Scans.cons (depth + 1) first (Scans.single (depth + 1) second)) (scans_close depth)
    simp only [Statement.outline, Statement.tokens, List.append_assoc] at whole ⊢
    exact whole

theorem scans_all (statements : List Statement) (named : AllNamed statements) (depth : Nat) :
    Scans (Outline.linesOfAll depth (outlinesOf statements)) (tokensOf statements) := by
  match statements with
  | [] => rfl
  | statement :: rest =>
    exact Scans.cons depth (statement.scans named.1 depth) (scans_all rest named.2 depth)

end

theorem Function.scans (function : Function) (body : AllNamed function.body)
    (answer : IsName function.answer) :
    Scans (Outline.linesOfAll 0 [function.outline]) function.tokens := by
  have opened : Scans ((Outline.line ("pub fn scan_and_fix(buffer: &mut GlyphBuffer, " ++
      "script: &str) -> bool" ++ " \x7b")).lines 0) headTokens := Scans.line 0 (by decide)
  have answered : Scans ((Outline.line function.answer).lines 1) [.name function.answer] :=
    Scans.line 1 ((operand_name answer).scanned '\n' (by decide))
  have inside := Scans.appendAll 1 (scans_all function.body body 1) (Scans.single 1 answered)
  have whole := Scans.single 0 (Scans.block 0 opened inside (scans_close 0))
  simp only [Function.tokens, List.append_assoc] at whole ⊢
  exact whole

theorem scans_scanAndFix : Scans (Outline.linesOfAll 0 [scanAndFix.outline]) scanAndFix.tokens := by
  have i : IsName "i" := by decide
  have len : IsName "len" := by decide
  have fixed : IsName "fixed" := by decide
  apply scanAndFix.scans _ fixed
  simp [scanAndFix, AllNamed, Statement.Named, Test.Named, Number.Named, i, len, fixed]

set_option maxRecDepth 4000 in
theorem parse_scanAndFix :
    Parser.read? scanAndFix.tokens = some scanAndFix.withoutBlanks := rfl

theorem read?_scanAndFix :
    Function.read? (Outline.text [scanAndFix.outline]) = some scanAndFix.withoutBlanks := by
  have scanned := scans_scanAndFix
  rw [Generated.Scans] at scanned
  rw [Function.read?, Outline.text, String.toList_ofList, Generated.tokens, scanned]
  simp only [Generated.Mode.pending, List.append_nil]
  exact parse_scanAndFix

end ShapingTables.BufferProgram
