import ShapingTables.Proofs.Listing.MatchedArms

/-! The text of a matching expression is read as the expression. Its tokens come first,
line by line whatever the indentation; what the tokens are read as comes second. -/
namespace ShapingTables

open Generated
open Generated.Matching (Leads getTokens listTokens thenTokens armsTokens)
open Text (Outline)

mutual

/-- Codepoints are words, and every arm has a label. -/
def MatchExpression.OfWords : MatchExpression → Prop
  | .found _ => True
  | .slice _ glyphs => ∀ glyph ∈ glyphs, glyph < wordSize
  | .select _ arms => arms.OfWords

def Arms.OfWords : Arms → Prop
  | .nil => True
  | .cons labels body others =>
    labels ≠ [] ∧ (∀ label ∈ labels, label < wordSize) ∧ body.OfWords ∧ others.OfWords

end

theorem Arms.OfWords.add {arms : Arms} (words : arms.OfWords) {label : Nat}
    (small : label < wordSize) {body : MatchExpression} (bodyWords : body.OfWords) :
    (arms.add label body).OfWords := by
  induction arms using listInduction with
  | nil => exact ⟨by simp, by simpa using small, bodyWords, trivial⟩
  | cons labels present others ih =>
    obtain ⟨nonempty, smallLabels, presentWords, later⟩ := words
    rw [Arms.add]
    split
    · refine ⟨by simp, ?_, presentWords, later⟩
      intro other member
      rcases List.mem_append.mp member with old | new
      · exact smallLabels other old
      · exact List.mem_singleton.mp new ▸ small
    · exact ⟨nonempty, smallLabels, presentWords, ih later⟩

mutual

theorem TrieNode.OfWords.ofNode (node : TrieNode) (words : node.OfWords) (depth : Nat) :
    (MatchExpression.ofNode depth node).OfWords := by
  match node with
  | .chain [] => trivial
  | .chain (first :: rest) => exact words
  | .branch children => exact Children.OfWords.ofChildren children words (depth + 1) .nil trivial

theorem Children.OfWords.ofChildren (children : Children) (words : children.OfWords) (depth : Nat)
    (grouped : Arms) (groupedWords : grouped.OfWords) :
    (Arms.ofChildren depth grouped children).OfWords := by
  match children with
  | .nil => exact groupedWords
  | .cons label child others =>
    obtain ⟨small, own, _, later⟩ := words
    exact Children.OfWords.ofChildren others later depth _
      (groupedWords.add small (TrieNode.OfWords.ofNode child own depth))

end

/-- Numbers with a symbol between each two of them. -/
def separated (symbol : Generated.Symbol) : List Nat → List Token
  | [] => []
  | first :: rest => .number first :: rest.flatMap fun value => [Token.symbol symbol, .number value]

/-- What stands in front of the glyphs to compare. -/
def compareTokens (start stop : Nat) : List Token :=
  [.name "matches", .symbol .exclamation, .symbol .openRound] ++ getTokens ++
    [.number start, .symbol .doubleDot, .number stop] ++ listTokens

/-- What stands in front of the arms. -/
def selectTokens (place : Nat) : List Token :=
  [.keyword .select, .symbol .star] ++ getTokens ++ [.number place] ++ armsTokens

mutual

def MatchExpression.tokens : MatchExpression → List Token
  | .found length => [.name "Some", .symbol .openRound, .number length, .symbol .closeRound]
  | .slice start glyphs =>
    compareTokens start (start + glyphs.length) ++
      (separated .comma glyphs ++ [.symbol .closeSquare]) ++
      (thenTokens ++ [.number (start + glyphs.length), .symbol .closeRound])
  | .select place arms => selectTokens place ++ arms.tokens ++ [.symbol .closeCurly]

def Arms.tokens : Arms → List Token
  | .nil => [.keyword .anything, .symbol .arrow, .name "None", .symbol .comma]
  | .cons labels body others =>
    separated .bar labels ++ [.symbol .arrow] ++ (body.tokens ++ [.symbol .comma]) ++ others.tokens

end

theorem map_readWord {value : Nat} (small : value < wordSize) (next : Matching.Focus)
    (frames : List Matching.Frame) :
    (Matching.readWord value next).map (fun focus => (⟨focus, frames⟩ : Matching.Reader)) =
      some ⟨next, frames⟩ := by
  rw [Matching.readWord, if_pos small]
  rfl

/-- The numbers of a list behind the first, where one focus expects a number and another
what is behind it. -/
theorem leads_further {symbol : Generated.Symbol} {more behind : List Nat → Matching.Focus}
    {frames : List Matching.Frame}
    (number : ∀ seen value, value < wordSize → Matching.step ⟨more seen, frames⟩ (.number value) =
      some ⟨behind (seen ++ [value]), frames⟩)
    (goOn : ∀ seen, Matching.step ⟨behind seen, frames⟩ (.symbol symbol) =
      some ⟨more seen, frames⟩)
    {rest : List Nat} (words : ∀ value ∈ rest, value < wordSize) (seen : List Nat) :
    Leads (rest.flatMap fun value => [Token.symbol symbol, .number value])
      ⟨behind seen, frames⟩ ⟨behind (seen ++ rest), frames⟩ := by
  induction rest generalizing seen with
  | nil =>
    rw [List.append_nil]
    rfl
  | cons value rest ih =>
    obtain ⟨small, later⟩ := List.forall_mem_cons.mp words
    have one : Leads [Token.symbol symbol, .number value] ⟨behind seen, frames⟩
        ⟨behind (seen ++ [value]), frames⟩ := by
      rw [Leads, List.foldlM_cons, goOn, Option.bind_eq_bind, Option.bind_some, List.foldlM_cons,
        number seen value small]
      rfl
    have others := ih later (seen ++ [value])
    rw [List.append_assoc, List.singleton_append] at others
    exact one.append others

theorem leads_glyphs {glyphs : List Nat} (words : ∀ glyph ∈ glyphs, glyph < wordSize)
    (start stop : Nat) (frames : List Matching.Frame) :
    Leads (separated .comma glyphs ++ [.symbol .closeSquare]) ⟨.glyph start stop [], frames⟩
      ⟨.following thenTokens (.total start stop glyphs), frames⟩ := by
  cases glyphs with
  | nil => rfl
  | cons glyph rest =>
    obtain ⟨small, later⟩ := List.forall_mem_cons.mp words
    have number : ∀ seen value, value < wordSize →
        Matching.step ⟨.glyph start stop seen, frames⟩ (.number value) =
          some ⟨.behindGlyph start stop (seen ++ [value]), frames⟩ :=
      fun seen value small => map_readWord small _ frames
    have first : Leads [.number glyph] ⟨.glyph start stop [], frames⟩
        ⟨.behindGlyph start stop [glyph], frames⟩ := by
      rw [Leads, List.foldlM_cons, number [] glyph small]
      rfl
    have goOn : ∀ seen, Matching.step ⟨.behindGlyph start stop seen, frames⟩ (.symbol .comma) =
        some ⟨.glyph start stop seen, frames⟩ := fun _ => rfl
    exact (first.append (leads_further number goOn later [glyph])).append rfl

theorem leads_labels {labels : List Nat} (nonempty : labels ≠ [])
    (words : ∀ label ∈ labels, label < wordSize) (place : Nat)
    (done : List (LabelPattern × Matching)) (frames : List Matching.Frame) :
    Leads (separated .bar labels ++ [.symbol .arrow]) ⟨.arm place done, frames⟩
      ⟨.expression, ⟨place, done, .oneOf labels⟩ :: frames⟩ := by
  cases labels with
  | nil => contradiction
  | cons label rest =>
    obtain ⟨small, later⟩ := List.forall_mem_cons.mp words
    have number : ∀ seen value, value < wordSize →
        Matching.step ⟨.label place done seen, frames⟩ (.number value) =
          some ⟨.behindLabel place done (seen ++ [value]), frames⟩ :=
      fun seen value small => map_readWord small _ frames
    have first : Leads [.number label] ⟨.arm place done, frames⟩
        ⟨.behindLabel place done [label], frames⟩ := by
      rw [Leads, List.foldlM_cons]
      exact congrArg (· >>= _) (map_readWord small _ frames)
    have goOn : ∀ seen, Matching.step ⟨.behindLabel place done seen, frames⟩ (.symbol .bar) =
        some ⟨.label place done seen, frames⟩ := fun _ => rfl
    exact (first.append (leads_further number goOn later [label])).append rfl

mutual

theorem MatchExpression.leads_tokens (expression : MatchExpression) (words : expression.OfWords)
    (frames : List Matching.Frame) :
    Leads expression.tokens ⟨.expression, frames⟩ ⟨.behind expression.code, frames⟩ := by
  match expression with
  | .found length => rfl
  | .slice start glyphs =>
    have head : Leads (compareTokens start (start + glyphs.length)) ⟨.expression, frames⟩
        ⟨.glyph start (start + glyphs.length) [], frames⟩ := rfl
    exact (head.append (leads_glyphs words start (start + glyphs.length) frames)).append rfl
  | .select place arms =>
    have head : Leads (selectTokens place) ⟨.expression, frames⟩ ⟨.arm place [], frames⟩ := rfl
    have inside := Arms.leads_tokens arms words place [] frames
    have last : Leads [.symbol .closeCurly] ⟨.arm place ([] ++ arms.code.toList), frames⟩
        ⟨.behind (.select place (.ofList arms.code.toList)), frames⟩ := rfl
    rw [MatchingArms.ofList_toList] at last
    exact (head.append inside).append last

theorem Arms.leads_tokens (arms : Arms) (words : arms.OfWords) (place : Nat)
    (done : List (LabelPattern × Matching)) (frames : List Matching.Frame) :
    Leads arms.tokens ⟨.arm place done, frames⟩
      ⟨.arm place (done ++ arms.code.toList), frames⟩ := by
  match arms with
  | .nil => rfl
  | .cons labels body others =>
    obtain ⟨nonempty, small, bodyWords, later⟩ := words
    have pattern := leads_labels nonempty small place done frames
    have whole := MatchExpression.leads_tokens body bodyWords
      (⟨place, done, .oneOf labels⟩ :: frames)
    have comma : Leads [.symbol .comma] ⟨.behind body.code, ⟨place, done, .oneOf labels⟩ :: frames⟩
        ⟨.arm place (done ++ [(.oneOf labels, body.code)]), frames⟩ := rfl
    have rest := Arms.leads_tokens others later place (done ++ [(.oneOf labels, body.code)]) frames
    rw [List.append_assoc, List.singleton_append] at rest
    exact (pattern.append (whole.append comma)).append rest

end

theorem intercalate_cons (separator first : List α) (rest : List (List α)) :
    separator.intercalate (first :: rest) = first ++ rest.flatMap (separator ++ ·) := by
  induction rest generalizing first with
  | nil => simp [List.intercalate]
  | cons second rest ih =>
    rw [List.intercalate_cons_cons, ih, List.flatMap_cons, List.append_assoc, List.append_assoc]

theorem toList_literal (codepoint : Nat) :
    (MatchExpression.literal codepoint).toList = ['0', 'x'] ++ (Text.hex4 codepoint).toList := by
  rw [MatchExpression.literal, String.toList_append]
  rfl

theorem literal_letters (codepoint : Nat) : (MatchExpression.literal codepoint).toList ≠ [] ∧
    ∀ c ∈ (MatchExpression.literal codepoint).toList, isLetter c = true := by
  have marks : ['0', 'x'].all isLetter = true := rfl
  rw [toList_literal]
  refine ⟨by simp, fun c member => ?_⟩
  rcases List.mem_append.mp member with mark | digit
  · exact List.all_eq_true.mp marks c mark
  · exact isLetter_hex c digit

theorem ofLetters_literal (codepoint : Nat) :
    Token.ofLetters (MatchExpression.literal codepoint).toList = .number codepoint := by
  rw [toList_literal]
  exact ofLetters_hex 4 codepoint

/-- Words with a separator in front of each, where a word and another character stand around. -/
theorem scan_further {separator : List Char} {symbol : Generated.Symbol}
    (separates : ∀ word, scan (.word word) separator =
      ([.ofLetters word, .symbol symbol], .between))
    (last : Char) (ends : isLetter last = false) (rest : List Nat) (codepoint : Nat) :
    scan (.word (MatchExpression.literal codepoint).toList)
      (rest.flatMap (fun value => separator ++ (MatchExpression.literal value).toList) ++ [last]) =
      (separated symbol (codepoint :: rest), .begin last) := by
  induction rest generalizing codepoint with
  | nil =>
    have ended : Mode.step last (.word (MatchExpression.literal codepoint).toList) =
        ([.number codepoint], .begin last) := by
      rw [Mode.step, if_neg (by simp [ends]), ofLetters_literal]
    exact scan_cons ended rfl
  | cons value rest ih =>
    have comma := separates (MatchExpression.literal codepoint).toList
    obtain ⟨nonempty, letters⟩ := literal_letters value
    rw [ofLetters_literal] at comma
    rw [List.flatMap_cons, List.append_assoc, List.append_assoc]
    exact scan_append comma (scan_append (scan_word nonempty letters) (ih value))

theorem toList_joined (separator : String) (first : Nat) (rest : List Nat) :
    (separator.intercalate ((first :: rest).map MatchExpression.literal)).toList =
      (MatchExpression.literal first).toList ++
        rest.flatMap fun value => separator.toList ++ (MatchExpression.literal value).toList := by
  rw [String.toList_intercalate, List.map_map, List.map_cons, intercalate_cons, List.flatMap_map]
  rfl

theorem scan_labels {labels : List Nat} (nonempty : labels ≠ []) :
    scan .between (MatchExpression.labelList labels ++ " => ").toList =
      (separated .bar labels ++ [.symbol .arrow], .between) := by
  cases labels with
  | nil => contradiction
  | cons label rest =>
    obtain ⟨written, letters⟩ := literal_letters label
    have bars : ∀ word, scan (.word word) " | ".toList =
        ([.ofLetters word, .symbol .bar], .between) := fun _ => rfl
    have numbers := scan_append (scan_word written letters)
      (scan_further bars ' ' rfl rest label)
    have arrow : scan (.begin ' ') "=> ".toList = ([.symbol .arrow], .between) := rfl
    have split : (MatchExpression.labelList (label :: rest) ++ " => ").toList =
        ((MatchExpression.literal label).toList ++
          (rest.flatMap (fun value => " | ".toList ++ (MatchExpression.literal value).toList) ++
            [' '])) ++ "=> ".toList := by
      rw [String.toList_append, MatchExpression.labelList, toList_joined, List.append_assoc,
        List.append_assoc, List.append_assoc]
      rfl
    rw [split]
    exact scan_append numbers arrow

theorem scan_glyphs (glyphs : List Nat) :
    scan (.symbol ['['])
      ((", ".intercalate (glyphs.map MatchExpression.literal)).toList ++ [']']) =
      (.symbol .openSquare :: separated .comma glyphs, .symbol [']']) := by
  cases glyphs with
  | nil => rfl
  | cons glyph rest =>
    obtain ⟨written, letters⟩ := literal_letters glyph
    have commas : ∀ word, scan (.word word) ", ".toList =
        ([.ofLetters word, .symbol .comma], .between) := fun _ => rfl
    rw [toList_joined, List.append_assoc]
    exact scan_append (scan_wordBehind ['['] written letters)
      (scan_further commas ']' rfl rest glyph)

/-- A number behind a symbol. -/
theorem scan_number (signs : List Char) (n : Nat) :
    scan (.symbol signs) (toString n).toList = ([.ofSigns signs], .word (toString n).toList) :=
  scan_wordBehind signs (Text.toString_ne_nil n) isLetter_toString

/-- What may stand behind an expression on its last line, and the tokens that it has. -/
structure Closing (text : String) (found : List Token) : Prop where
  round : scan (.symbol [')']) (text.toList ++ ['\n']) = (.symbol .closeRound :: found, .between)
  curly : scan (.symbol ['\x7d']) (text.toList ++ ['\n']) = (.symbol .closeCurly :: found, .between)

theorem scan_found (length : Nat) {closing : String} {found : List Token}
    (closes : Closing closing found) :
    scan .between (("Some(" ++ toString length ++ ")").toList ++ (closing.toList ++ ['\n'])) =
      ((MatchExpression.found length).tokens ++ found, .between) := by
  have head : scan .between "Some(".toList = ([.name "Some"], .symbol ['(']) := by decide
  have ended : scan (.word (toString length).toList) ")".toList =
      ([.ofLetters (toString length).toList], .symbol [')']) := rfl
  rw [ofLetters_toString] at ended
  rw [String.toList_append, String.toList_append, List.append_assoc, List.append_assoc]
  have whole :=
    scan_append head (scan_append (scan_number ['('] length) (scan_append ended closes.round))
  exact whole

theorem scan_slice (start : Nat) (glyphs : List Nat) {closing : String} {found : List Token}
    (closes : Closing closing found) :
    scan .between ((MatchExpression.sliceText start glyphs).toList ++ (closing.toList ++ ['\n'])) =
      ((MatchExpression.slice start glyphs).tokens ++ found, .between) := by
  have head : scan .between "matches!(glyphs.get(".toList =
      ([.name "matches", .symbol .exclamation, .symbol .openRound, .name "glyphs", .symbol .dot,
        .name "get"], .symbol ['(']) := by decide
  have dots : scan (.word (toString start).toList) "..".toList =
      ([.ofLetters (toString start).toList], .symbol ['.', '.']) := rfl
  have opened : scan (.word (toString (start + glyphs.length)).toList) "), Some([".toList =
      ([.ofLetters (toString (start + glyphs.length)).toList, .symbol .closeRound, .symbol .comma,
        .name "Some", .symbol .openRound], .symbol ['[']) := rfl
  have between : scan (.symbol [']']) ")).then_some(".toList =
      ([.symbol .closeSquare, .symbol .closeRound, .symbol .closeRound, .symbol .dot,
        .name "then_some"], .symbol ['(']) := by decide
  have ended : scan (.word (toString (start + glyphs.length)).toList) ")".toList =
      ([.ofLetters (toString (start + glyphs.length)).toList], .symbol [')']) := rfl
  rw [ofLetters_toString] at dots opened ended
  have last := scan_append between
    (scan_append (scan_number ['('] (start + glyphs.length)) (scan_append ended closes.round))
  have whole := scan_append head (scan_append (scan_number ['('] start) (scan_append dots
    (scan_append (scan_number ['.', '.'] (start + glyphs.length))
      (scan_append opened (scan_append (scan_glyphs glyphs) last)))))
  have written : (MatchExpression.sliceText start glyphs).toList ++ (closing.toList ++ ['\n']) =
      "matches!(glyphs.get(".toList ++ ((toString start).toList ++ ("..".toList ++
        ((toString (start + glyphs.length)).toList ++ ("), Some([".toList ++
          (((", ".intercalate (glyphs.map MatchExpression.literal)).toList ++ [']']) ++
            (")).then_some(".toList ++ ((toString (start + glyphs.length)).toList ++
              (")".toList ++ (closing.toList ++ ['\n']))))))))) := by
    have bracket : "])).then_some(".toList = [']'] ++ ")).then_some(".toList := rfl
    unfold MatchExpression.sliceText
    simp only [String.toList_append, List.append_assoc, bracket]
  rw [written, whole]
  simp only [MatchExpression.tokens, compareTokens, getTokens, listTokens, thenTokens,
    List.cons_append, List.nil_append, List.append_assoc]
  rfl

theorem scan_selectHead (place : Nat) :
    scan .between ("match *glyphs.get(" ++ toString place ++ ")? \x7b\n").toList =
      (selectTokens place, .between) := by
  have head : scan .between "match *glyphs.get(".toList =
      ([.keyword .select, .symbol .star, .name "glyphs", .symbol .dot, .name "get"],
        .symbol ['(']) := by decide
  have last : scan (.word (toString place).toList) ")? \x7b\n".toList =
      ([.ofLetters (toString place).toList, .symbol .closeRound, .symbol .question,
        .symbol .openCurly], .between) := rfl
  rw [ofLetters_toString] at last
  rw [String.toList_append, String.toList_append, List.append_assoc]
  have whole := scan_append head (scan_append (scan_number ['('] place) last)
  exact whole

mutual

/-- The lines of an expression have its tokens, whatever the indentation. -/
theorem MatchExpression.scans (expression : MatchExpression) (words : expression.OfWords)
    (depth : Nat) {opening closing : String} {front back : List Token}
    (opens : scan .between opening.toList = (front, .between)) (closes : Closing closing back) :
    Scans ((expression.outline opening closing).lines depth)
      (front ++ (expression.tokens ++ back)) := by
  match expression with
  | .found length =>
    apply Scans.line depth
    have whole := scan_append opens (scan_found length closes)
    simpa only [String.toList_append, List.append_assoc] using whole
  | .slice start glyphs =>
    apply Scans.line depth
    have whole := scan_append opens (scan_slice start glyphs closes)
    simpa only [String.toList_append, List.append_assoc] using whole
  | .select place arms =>
    have head : Scans ((Outline.line (opening ++ "match *glyphs.get(" ++ toString place ++ ")?" ++
        " \x7b")).lines depth) (front ++ selectTokens place) := by
      apply Scans.line depth
      have whole := scan_append opens (scan_selectHead place)
      simp only [String.toList_append, List.append_assoc] at whole ⊢
      exact whole
    have last : Scans ((Outline.line ("\x7d" ++ closing)).lines depth)
        (.symbol .closeCurly :: back) := by
      apply Scans.line depth
      rw [String.toList_append, List.append_assoc]
      exact scan_append (rfl : scan .between "\x7d".toList = ([], .symbol ['\x7d'])) closes.curly
    have whole := head.append ((Arms.scans arms words (depth + 1)).append last)
    rw [MatchExpression.outline, Outline.lines, MatchExpression.tokens]
    simp only [List.append_assoc] at whole ⊢
    exact whole

theorem Arms.scans (arms : Arms) (words : arms.OfWords) (depth : Nat) :
    Scans (Outline.linesOfAll depth arms.outlines) arms.tokens := by
  match arms with
  | .nil =>
    have others : scan .between ("_ => None,".toList ++ ['\n']) = (Arms.nil.tokens, .between) := by
      decide
    exact Scans.line depth others
  | .cons labels body others =>
    obtain ⟨nonempty, _, bodyWords, later⟩ := words
    have comma : Closing "," [.symbol .comma] := ⟨by decide, by decide⟩
    have first := MatchExpression.scans body bodyWords depth (scan_labels nonempty) comma
    have whole := first.append (Arms.scans others later depth)
    rw [Arms.outlines, Outline.linesOfAll, Arms.tokens]
    simpa only [List.append_assoc] using whole

end

namespace MatchExpression

/-- The text of an expression behind the indentation of its first line. -/
def text (indent : Nat) (expression : MatchExpression) : String :=
  String.ofList
    (("\n".intercalate ((expression.outline "" "").lines indent)).toList.drop (4 * indent))

theorem isEmpty_around {core : String} (visible : core.isEmpty = false) (front back : String) :
    (front ++ core ++ back).isEmpty = false := by
  apply Bool.eq_false_iff.mpr
  intro empty
  have letters := congrArg String.toList (String.isEmpty_iff.mp empty)
  simp_all

theorem isEmpty_sliceText (start : Nat) (glyphs : List Nat) :
    (sliceText start glyphs).isEmpty = false := by
  unfold sliceText
  rw [String.append_assoc]
  exact isEmpty_around (by decide) _ _

/-- The first line is indented as deep as asked for. -/
theorem exists_lines (expression : MatchExpression) (indent : Nat) : ∃ head rest,
    (expression.outline "" "").lines indent = Outline.indented indent head :: rest ∧
      head.isEmpty = false := by
  cases expression with
  | found length =>
    refine ⟨"" ++ "Some(" ++ toString length ++ ")" ++ "", [], rfl, ?_⟩
    exact isEmpty_around (by decide) _ _
  | slice start glyphs =>
    refine ⟨"" ++ sliceText start glyphs ++ "", [], rfl, ?_⟩
    exact isEmpty_around (isEmpty_sliceText start glyphs) _ _
  | select place arms =>
    refine ⟨"" ++ "match *glyphs.get(" ++ toString place ++ ")?" ++ " \x7b", _, rfl, ?_⟩
    exact isEmpty_around (by decide) _ _

theorem flatMap_lineFeeds (rest : List (List Char)) :
    rest.flatMap (['\n'] ++ ·) ++ ['\n'] = '\n' :: rest.flatMap (· ++ ['\n']) := by
  induction rest with
  | nil => rfl
  | cons line rest ih =>
    rw [List.flatMap_cons, List.append_assoc, ih]
    simp

/-- The lines with their line feeds are the text behind its indentation, with one more line
feed. -/
theorem flatMap_lines (expression : MatchExpression) (indent : Nat) :
    ((expression.outline "" "").lines indent).flatMap (fun line => line.toList ++ ['\n']) =
      List.replicate (4 * indent) ' ' ++ ((expression.text indent).toList ++ ['\n']) := by
  obtain ⟨head, rest, lines, visible⟩ := expression.exists_lines indent
  have indentation : (Outline.indented indent head).toList =
      List.replicate (4 * indent) ' ' ++ head.toList := by
    rw [Outline.indented, if_neg (by simp [visible]), String.toList_append, String.toList_ofList]
  have written : (expression.text indent).toList =
      head.toList ++ (rest.map String.toList).flatMap (['\n'] ++ ·) := by
    rw [text, lines, String.toList_ofList, String.toList_intercalate, List.map_cons,
      intercalate_cons, indentation, List.append_assoc]
    exact List.drop_left' (List.length_replicate ..)
  rw [lines, written, List.append_assoc, flatMap_lineFeeds, List.flatMap_cons, indentation,
    List.flatMap_map]
  simp

theorem tokens_text (expression : MatchExpression) (words : expression.OfWords) (indent : Nat) :
    Generated.tokens (expression.text indent).toList = expression.tokens := by
  have closing : Closing "" [] := ⟨by decide, by decide⟩
  have scanned := expression.scans words indent
    (rfl : scan .between "".toList = ([], .between)) closing
  rw [Scans, expression.flatMap_lines, List.nil_append, List.append_nil] at scanned
  apply tokens_eq
  rw [← scanned]
  exact (scan_append (scan_blanks (4 * indent)) rfl).symm

theorem read?_text (expression : MatchExpression) (words : expression.OfWords) (indent : Nat) :
    Matching.read? (expression.text indent) = some expression.code := by
  rw [Matching.read?, tokens_text expression words, leads_tokens expression words []]
  rfl

/-- Bodies with one text are one expression, so arms are the same whether they are told
apart by their texts or by their expressions. -/
theorem text_injective {one other : MatchExpression} (words : one.OfWords)
    (otherWords : other.OfWords) {indent : Nat} (same : one.text indent = other.text indent) :
    one = other := by
  have read := read?_text one words indent
  rw [same, read?_text other otherWords indent] at read
  exact code_injective one other (Option.some.inj read).symm

/-- The text generated for a node is read as an expression that answers what the node
answers behind the glyphs already matched, counted from the first glyph of all, and
each label of a child stands in one arm of its match. -/
theorem read?_ofNode (node : TrieNode) (words : node.OfWords) (depth indent : Nat) :
    ∃ code, Matching.read? ((ofNode depth node).text indent) = some code ∧
      node.Partitioned code ∧
      (∀ glyphs, depth ≤ glyphs.length → code.eval glyphs =
        .ok ((node.matchLength? (glyphs.drop depth)).map (· + depth))) ∧
      (depth = 0 → ∀ glyphs, code.eval glyphs = .ok (node.matchLength? glyphs)) := by
  have behind : ∀ glyphs, depth ≤ glyphs.length → (ofNode depth node).code.eval glyphs =
      .ok ((node.matchLength? (glyphs.drop depth)).map (· + depth)) := by
    intro glyphs bound
    rw [eval_code, eval_ofNode node words depth glyphs bound]
  refine ⟨_, read?_text _ (TrieNode.OfWords.ofNode node words depth) indent,
    TrieNode.partitioned_ofNode node words depth, behind, ?_⟩
  rintro rfl glyphs
  rw [behind glyphs (Nat.zero_le _)]
  simp

/-- Two children with one expression, and one that is itself a branch. -/
def sharedArms : TrieNode :=
  .branch (.cons 0x0905 (.chain [0x0946, 0x093E]) (.cons 0x0909 (.chain [0x0946, 0x093E])
    (.cons 0x0912 (.branch (.cons 0x0945 (.chain []) (.cons 0x0946 (.chain []) .nil))) .nil)))

theorem read?_ofNode_sharedArms : sharedArms.OfWords ∧
    ∃ code, Matching.read? ((ofNode 0 sharedArms).text 1) = some code ∧
      sharedArms.Partitioned code ∧
      code.eval [0x0909, 0x0946, 0x093E, 0x0905] = .ok (some 3) ∧
      code.eval [0x0912, 0x0946] = .ok (some 2) ∧ code.eval [0x0912] = .ok none := by
  have words : sharedArms.OfWords := by
    simp [sharedArms, TrieNode.OfWords, Children.OfWords, Children.toList, wordSize]
  obtain ⟨code, read, partitioned, _, answers⟩ := read?_ofNode sharedArms words 0 1
  refine ⟨words, code, read, partitioned, ?_, ?_, ?_⟩
  all_goals
    rw [answers rfl]
    rfl

end MatchExpression

end ShapingTables
