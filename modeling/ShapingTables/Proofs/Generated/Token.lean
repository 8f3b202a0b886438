import ShapingTables.Proofs.Numerals
import ShapingTables.Text.Outline
import ShapingTables.Text.Split

/-! The tokens of a generated file. A scanner takes one character at a time and
always makes a token as long as it can be. Comments are dropped; those between
`/*` and `*/` nest. The token of a string literal has the characters that the literal
stands for. A text is scanned piece by piece, the mode behind one piece being the mode
in front of the next. -/
namespace ShapingTables.Generated

inductive Keyword where
  | anything
  | cast
  | constant
  | exported
  | function
  | giveBack
  | select
  | use
  | when
  deriving DecidableEq, Repr

namespace Keyword

def all : List Keyword := [
  .anything, .cast, .constant, .exported, .function, .giveBack, .select, .use, .when]

def letters : Keyword → List Char
  | .anything => ['_']
  | .cast => ['a', 's']
  | .constant => ['c', 'o', 'n', 's', 't']
  | .exported => ['p', 'u', 'b']
  | .function => ['f', 'n']
  | .giveBack => ['r', 'e', 't', 'u', 'r', 'n']
  | .select => ['m', 'a', 't', 'c', 'h']
  | .use => ['u', 's', 'e']
  | .when => ['i', 'f']

end Keyword

/-- Every symbol without its last sign is a symbol, so the longest one is found sign by sign. -/
inductive Symbol where
  | ampersand
  | arrow
  | bar
  | blockComment
  | closeCurly
  | closeRound
  | closeSquare
  | colon
  | comma
  | dot
  | doubleColon
  | doubleDot
  | equals
  | exclamation
  | gives
  | greater
  | hash
  | less
  | lineComment
  | minus
  | openCurly
  | openRound
  | openSquare
  | plus
  | plusEquals
  | question
  | semicolon
  | shiftRight
  | slash
  | star
  | through
  deriving DecidableEq, Repr

namespace Symbol

def all : List Symbol := [
  .ampersand, .arrow, .bar, .blockComment, .closeCurly, .closeRound, .closeSquare, .colon, .comma,
  .dot, .doubleColon, .doubleDot, .equals, .exclamation, .gives, .greater, .hash, .less,
  .lineComment, .minus, .openCurly, .openRound, .openSquare, .plus, .plusEquals, .question,
  .semicolon, .shiftRight, .slash, .star, .through]

def signs : Symbol → List Char
  | .ampersand => ['&']
  | .arrow => ['=', '>']
  | .bar => ['|']
  | .blockComment => ['/', '*']
  | .closeCurly => ['\x7d']
  | .closeRound => [')']
  | .closeSquare => [']']
  | .colon => [':']
  | .comma => [',']
  | .dot => ['.']
  | .doubleColon => [':', ':']
  | .doubleDot => ['.', '.']
  | .equals => ['=']
  | .exclamation => ['!']
  | .gives => ['-', '>']
  | .greater => ['>']
  | .hash => ['#']
  | .less => ['<']
  | .lineComment => ['/', '/']
  | .minus => ['-']
  | .openCurly => ['\x7b']
  | .openRound => ['(']
  | .openSquare => ['[']
  | .plus => ['+']
  | .plusEquals => ['+', '=']
  | .question => ['?']
  | .semicolon => [';']
  | .shiftRight => ['>', '>']
  | .slash => ['/']
  | .star => ['*']
  | .through => ['.', '.', '=']

def ofSigns? (signs : List Char) : Option Symbol := all.find? (·.signs == signs)

end Symbol

inductive Token where
  | keyword (which : Keyword)
  | name (text : String)
  | number (value : Nat)
  | text (value : String)
  | symbol (which : Symbol)
  | malformed
  deriving DecidableEq, Repr

def isLetter (c : Char) : Bool := c.isAlphanum || c == '_'

/-- Decimal digits, or hexadecimal ones behind `0x`. -/
def numeral? : List Char → Option Nat
  | '0' :: 'x' :: digits =>
    if digits.isEmpty then none else (digits.mapM Text.hexDigitValue?).map Text.ofHexDigits
  | digits => if digits.all Char.isDigit then some (Nat.ofDigitChars 10 digits 0) else none

namespace Token

/-- What starts with a digit is a numeral, what is no keyword a name. -/
def ofLetters (letters : List Char) : Token :=
  if (letters.head?.map Char.isDigit).getD false then
    match numeral? letters with
    | some value => number value
    | none => malformed
  else
    match Keyword.all.find? (·.letters == letters) with
    | some which => keyword which
    | none => name (String.ofList letters)

def ofSigns (signs : List Char) : Token :=
  match Symbol.ofSigns? signs with
  | some which => symbol which
  | none => malformed

end Token

/-- The character that stands behind a backslash for another one. -/
def escaped? : Char → Option Char
  | '"' => some '"'
  | '\\' => some '\\'
  | 't' => some '\t'
  | 'r' => some '\r'
  | 'n' => some '\n'
  | '0' => some '\x00'
  | _ => none

/-- The character with a number of one to six digits. -/
def numbered? (digits : List Nat) : Option Char :=
  if digits.isEmpty ∨ 6 < digits.length then none
  else if (Text.ofHexDigits digits).isValidChar then some (Char.ofNat (Text.ofHexDigits digits))
  else none

/-- What has been read of a character that a string literal writes in another way. -/
inductive Escape where
  | none
  /-- A backslash. -/
  | begun
  /-- A backslash and `u`. -/
  | unicode
  | number (digits : List Nat)
  deriving DecidableEq, Repr

/-- What the next character belongs to. -/
inductive Mode where
  | between
  | word (letters : List Char)
  | symbol (signs : List Char)
  /-- Inside a string literal that stands for these characters so far. -/
  | literal (characters : List Char) (escape : Escape)
  | lineComment
  /-- Inside so many further comments, behind a character that no mark has taken. -/
  | blockComment (outer : Nat) (previous : Char)
  deriving DecidableEq, Repr

namespace Mode

def begin (c : Char) : Mode :=
  if c.isWhitespace then .between
  else if isLetter c then .word [c]
  else if c = '"' then .literal [] .none
  else .symbol [c]

/-- Behind the end of a comment that stands inside so many others. -/
def behindComment : Nat → Mode
  | 0 => .between
  | outer + 1 => .blockComment outer ' '

/-- The token that is not complete yet. -/
def pending : Mode → List Token
  | .between | .lineComment => []
  | .word letters => [.ofLetters letters]
  | .symbol signs => [.ofSigns signs]
  | .literal _ _ | .blockComment _ _ => [.malformed]

/-- A character of a string literal. One that cannot stand there ends the literal. -/
def stepLiteral (characters : List Char) (c : Char) : Escape → List Token × Mode
  | .none =>
    if c = '"' then ([.text (String.ofList characters)], .between)
    else if c = '\\' then ([], .literal characters .begun)
    else ([], .literal (characters ++ [c]) .none)
  | .begun =>
    if c = 'u' then ([], .literal characters .unicode)
    else match escaped? c with
      | some known => ([], .literal (characters ++ [known]) .none)
      | none => ([.malformed], .between)
  | .unicode =>
    if c = '\x7b' then ([], .literal characters (.number [])) else ([.malformed], .between)
  | .number digits =>
    if c = '\x7d' then
      match numbered? digits with
      | some known => ([], .literal (characters ++ [known]) .none)
      | none => ([.malformed], .between)
    else match Text.hexDigitValue? c with
      | some digit => ([], .literal characters (.number (digits ++ [digit])))
      | none => ([.malformed], .between)

/-- The token that a character shows to be complete, and the mode behind the character. -/
def step (c : Char) : Mode → List Token × Mode
  | .between => ([], begin c)
  | .word letters =>
    if isLetter c then ([], .word (letters ++ [c])) else ([.ofLetters letters], begin c)
  | .symbol signs =>
    match Symbol.ofSigns? (signs ++ [c]) with
    | some .lineComment => ([], .lineComment)
    | some .blockComment => ([], .blockComment 0 ' ')
    | some _ => ([], .symbol (signs ++ [c]))
    | none => ([.ofSigns signs], begin c)
  | .literal characters escape => stepLiteral characters c escape
  | .lineComment => ([], if c = '\n' then .between else .lineComment)
  | .blockComment outer previous =>
    if previous = '/' ∧ c = '*' then ([], .blockComment (outer + 1) ' ')
    else if previous = '*' ∧ c = '/' then
      ([], behindComment outer)
    else ([], .blockComment outer c)

end Mode

/-- The tokens that a piece of text completes, and the mode behind it. -/
def scan (mode : Mode) : List Char → List Token × Mode
  | [] => ([], mode)
  | c :: rest =>
    let (found, next) := mode.step c
    let (others, last) := scan next rest
    (found ++ others, last)

def tokens (text : List Char) : List Token :=
  let (found, last) := scan .between text
  found ++ last.pending

theorem scan_cons {mode next last : Mode} {c : Char} {rest : List Char} {found others : List Token}
    (first : mode.step c = (found, next)) (second : scan next rest = (others, last)) :
    scan mode (c :: rest) = (found ++ others, last) := by
  rw [scan, first]
  simp only [second]

theorem scan_append {mode middle last : Mode} {front rest : List Char} {found others : List Token}
    (first : scan mode front = (found, middle)) (second : scan middle rest = (others, last)) :
    scan mode (front ++ rest) = (found ++ others, last) := by
  induction front generalizing mode found with
  | nil =>
    obtain ⟨rfl, rfl⟩ := Prod.mk.inj first
    exact second
  | cons c front ih =>
    obtain ⟨rfl, rfl⟩ := Prod.mk.inj first
    rw [List.cons_append, List.append_assoc]
    exact scan_cons rfl (ih rfl)

theorem scan_blanks (count : Nat) : scan .between (List.replicate count ' ') = ([], .between) := by
  induction count with
  | zero => rfl
  | succ count ih =>
    rw [List.replicate_succ]
    exact scan_cons rfl ih

theorem scan_letters (letters : List Char) {word : List Char}
    (all : ∀ c ∈ word, isLetter c = true) :
    scan (.word letters) word = ([], .word (letters ++ word)) := by
  induction word generalizing letters with
  | nil => simp [scan]
  | cons c rest ih =>
    obtain ⟨letter, others⟩ := List.forall_mem_cons.mp all
    have longer : Mode.step c (.word letters) = ([], .word (letters ++ [c])) := by
      rw [Mode.step, if_pos letter]
    have whole := scan_cons longer (ih (letters ++ [c]) others)
    rwa [List.append_assoc, List.singleton_append] at whole

theorem begin_letter {c : Char} (letter : isLetter c = true) : Mode.begin c = .word [c] := by
  have visible : ¬c.isWhitespace = true := by
    intro blank
    simp only [Char.isWhitespace, Bool.or_eq_true, decide_eq_true_eq] at blank
    rcases blank with ((rfl | rfl) | rfl) | rfl <;> exact absurd letter (by decide)
  rw [Mode.begin, if_neg visible, if_pos letter]

/-- A word may also begin behind a blank. -/
theorem scan_word {word : List Char} (nonempty : word ≠ []) (all : ∀ c ∈ word, isLetter c = true) :
    scan .between word = ([], .word word) := by
  cases word with
  | nil => exact absurd rfl nonempty
  | cons c rest =>
    obtain ⟨letter, others⟩ := List.forall_mem_cons.mp all
    have begun : Mode.step c .between = ([], .word [c]) := by
      rw [Mode.step, begin_letter letter]
    exact scan_cons begun (scan_letters [c] others)

theorem Symbol.ofSigns?_letter (signs : List Char) {c : Char} (letter : isLetter c = true) :
    ofSigns? (signs ++ [c]) = none := by
  have visible : ∀ symbol : Symbol, (symbol.signs.getLast?.map isLetter) = some false := by
    intro symbol
    cases symbol <;> rfl
  apply List.find?_eq_none.mpr
  intro symbol _ same
  have last := visible symbol
  rw [eq_of_beq same, List.getLast?_concat, Option.map_some, letter] at last
  contradiction

/-- A letter ends every symbol. -/
theorem scan_letterBehind (signs : List Char) {c : Char} {rest : List Char} {found : List Token}
    {last : Mode} (letter : isLetter c = true) (scanned : scan .between (c :: rest) = (found, last)) :
    scan (.symbol signs) (c :: rest) = (.ofSigns signs :: found, last) := by
  have ended : Mode.step c (.symbol signs) = ([.ofSigns signs], .begin c) := by
    rw [Mode.step, Symbol.ofSigns?_letter signs letter]
  obtain ⟨rfl, rfl⟩ := Prod.mk.inj scanned
  exact scan_cons ended rfl

theorem scan_wordBehind (signs : List Char) {word : List Char} (nonempty : word ≠ [])
    (all : ∀ c ∈ word, isLetter c = true) :
    scan (.symbol signs) word = ([.ofSigns signs], .word word) := by
  cases word with
  | nil => exact absurd rfl nonempty
  | cons c rest => exact scan_letterBehind signs (all c List.mem_cons_self) (scan_word nonempty all)

theorem scan_lineComment {text : List Char} (one : ∀ c ∈ text, c ≠ '\n') :
    scan .lineComment text = ([], .lineComment) := by
  induction text with
  | nil => rfl
  | cons c rest ih =>
    obtain ⟨other, later⟩ := List.forall_mem_cons.mp one
    have inside : Mode.step c .lineComment = ([], .lineComment) := by
      rw [Mode.step, if_neg other]
    exact scan_cons inside (ih later)

/-- A comment without marks runs on, whatever its last character is. -/
theorem scan_blockComment (outer : Nat) (previous : Char) (text : List Char)
    (opens : Text.occursIn ['/', '*'] (previous :: text) = false)
    (closes : Text.occursIn ['*', '/'] (previous :: text) = false) :
    ∃ last, scan (.blockComment outer previous) text = ([], .blockComment outer last) := by
  induction text generalizing previous with
  | nil => exact ⟨previous, rfl⟩
  | cons c rest ih =>
    rw [Text.occursIn, Bool.or_eq_false_iff] at opens closes
    have noOpening : ¬(previous = '/' ∧ c = '*') := by
      rintro ⟨rfl, rfl⟩
      exact absurd opens.1 (by simp [List.isPrefixOf])
    have noClosing : ¬(previous = '*' ∧ c = '/') := by
      rintro ⟨rfl, rfl⟩
      exact absurd closes.1 (by simp [List.isPrefixOf])
    obtain ⟨last, scanned⟩ := ih c opens.2 closes.2
    have inside : Mode.step c (.blockComment outer previous) = ([], .blockComment outer c) := by
      rw [Mode.step, if_neg noOpening, if_neg noClosing]
    exact ⟨last, scan_cons inside scanned⟩

theorem isLetter_hexDigit : ∀ value < 16, isLetter (Text.hexDigit value) = true := by decide

theorem isLetter_hex {width n : Nat} : ∀ c ∈ (Text.hex width n).toList, isLetter c = true := by
  intro c member
  obtain ⟨value, small, rfl⟩ := Text.mem_hex member
  exact isLetter_hexDigit value small

theorem isLetter_toString {n : Nat} : ∀ c ∈ (toString n).toList, isLetter c = true := by
  intro c member
  simp [isLetter, Char.isAlphanum, Text.mem_toString_digit member]

theorem ofLetters_hex (width n : Nat) :
    Token.ofLetters (['0', 'x'] ++ (Text.hex width n).toList) = .number n := by
  have read : numeral? ('0' :: 'x' :: (Text.hex width n).toList) = some n := by
    rw [numeral?, if_neg (by simpa using Text.hex_ne_nil width n), Text.mapM_hex]
  rw [List.cons_append, List.cons_append, List.nil_append, Token.ofLetters,
    if_pos (by rfl), read]

theorem ofLetters_toString (n : Nat) : Token.ofLetters (toString n).toList = .number n := by
  have digits : ∀ c ∈ (toString n).toList, c.isDigit = true := fun _ => Text.mem_toString_digit
  have value := Text.ofDigitChars_toString n
  cases written : (toString n).toList with
  | nil => exact absurd written (Text.toString_ne_nil n)
  | cons c rest =>
    rw [written] at digits value
    have decimal : (c :: rest).all Char.isDigit = true := List.all_eq_true.mpr digits
    have read : numeral? (c :: rest) = some n := by
      rw [numeral?, if_pos decimal, value]
      rintro others same
      rw [same] at decimal
      exact absurd decimal (by simp)
    have first := (List.forall_mem_cons.mp digits).1
    rw [Token.ofLetters, if_pos (by simpa using first), read]

open Text (Outline)

theorem linesOfAll_append (depth : Nat) (front rest : List Outline) :
    Outline.linesOfAll depth (front ++ rest) =
      Outline.linesOfAll depth front ++ Outline.linesOfAll depth rest := by
  induction front with
  | nil => rfl
  | cons outline front ih =>
    rw [List.cons_append, Outline.linesOfAll, Outline.linesOfAll, ih, List.append_assoc]

theorem text_append (front rest : List Outline) :
    Outline.text (front ++ rest) = Outline.text front ++ Outline.text rest := by
  rw [Outline.text, Outline.text, Outline.text, linesOfAll_append, List.flatMap_append,
    String.ofList_append]

theorem text_line (text : String) : Outline.text [.line text] = text ++ "\n" := by
  have flush : Outline.indented 0 text = text := by
    rw [Outline.indented]
    split
    · rfl
    · simp
  simp [Outline.text, Outline.linesOfAll, Outline.lines, flush]

theorem text_flatMap (outlines : α → List Outline) (items : List α) :
    Outline.text (items.flatMap outlines) =
      String.join (items.map fun item => Outline.text (outlines item)) := by
  induction items with
  | nil => rfl
  | cons item rest ih =>
    rw [List.flatMap_cons, text_append, ih]
    simp

/-- Lines with their line feeds have these tokens. -/
def Scans (lines : List String) (found : List Token) : Prop :=
  scan .between (lines.flatMap fun line => line.toList ++ ['\n']) = (found, .between)

namespace Scans

theorem append {front rest : List String} {found others : List Token} (first : Scans front found)
    (second : Scans rest others) : Scans (front ++ rest) (found ++ others) := by
  rw [Scans, List.flatMap_append]
  exact scan_append first second

/-- Blanks in front of a line do not matter. -/
theorem line (depth : Nat) {text : String} {found : List Token}
    (scanned : scan .between (text.toList ++ ['\n']) = (found, .between)) :
    Scans ((Outline.line text).lines depth) found := by
  rw [Scans, Outline.lines, List.flatMap_cons, List.flatMap_nil, List.append_nil, Outline.indented]
  split
  · exact scanned
  · rw [String.toList_append, String.toList_ofList, List.append_assoc]
    exact scan_append (scan_blanks _) scanned

theorem block (depth : Nat) {head closing : String} {body : List Outline}
    {front inside back : List Token}
    (opened : Scans ((Outline.line (head ++ " \x7b")).lines depth) front)
    (middle : Scans (Outline.linesOfAll (depth + 1) body) inside)
    (closed : Scans ((Outline.line ("\x7d" ++ closing)).lines depth) back) :
    Scans ((Outline.block head body closing).lines depth) (front ++ (inside ++ back)) := by
  rw [Outline.lines]
  exact opened.append (middle.append closed)

theorem cons (depth : Nat) {outline : Outline} {rest : List Outline} {found others : List Token}
    (first : Scans (outline.lines depth) found)
    (second : Scans (Outline.linesOfAll depth rest) others) :
    Scans (Outline.linesOfAll depth (outline :: rest)) (found ++ others) := by
  rw [Outline.linesOfAll]
  exact first.append second

/-- Lines without tokens are passed over. -/
theorem passed (depth : Nat) {outline : Outline} {rest : List Outline} {found : List Token}
    (nothing : Scans (outline.lines depth) []) (others : Scans (Outline.linesOfAll depth rest) found) :
    Scans (Outline.linesOfAll depth (outline :: rest)) found := cons depth nothing others

theorem single (depth : Nat) {outline : Outline} {found : List Token}
    (one : Scans (outline.lines depth) found) : Scans (Outline.linesOfAll depth [outline]) found := by
  rw [Outline.linesOfAll, Outline.linesOfAll, List.append_nil]
  exact one

theorem appendAll (depth : Nat) {front rest : List Outline} {found others : List Token}
    (first : Scans (Outline.linesOfAll depth front) found)
    (second : Scans (Outline.linesOfAll depth rest) others) :
    Scans (Outline.linesOfAll depth (front ++ rest)) (found ++ others) := by
  rw [linesOfAll_append]
  exact first.append second

theorem flatMap (depth : Nat) (outlines : α → List Outline) (tokensOf : α → List Token)
    {items : List α} (each : ∀ item ∈ items,
      Scans (Outline.linesOfAll depth (outlines item)) (tokensOf item)) :
    Scans (Outline.linesOfAll depth (items.flatMap outlines)) (items.flatMap tokensOf) := by
  induction items with
  | nil => rfl
  | cons item rest ih =>
    obtain ⟨first, later⟩ := List.forall_mem_cons.mp each
    rw [List.flatMap_cons, List.flatMap_cons]
    exact appendAll depth first (ih later)

end Scans

/-- A line feed that leaves nothing open completes the last token. -/
theorem Mode.step_lineFeed {mode : Mode} (ended : (mode.step '\n').2 = .between) :
    (mode.step '\n').1 = mode.pending := by
  cases mode with
  | between => rfl
  | word letters => rfl
  | symbol signs =>
    simp only [step] at ended ⊢
    split at ended <;> first | contradiction | rfl
  | literal characters escape => cases escape <;> first | contradiction | rfl
  | lineComment => rfl
  | blockComment outer previous => simp [step] at ended

theorem tokens_eq {text : List Char} {found : List Token}
    (scanned : scan .between (text ++ ['\n']) = (found, .between)) : tokens text = found := by
  obtain ⟨front, mode, scannedFront⟩ : ∃ front mode, scan .between text = (front, mode) :=
    ⟨_, _, rfl⟩
  have lineFeed : scan mode ['\n'] = ((mode.step '\n').1, (mode.step '\n').2) := by
    rw [← List.append_nil (mode.step '\n').1]
    exact scan_cons rfl rfl
  rw [scan_append scannedFront lineFeed] at scanned
  obtain ⟨rfl, ended⟩ := Prod.mk.inj scanned
  rw [tokens, scannedFront, Mode.step_lineFeed ended]

end ShapingTables.Generated
