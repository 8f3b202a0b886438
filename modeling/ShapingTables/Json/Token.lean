import ShapingTables.Text.Numeral

/-! The tokens of a JSON text, found by a machine that takes one character at a time.
Numbers are kept as they are written. A string whose escapes leave half of a surrogate
pair is a token without a text: it is well formed and stands for nothing. -/
namespace ShapingTables.Json

inductive Token where
  | openBrace
  | closeBrace
  | openBracket
  | closeBracket
  | colon
  | comma
  | null
  | bool (value : Bool)
  | number (written : String)
  | string (text : Option String)
  deriving DecidableEq, Repr

/-- A piece of a string: a character, or a 16-bit unit written as an escape. -/
inductive StringPart where
  | char (c : Char)
  | unit (value : Nat)
  deriving DecidableEq, Repr

/-- Units of a surrogate pair join into one character; half a pair is none. -/
def decodeParts : List StringPart → Option (List Char)
  | [] => some []
  | .char c :: rest => (decodeParts rest).map (c :: ·)
  | .unit high :: .unit low :: rest =>
    if 0xD800 ≤ high ∧ high < 0xDC00 then
      if 0xDC00 ≤ low ∧ low < 0xE000 then
        (decodeParts rest).map
          (Char.ofNat (0x10000 + (high - 0xD800) * 0x400 + (low - 0xDC00)) :: ·)
      else none
    else if 0xDC00 ≤ high ∧ high < 0xE000 then none
    else (decodeParts (.unit low :: rest)).map (Char.ofNat high :: ·)
  | .unit value :: rest =>
    if 0xD800 ≤ value ∧ value < 0xE000 then none
    else (decodeParts rest).map (Char.ofNat value :: ·)

/-- How far a number has been written. -/
inductive NumberPart where
  | sign
  | zero
  | digits
  | point
  | decimals
  | exponent
  | exponentSign
  | exponentDigits
  deriving DecidableEq, Repr

namespace NumberPart

def isComplete : NumberPart → Bool
  | .zero | .digits | .decimals | .exponentDigits => true
  | .sign | .point | .exponent | .exponentSign => false

/-- The part that a character continues a number with, if it can continue it. -/
def next? (c : Char) : NumberPart → Option NumberPart
  | .sign => if c = '0' then some .zero else if c.isDigit then some .digits else none
  | .zero => ofInteger?
  | .digits => if c.isDigit then some .digits else ofInteger?
  | .point => if c.isDigit then some .decimals else none
  | .decimals => if c.isDigit then some .decimals else ofMark?
  | .exponent =>
    if c = '+' ∨ c = '-' then some .exponentSign
    else if c.isDigit then some .exponentDigits else none
  | .exponentSign | .exponentDigits => if c.isDigit then some .exponentDigits else none
where
  ofMark? : Option NumberPart := if c = 'e' ∨ c = 'E' then some .exponent else none
  ofInteger? : Option NumberPart := if c = '.' then some .point else ofMark?

end NumberPart

/-- What the next character belongs to. Texts are in reverse. -/
inductive LexerMode where
  | between
  | word (rest : List Char) (token : Token)
  | number (part : NumberPart) (written : List Char)
  | string (parts : List StringPart)
  | escaped (parts : List StringPart)
  | unicode (digits : List Nat) (parts : List StringPart)

/-- The tokens found so far are in reverse. -/
structure Lexer where
  mode : LexerMode
  found : List Token

namespace Lexer

def start : Lexer := ⟨.between, []⟩

def emit (found : List Token) (token : Token) : Option Lexer := some ⟨.between, token :: found⟩

def isSpace (c : Char) : Bool := c == ' ' || c == '\t' || c == '\n' || c == '\r'

/-- The character begins a token, is one, or is a space. -/
def stepBetween (found : List Token) (c : Char) : Option Lexer :=
  if isSpace c then some ⟨.between, found⟩
  else if c = '\x7b' then emit found .openBrace
  else if c = '\x7d' then emit found .closeBrace
  else if c = '[' then emit found .openBracket
  else if c = ']' then emit found .closeBracket
  else if c = ':' then emit found .colon
  else if c = ',' then emit found .comma
  else if c = '"' then some ⟨.string [], found⟩
  else if c = 'n' then some ⟨.word ['u', 'l', 'l'] .null, found⟩
  else if c = 't' then some ⟨.word ['r', 'u', 'e'] (.bool true), found⟩
  else if c = 'f' then some ⟨.word ['a', 'l', 's', 'e'] (.bool false), found⟩
  else if c = '-' then some ⟨.number .sign [c], found⟩
  else if c = '0' then some ⟨.number .zero [c], found⟩
  else if c.isDigit then some ⟨.number .digits [c], found⟩
  else none

/-- The character that an escape of one letter stands for. -/
def escapedChar? (c : Char) : Option Char :=
  if c = '"' ∨ c = '\\' ∨ c = '/' then some c
  else if c = 'b' then some '\x08'
  else if c = 'f' then some '\x0c'
  else if c = 'n' then some '\n'
  else if c = 'r' then some '\r'
  else if c = 't' then some '\t'
  else none

def step (lexer : Lexer) (c : Char) : Option Lexer :=
  match lexer.mode with
  | .between => stepBetween lexer.found c
  | .word [] _ => none
  | .word [last] token => if c = last then emit lexer.found token else none
  | .word (letter :: rest) token =>
    if c = letter then some ⟨.word rest token, lexer.found⟩ else none
  | .number part written =>
    match part.next? c with
    | some next => some ⟨.number next (c :: written), lexer.found⟩
    | none =>
      if part.isComplete then
        stepBetween (.number (String.ofList written.reverse) :: lexer.found) c
      else none
  | .string parts =>
    if c = '"' then emit lexer.found (.string ((decodeParts parts.reverse).map String.ofList))
    else if c = '\\' then some ⟨.escaped parts, lexer.found⟩
    else if c.toNat < 0x20 then none
    else some ⟨.string (.char c :: parts), lexer.found⟩
  | .escaped parts =>
    if c = 'u' then some ⟨.unicode [] parts, lexer.found⟩
    else (escapedChar? c).map fun char => ⟨.string (.char char :: parts), lexer.found⟩
  | .unicode digits parts =>
    match Text.hexDigitValue? c with
    | none => none
    | some digit =>
      if digits.length = 3 then
        some ⟨.string (.unit (Text.ofHexDigits (digits ++ [digit])) :: parts), lexer.found⟩
      else some ⟨.unicode (digits ++ [digit]) parts, lexer.found⟩

/-- The tokens in order, if the text may end here. -/
def finish (lexer : Lexer) : Option (List Token) :=
  match lexer.mode with
  | .between => some lexer.found.reverse
  | .number part written =>
    if part.isComplete then
      some (.number (String.ofList written.reverse) :: lexer.found).reverse
    else none
  | _ => none

end Lexer

def tokens? (text : List Char) : Option (List Token) :=
  (text.foldlM Lexer.step .start).bind Lexer.finish

end ShapingTables.Json
