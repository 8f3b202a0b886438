import ShapingTables.Text.Blank

/-! Codepoints are written in hexadecimal. Reading takes one to six digits of either case
with blanks around them; writing uses upper case and pads to four digits. -/
namespace ShapingTables.Text

def hexDigitValue? (c : Char) : Option Nat :=
  if '0' ≤ c ∧ c ≤ '9' then some (c.toNat - 48)
  else if 'A' ≤ c ∧ c ≤ 'F' then some (c.toNat - 55)
  else if 'a' ≤ c ∧ c ≤ 'f' then some (c.toNat - 87)
  else none

def ofHexDigits (digits : List Nat) : Nat := digits.foldl (fun n d => 16 * n + d) 0

/-- One to six hexadecimal digits and nothing else but blanks around them. -/
def readHex? (text : List Char) : Option Nat :=
  let digits := trim text
  if digits.length = 0 ∨ 6 < digits.length then none
  else (digits.mapM hexDigitValue?).map ofHexDigits

def hexDigit (value : Nat) : Char :=
  Char.ofNat (if value < 10 then 48 + value else 55 + value)

def hexDigits (n : Nat) : List Char :=
  if n < 16 then [hexDigit n] else hexDigits (n / 16) ++ [hexDigit (n % 16)]
termination_by n
decreasing_by omega

/-- Upper case, with zeros in front up to `width` digits. -/
def hex (width n : Nat) : String := String.ofList ((hexDigits n).leftpad width '0')

/-- A codepoint in the usual notation. -/
def hex4 (n : Nat) : String := hex 4 n

/-- Several codepoints in brackets. -/
def hexList (codepoints : List Nat) : String :=
  "[" ++ ", ".intercalate (codepoints.map hex4) ++ "]"

end ShapingTables.Text
