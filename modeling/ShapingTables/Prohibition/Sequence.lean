import ShapingTables.Fault
import ShapingTables.Text.Lines
import ShapingTables.Text.Split

/-! Sequences of codepoints that look like another vowel when they are joined. A line
lists the codepoints of one sequence between blanks; what follows a semicolon or a `#` is
not read. A sequence has at least two codepoints. Nothing requires them to lie in the
codespace. -/
namespace ShapingTables

structure ProhibitedSequence where
  /-- Counted from one. -/
  line : Nat
  codepoints : List Nat
  deriving DecidableEq, Repr

namespace ProhibitedSequence

/-- The codepoints of one line, or the first word that is none. -/
def readWords (words : List (List Char)) : Except LineFault (List Nat) :=
  words.mapM fun word =>
    match Text.readHex? word with
    | some codepoint => .ok codepoint
    | none => .error (.badCodepoint (String.ofList word))

/-- What one line lists, nothing if it has no words. -/
def readLine (text : List Char) : Except LineFault (Option (List Nat)) :=
  match readWords (Text.words (Text.before ';' (Text.before '#' text))) with
  | .error fault => .error fault
  | .ok [] => .ok none
  | .ok [codepoint] => .error (.loneCodepoint codepoint)
  | .ok codepoints => .ok (some codepoints)

/-- The sequences of consecutive lines, the first of which has the number `line`. -/
def readLines (line : Nat) :
    List (List Char) → Except (Nat × LineFault) (List ProhibitedSequence)
  | [] => .ok []
  | text :: rest =>
    match readLine text with
    | .error fault => .error (line, fault)
    | .ok none => readLines (line + 1) rest
    | .ok (some codepoints) => (readLines (line + 1) rest).map (⟨line, codepoints⟩ :: ·)

/-- The sequences of a text, or the fault of the first line that has one. -/
def ofText (text : String) : Except (Nat × LineFault) (List ProhibitedSequence) :=
  readLines 1 (Text.lines text.toList)

end ProhibitedSequence

end ShapingTables
