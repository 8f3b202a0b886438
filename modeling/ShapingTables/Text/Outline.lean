/-! Program text as lines and braced blocks. A block is indented by four blanks more than
its head; an empty line is never indented. -/
namespace ShapingTables.Text

inductive Outline where
  | line (text : String)
  /-- `closing` follows the brace that ends the block. -/
  | block (head : String) (body : List Outline) (closing : String)

namespace Outline

def indented (depth : Nat) (text : String) : String :=
  if text.isEmpty then text else String.ofList (List.replicate (4 * depth) ' ') ++ text

mutual

def lines (depth : Nat) : Outline → List String
  | .line text => [indented depth text]
  | .block head body closing =>
    indented depth (head ++ " \x7b") ::
      (linesOfAll (depth + 1) body ++ [indented depth ("\x7d" ++ closing)])

def linesOfAll (depth : Nat) : List Outline → List String
  | [] => []
  | outline :: rest => lines depth outline ++ linesOfAll depth rest

end

/-- The text of a whole file; every line ends in a line feed. -/
def text (outlines : List Outline) : String :=
  String.ofList ((linesOfAll 0 outlines).flatMap fun line => line.toList ++ ['\n'])

end Outline

end ShapingTables.Text
