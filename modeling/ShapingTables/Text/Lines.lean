/-! A line ends at a line feed, with or without a carriage return directly in front of it;
a carriage return that stands alone belongs to its line. A text that ends in a line feed
has no further, empty line after it. -/
namespace ShapingTables.Text

/-- The text of a line from its characters in reverse, its line feed already gone. -/
def closeLine : List Char → List Char
  | '\r' :: reversed => reversed.reverse
  | reversed => reversed.reverse

/-- The lines of a text whose current line has already given `reversed`. -/
def linesFrom (reversed : List Char) : List Char → List (List Char)
  | [] => if reversed.isEmpty then [] else [reversed.reverse]
  | c :: rest =>
    if c = '\n' then closeLine reversed :: linesFrom [] rest
    else linesFrom (c :: reversed) rest

def lines (text : List Char) : List (List Char) := linesFrom [] text

end ShapingTables.Text
