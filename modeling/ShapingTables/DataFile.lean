import ShapingTables.Codepoint
import ShapingTables.Fault
import ShapingTables.Text.Lines

/-! The tabular format of the Unicode data files: one row a line, its fields separated by
semicolons and the first of them a range of codepoints. A `#` starts a comment. A line
with nothing but blanks and comment is skipped; every other line is a row or a fault, and
reading goes on after a fault. In some files the rows after a marker are themselves
commented out; such a file is read by taking the comment signs off first. -/
namespace ShapingTables.DataFile

structure Row where
  /-- Counted from one. -/
  line : Nat
  range : CodepointRange
  /-- The trimmed fields behind the range. -/
  fields : List String
  deriving DecidableEq, Repr

/-- The range is field zero and has no text here. -/
def Row.field? (row : Row) : Nat → Option String
  | 0 => none
  | index + 1 => row.fields[index]?

/-- A row or the fault that takes its place, with the number of the line. -/
abbrev Item := Except (Nat × LineFault) Row

/-- The row with the trimmed fields `head` and `fields`. A missing field is reported
before a bad range. -/
def rowOf (leastFields line : Nat) (head : List Char) (fields : List (List Char)) : Item :=
  if fields.length + 1 < leastFields then
    .error (line, .tooFewFields leastFields (fields.length + 1))
  else match CodepointRange.read? head with
    | some range => .ok ⟨line, range, fields.map String.ofList⟩
    | none => .error (line, .badRange (String.ofList head))

/-- What one line gives, if it holds anything. -/
def item? (leastFields line : Nat) (text : List Char) : Option Item :=
  let data := Text.trim (Text.before '#' text)
  if data.isEmpty then none
  else
    let (head, fields) := Text.splitWhere (· == ';') data
    some (rowOf leastFields line (Text.trim head) (fields.map Text.trim))

/-- The items of consecutive lines, the first of which has the number `line`. -/
def itemsFrom (leastFields line : Nat) : List (List Char) → List Item
  | [] => []
  | text :: rest =>
    match item? leastFields line text with
    | some item => item :: itemsFrom leastFields (line + 1) rest
    | none => itemsFrom leastFields (line + 1) rest

/-- Takes the comment sign off a row that is commented out. -/
def uncomment : List Char → List Char
  | '#' :: ' ' :: text => if text.contains ';' then text else '#' :: ' ' :: text
  | text => text

/-- The lines with the comment signs off every row below the first line that
holds the marker. That line itself is left as it is. -/
def uncommentBelow (marker : List Char) : List (List Char) → List (List Char)
  | [] => []
  | text :: rest =>
    text :: if Text.occursIn marker text then rest.map uncomment else uncommentBelow marker rest

/-- How a file is read. -/
structure Format where
  /-- The fields that a row must have, its range included. -/
  leastFields : Nat
  /-- The text behind which rows may be commented out. -/
  marker : Option String
  deriving DecidableEq, Repr

def Format.plain : Format := ⟨2, none⟩

def Format.lines (format : Format) (text : String) : List (List Char) :=
  match format.marker with
  | some marker => uncommentBelow marker.toList (Text.lines text.toList)
  | none => Text.lines text.toList

/-- Every row and every fault of a text, in the order of its lines. A row always
has a range, so no format asks for less than one field. -/
def items (format : Format) (text : String) : List Item :=
  itemsFrom (max format.leastFields 1) 1 (format.lines text)

/-- The rows of a text, or its first fault. -/
def rows (format : Format) (text : String) : Except (Nat × LineFault) (List Row) :=
  (items format text).mapM id

/-- The rows with their values, or the first fault: on one line, a fault of the
row itself before a value that `valueOf?` does not know. -/
def values (format : Format) (index : Nat) (valueOf? : String → Option α) (text : String) :
    Except (Nat × LineFault) (List (CodepointRange × α)) :=
  (items format text).mapM fun
    | .error fault => .error fault
    | .ok row =>
      let written := (row.field? index).getD ""
      match valueOf? written with
      | some value => .ok (row.range, value)
      | none => .error (row.line, .unknownValue written)

end ShapingTables.DataFile
