import ShapingTables.DataFile

/-! A source gives the text of each data file or says why there is none. Nothing is said
about where the texts lie. -/
namespace ShapingTables

abbrev Source := SourceFile → Except Fault String

/-- A fault of a line, in the file in which the line stands. -/
def SourceFile.located (file : SourceFile) (fault : Nat × LineFault) : Fault :=
  .malformed file fault.1 fault.2

namespace Source

/-- The texts that are given, in no place that could be named better. -/
def ofTexts (text? : SourceFile → Option String) : Source := fun file =>
  match text? file with
  | some text => .ok text
  | none => .error (.missingSource file "in-memory source" "13.0.0")

/-- The text of a file, read by `parse`. -/
def read (source : Source) (file : SourceFile)
    (parse : String → Except (Nat × LineFault) α) : Except Fault α :=
  match source file with
  | .error fault => .error fault
  | .ok text => (parse text).mapError file.located

end Source

end ShapingTables
