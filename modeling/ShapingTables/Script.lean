import ShapingTables.DataFile
import ShapingTables.NameTable
import ShapingTables.RangeTable

/-! The script of each codepoint, and an order of the scripts: by the start of the first
range that the file lists for each, scripts that share it in the order of their first
lines. Matchers follow this order. While a file is read its scripts are numbered as they
appear. Their order is known at the end of the file only, and each number gives way to its
rank then. -/
namespace ShapingTables

structure ScriptTable where
  /-- Every script once, in order. -/
  scripts : List String
  ranges : RangeTable String
  deriving DecidableEq, Repr

/-- The scripts of the lines that have been read. -/
structure NumberedScripts where
  /-- A script's number is its place here. -/
  names : NameTable
  /-- Where the first range of each number starts. -/
  firstStarts : Array Nat
  /-- Every range with the number of its script, in the order of the lines. -/
  ranges : Array (CodepointRange × Nat)

namespace NumberedScripts

def empty : NumberedScripts := ⟨.empty, #[], #[]⟩

/-- One more line. A name that is new takes the next number. -/
def add (scripts : NumberedScripts) (range : CodepointRange) (name : String) : NumberedScripts :=
  match known : scripts.names.place? name with
  | some number => { scripts with ranges := scripts.ranges.push (range, number) }
  | none =>
    { names := scripts.names.push name known
      firstStarts := scripts.firstStarts.push range.first
      ranges := scripts.ranges.push (range, scripts.names.size) }

def ofEntries (entries : List (CodepointRange × String)) : NumberedScripts :=
  entries.foldl (fun scripts entry => scripts.add entry.1 entry.2) empty

def firstStart (scripts : NumberedScripts) (number : Nat) : Nat :=
  scripts.firstStarts.getD number 0xFFFFFFFF

/-- The numbers by first start, the lower one first of two that share it. -/
def order (scripts : NumberedScripts) : List Nat :=
  (List.range scripts.names.size).mergeSort fun one other =>
    scripts.firstStart one ≤ scripts.firstStart other

/-- The place of each number in a list of numbers. -/
def ranksIn (order : List Nat) : Array Nat :=
  order.zipIdx.foldl (fun ranks (number, place) => ranks.setIfInBounds number place)
    (Array.replicate order.length 0)

/-- The table with the ranks in place of the numbers. -/
def ranked (scripts : NumberedScripts) : ScriptTable :=
  let names := (scripts.order.map fun number => (scripts.names.name? number).getD "").toArray
  let ranks := ranksIn scripts.order
  { scripts := names.toList
    ranges := RangeTable.ofList (scripts.ranges.toList.map fun (range, number) =>
      (range, names.getD (ranks.getD number 0) "")) }

end NumberedScripts

namespace ScriptTable

def empty : ScriptTable := ⟨[], []⟩

instance : Inhabited ScriptTable := ⟨empty⟩

def ofEntries (entries : List (CodepointRange × String)) : ScriptTable :=
  (NumberedScripts.ofEntries entries).ranked

/-- The table of a text in the format of `Scripts.txt`: a range and a script a row. -/
def ofText (text : String) : Except (Nat × LineFault) ScriptTable :=
  (DataFile.rows .plain text).map fun rows =>
    ofEntries (rows.map fun row => (row.range, (row.field? 1).getD ""))

def scriptOf? (table : ScriptTable) (codepoint : Nat) : Option String :=
  table.ranges.find? codepoint

def orderOf? (table : ScriptTable) (script : String) : Option Nat :=
  table.scripts.idxOf? script

end ScriptTable

end ShapingTables
