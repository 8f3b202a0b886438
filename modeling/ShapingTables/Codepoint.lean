import ShapingTables.Text.Split
import ShapingTables.Text.Numeral

/-! Codepoints are natural numbers; the codespace ends at `maxCodepoint`. A range holds
both of its ends, and nothing requires its first codepoint to be the smaller one: only
ranges read from text are known to be in order and in the codespace. -/
namespace ShapingTables

def maxCodepoint : Nat := 0x10FFFF

/-- Sums of 32-bit words stop at the top of the word. -/
def wordSum (a b : Nat) : Nat := min (a + b) 0xFFFFFFFF

structure CodepointRange where
  first : Nat
  last : Nat
  deriving DecidableEq, Repr

namespace CodepointRange

def single (codepoint : Nat) : CodepointRange := ⟨codepoint, codepoint⟩

def contains (range : CodepointRange) (codepoint : Nat) : Bool :=
  range.first ≤ codepoint && codepoint ≤ range.last

def size (range : CodepointRange) : Nat := range.last + 1 - range.first

/-- The codepoints in ascending order, none where the ends are out of order. -/
def toList (range : CodepointRange) : List Nat := List.range' range.first range.size

/-- The ends as written: one codepoint, or two with two dots between them. -/
def ends? (text : List Char) : Option CodepointRange :=
  match Text.splitAtDots? text with
  | some (left, right) =>
    (Text.readHex? left).bind fun first => (Text.readHex? right).map fun last => ⟨first, last⟩
  | none => (Text.readHex? text).map single

/-- Refuses ends that are out of order or outside the codespace. -/
def read? (text : List Char) : Option CodepointRange :=
  (ends? (Text.trim text)).filter fun range =>
    range.first ≤ range.last && range.last ≤ maxCodepoint

/-- Joins each range of an ascending list to its predecessor if it starts at most
`gap` behind the predecessor's end. `current` is the range still being extended. -/
def joinFrom (gap : Nat) (current : CodepointRange) : List CodepointRange → List CodepointRange
  | [] => [current]
  | range :: rest =>
    if range.first ≤ wordSum current.last gap then
      joinFrom gap ⟨current.first, max current.last range.last⟩ rest
    else current :: joinFrom gap range rest

def joinWithin (gap : Nat) : List CodepointRange → List CodepointRange
  | [] => []
  | range :: rest => joinFrom gap range rest

theorem mem_toList {range : CodepointRange} {codepoint : Nat} :
    codepoint ∈ range.toList ↔ range.contains codepoint = true := by
  simp only [toList, size, List.mem_range'_1, contains, Bool.and_eq_true, decide_eq_true_eq]
  omega

theorem length_toList (range : CodepointRange) : range.toList.length = range.size := by
  simp [toList]

end CodepointRange

end ShapingTables
