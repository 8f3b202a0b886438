import ShapingTables.Codepoint
import Std.Data.TreeMap

/-! Values of single codepoints in ascending order, filled range by range. A later range
replaces what earlier ranges gave to its codepoints. -/
namespace ShapingTables

abbrev CodepointMap (α : Type) := Std.TreeMap Nat α

namespace CodepointMap

def fill (map : CodepointMap α) (range : CodepointRange) (value : α) : CodepointMap α :=
  range.toList.foldl (fun filled codepoint => filled.insert codepoint value) map

def ofEntries (entries : List (CodepointRange × α)) : CodepointMap α :=
  entries.foldl (fun map entry => map.fill entry.1 entry.2) ∅

theorem getElem?_fillAll (codepoints : List Nat) (map : CodepointMap α) (value : α) (u : Nat) :
    (codepoints.foldl (fun filled codepoint => filled.insert codepoint value) map)[u]? =
      if u ∈ codepoints then some value else map[u]? := by
  induction codepoints generalizing map with
  | nil => simp
  | cons codepoint rest ih =>
    rw [List.foldl_cons, ih, Std.TreeMap.getElem?_insert]
    by_cases later : u ∈ rest
    · simp [later]
    · simp [later, @eq_comm _ u codepoint]

theorem getElem?_fill (map : CodepointMap α) (range : CodepointRange) (value : α) (u : Nat) :
    (map.fill range value)[u]? = if range.contains u then some value else map[u]? := by
  simp [fill, getElem?_fillAll, CodepointRange.mem_toList]

end CodepointMap

end ShapingTables
