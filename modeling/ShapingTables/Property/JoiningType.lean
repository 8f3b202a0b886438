/-! The joining type of cursive scripts, the third field of `ArabicShaping.txt`.
`unlisted` is the type of every codepoint that file leaves out; only `C`, `D`, `L` and `R`
join. -/
namespace ShapingTables

inductive JoiningType where
  | joinCausing
  | dualJoining
  | leftJoining
  | rightJoining
  | transparent
  | nonJoining
  | unlisted
  deriving DecidableEq, Repr

namespace JoiningType

/-- The name of the property itself. -/
def propertyName : String := "Joining_Type"

/-- Every value, in the order in which the standard lists them. -/
def all : List JoiningType := [
  .joinCausing, .dualJoining, .leftJoining, .rightJoining, .transparent, .nonJoining, .unlisted]

/-- The spelling the data files use. -/
def ucdName : JoiningType → String
  | .joinCausing => "C"
  | .dualJoining => "D"
  | .leftJoining => "L"
  | .rightJoining => "R"
  | .transparent => "T"
  | .nonJoining => "U"
  | .unlisted => "X"

def ofUcdName? (text : String) : Option JoiningType :=
  all.find? (·.ucdName == text)

instance : Inhabited JoiningType := ⟨.unlisted⟩

/-- Takes part in cursive joining on at least one side. -/
def isJoining : JoiningType → Bool
  | .joinCausing | .dualJoining | .leftJoining | .rightJoining => true
  | .transparent | .nonJoining | .unlisted => false

/-- Every value is read back from its spelling, so no two values share one. -/
theorem ofUcdName?_ucdName (value : JoiningType) : ofUcdName? value.ucdName = some value := by
  cases value <;> decide

end JoiningType

end ShapingTables
