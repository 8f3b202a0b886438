import ShapingTables.Property.GeneralCategory
import ShapingTables.Property.SyllabicCategory
import ShapingTables.Property.PositionalCategory
import ShapingTables.Property.JoiningType

/-! What the role predicates and the positional refinement see of a codepoint. -/
namespace ShapingTables

structure Attributes where
  codepoint : Nat
  syllabic : SyllabicCategory
  positional : PositionalCategory
  general : GeneralCategory
  joining : JoiningType
  deriving DecidableEq, Repr

/-- The four spellings with blanks between them. -/
def Attributes.spelling (attributes : Attributes) : String :=
  " ".intercalate [attributes.syllabic.ucdName, attributes.positional.ucdName,
    attributes.general.ucdName, attributes.joining.ucdName]

end ShapingTables
