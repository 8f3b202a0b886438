/-! The positional category: where a dependent sign attaches to its base. A codepoint that
no line assigns has no position of its own. -/
namespace ShapingTables

inductive PositionalCategory where
  | notApplicable
  | right
  | left
  | visualOrderLeft
  | leftAndRight
  | top
  | bottom
  | topAndBottom
  | topAndRight
  | topAndLeft
  | topAndLeftAndRight
  | bottomAndLeft
  | bottomAndRight
  | topAndBottomAndRight
  | overstruck
  deriving DecidableEq, Repr

namespace PositionalCategory

/-- The name of the property itself. -/
def propertyName : String := "Indic_Positional_Category"

/-- Every value, in the order in which the standard lists them. -/
def all : List PositionalCategory := [
  .notApplicable, .right, .left, .visualOrderLeft, .leftAndRight, .top, .bottom, .topAndBottom,
  .topAndRight, .topAndLeft, .topAndLeftAndRight, .bottomAndLeft, .bottomAndRight,
  .topAndBottomAndRight, .overstruck]

/-- The spelling the data files use. -/
def ucdName : PositionalCategory → String
  | .notApplicable => "Not_Applicable"
  | .right => "Right"
  | .left => "Left"
  | .visualOrderLeft => "Visual_Order_Left"
  | .leftAndRight => "Left_And_Right"
  | .top => "Top"
  | .bottom => "Bottom"
  | .topAndBottom => "Top_And_Bottom"
  | .topAndRight => "Top_And_Right"
  | .topAndLeft => "Top_And_Left"
  | .topAndLeftAndRight => "Top_And_Left_And_Right"
  | .bottomAndLeft => "Bottom_And_Left"
  | .bottomAndRight => "Bottom_And_Right"
  | .topAndBottomAndRight => "Top_And_Bottom_And_Right"
  | .overstruck => "Overstruck"

def ofUcdName? (text : String) : Option PositionalCategory :=
  all.find? (·.ucdName == text)

instance : Inhabited PositionalCategory := ⟨.notApplicable⟩

/-- Every value is read back from its spelling, so no two values share one. -/
theorem ofUcdName?_ucdName (value : PositionalCategory) :
    ofUcdName? value.ucdName = some value := by
  cases value <;> decide

end PositionalCategory

end ShapingTables
