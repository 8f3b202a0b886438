/-! A role says what a codepoint does in a syllable of the universal shaping model. Some
roles are split further by where the glyph attaches. A category is a role with its
position, if it has one; `other` is the category of every codepoint that the tables leave
out. -/
namespace ShapingTables

inductive Role where
  | other
  | base
  | baseNumber
  | genericBase
  | consonantFinal
  | consonantFinalModifier
  | consonantMedial
  | consonantModifier
  | consonantSubjoined
  | consonantWithStacker
  | halant
  | halantOrVowelModifier
  | halantNumber
  | hieroglyph
  | hieroglyphJoiner
  | hieroglyphSegmentBegin
  | hieroglyphSegmentEnd
  | nonJoiner
  | repha
  | symbol
  | sakot
  | symbolModifier
  | vowel
  | vowelModifier
  deriving DecidableEq, Repr, Inhabited

namespace Role

/-- Every role, in the order in which messages list the roles that match. -/
def all : List Role := [
  .base, .baseNumber, .genericBase, .consonantFinal, .consonantFinalModifier, .consonantMedial,
  .consonantModifier, .consonantSubjoined, .consonantWithStacker, .halant, .halantOrVowelModifier,
  .halantNumber, .hieroglyph, .hieroglyphJoiner, .hieroglyphSegmentBegin, .hieroglyphSegmentEnd,
  .nonJoiner, .other, .repha, .sakot, .symbol, .symbolModifier, .vowel, .vowelModifier]

/-- The short tag that category names start with. -/
def tag : Role → String
  | .other => "O"
  | .base => "B"
  | .baseNumber => "N"
  | .genericBase => "GB"
  | .consonantFinal => "F"
  | .consonantFinalModifier => "FM"
  | .consonantMedial => "M"
  | .consonantModifier => "CM"
  | .consonantSubjoined => "SUB"
  | .consonantWithStacker => "CS"
  | .halant => "H"
  | .halantOrVowelModifier => "HVM"
  | .halantNumber => "HN"
  | .hieroglyph => "G"
  | .hieroglyphJoiner => "J"
  | .hieroglyphSegmentBegin => "SB"
  | .hieroglyphSegmentEnd => "SE"
  | .nonJoiner => "ZWNJ"
  | .repha => "R"
  | .symbol => "S"
  | .sakot => "Sk"
  | .symbolModifier => "SM"
  | .vowel => "V"
  | .vowelModifier => "VM"

/-- The name that messages use. -/
def name : Role → String
  | .other => "Other"
  | .base => "Base"
  | .baseNumber => "BaseNumber"
  | .genericBase => "GenericBase"
  | .consonantFinal => "ConsonantFinal"
  | .consonantFinalModifier => "ConsonantFinalModifier"
  | .consonantMedial => "ConsonantMedial"
  | .consonantModifier => "ConsonantModifier"
  | .consonantSubjoined => "ConsonantSubjoined"
  | .consonantWithStacker => "ConsonantWithStacker"
  | .halant => "Halant"
  | .halantOrVowelModifier => "HalantOrVowelModifier"
  | .halantNumber => "HalantNumber"
  | .hieroglyph => "Hieroglyph"
  | .hieroglyphJoiner => "HieroglyphJoiner"
  | .hieroglyphSegmentBegin => "HieroglyphSegmentBegin"
  | .hieroglyphSegmentEnd => "HieroglyphSegmentEnd"
  | .nonJoiner => "NonJoiner"
  | .repha => "Repha"
  | .symbol => "Symbol"
  | .sakot => "Sakot"
  | .symbolModifier => "SymbolModifier"
  | .vowel => "Vowel"
  | .vowelModifier => "VowelModifier"

theorem mem_all (role : Role) : role ∈ all := by cases role <;> decide

end Role

inductive Position where
  | above
  | below
  | post
  | pre
  deriving DecidableEq, Repr

namespace Position

/-- The ending that a category name gets. -/
def suffix : Position → String
  | .above => "Abv"
  | .below => "Blw"
  | .post => "Pst"
  | .pre => "Pre"

/-- The name that messages use. -/
def name : Position → String
  | .above => "Above"
  | .below => "Below"
  | .post => "Post"
  | .pre => "Pre"

end Position

structure Category where
  role : Role
  position : Option Position
  deriving DecidableEq, Repr

namespace Category

def other : Category := ⟨.other, none⟩

instance : Inhabited Category := ⟨other⟩

def isOther (category : Category) : Bool := category = other

/-- The name of the category's constant, such as `VPst`. -/
def name (category : Category) : String :=
  match category.position with
  | some position => category.role.tag ++ position.suffix
  | none => category.role.tag

end Category

end ShapingTables
