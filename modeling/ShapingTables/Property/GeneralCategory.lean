/-! The general category of a codepoint, the third field of `UnicodeData.txt`. A codepoint
that no line of that file covers is unassigned. -/
namespace ShapingTables

inductive GeneralCategory where
  | control
  | format
  | unassigned
  | privateUse
  | surrogate
  | lowercaseLetter
  | modifierLetter
  | otherLetter
  | titlecaseLetter
  | uppercaseLetter
  | spacingMark
  | enclosingMark
  | nonspacingMark
  | decimalNumber
  | letterNumber
  | otherNumber
  | connectorPunctuation
  | dashPunctuation
  | closePunctuation
  | finalPunctuation
  | initialPunctuation
  | otherPunctuation
  | openPunctuation
  | currencySymbol
  | modifierSymbol
  | mathSymbol
  | otherSymbol
  | lineSeparator
  | paragraphSeparator
  | spaceSeparator
  deriving DecidableEq, Repr

namespace GeneralCategory

/-- The name of the property itself. -/
def propertyName : String := "General_Category"

/-- Every value, in the order in which the standard lists them. -/
def all : List GeneralCategory := [
  .control, .format, .unassigned, .privateUse, .surrogate, .lowercaseLetter, .modifierLetter,
  .otherLetter, .titlecaseLetter, .uppercaseLetter, .spacingMark, .enclosingMark, .nonspacingMark,
  .decimalNumber, .letterNumber, .otherNumber, .connectorPunctuation, .dashPunctuation,
  .closePunctuation, .finalPunctuation, .initialPunctuation, .otherPunctuation, .openPunctuation,
  .currencySymbol, .modifierSymbol, .mathSymbol, .otherSymbol, .lineSeparator,
  .paragraphSeparator, .spaceSeparator]

/-- The spelling the data files use. -/
def ucdName : GeneralCategory → String
  | .control => "Cc"
  | .format => "Cf"
  | .unassigned => "Cn"
  | .privateUse => "Co"
  | .surrogate => "Cs"
  | .lowercaseLetter => "Ll"
  | .modifierLetter => "Lm"
  | .otherLetter => "Lo"
  | .titlecaseLetter => "Lt"
  | .uppercaseLetter => "Lu"
  | .spacingMark => "Mc"
  | .enclosingMark => "Me"
  | .nonspacingMark => "Mn"
  | .decimalNumber => "Nd"
  | .letterNumber => "Nl"
  | .otherNumber => "No"
  | .connectorPunctuation => "Pc"
  | .dashPunctuation => "Pd"
  | .closePunctuation => "Pe"
  | .finalPunctuation => "Pf"
  | .initialPunctuation => "Pi"
  | .otherPunctuation => "Po"
  | .openPunctuation => "Ps"
  | .currencySymbol => "Sc"
  | .modifierSymbol => "Sk"
  | .mathSymbol => "Sm"
  | .otherSymbol => "So"
  | .lineSeparator => "Zl"
  | .paragraphSeparator => "Zp"
  | .spaceSeparator => "Zs"

def ofUcdName? (text : String) : Option GeneralCategory :=
  all.find? (·.ucdName == text)

instance : Inhabited GeneralCategory := ⟨.unassigned⟩

/-- Every value is read back from its spelling, so no two values share one. -/
theorem ofUcdName?_ucdName (value : GeneralCategory) : ofUcdName? value.ucdName = some value := by
  cases value <;> decide

end GeneralCategory

end ShapingTables
