/-! The syllabic category: which part a codepoint plays in an Indic syllable. A codepoint
that no line assigns plays none and is `other`. -/
namespace ShapingTables

inductive SyllabicCategory where
  | other
  | bindu
  | visarga
  | avagraha
  | nukta
  | virama
  | pureKiller
  | invisibleStacker
  | vowelIndependent
  | vowelDependent
  | vowel
  | consonantPlaceholder
  | consonant
  | consonantDead
  | consonantWithStacker
  | consonantPrefixed
  | consonantPrecedingRepha
  | consonantSucceedingRepha
  | consonantSubjoined
  | consonantMedial
  | consonantFinal
  | consonantHeadLetter
  | consonantInitialPostfixed
  | modifyingLetter
  | toneLetter
  | toneMark
  | geminationMark
  | cantillationMark
  | registerShifter
  | syllableModifier
  | consonantKiller
  | nonJoiner
  | joiner
  | numberJoiner
  | number
  | brahmiJoiningNumber
  | hieroglyph
  | hieroglyphJoiner
  | hieroglyphSegmentBegin
  | hieroglyphSegmentEnd
  deriving DecidableEq, Repr

namespace SyllabicCategory

/-- The name of the property itself. -/
def propertyName : String := "Indic_Syllabic_Category"

/-- Every value, in the order in which the standard lists them. -/
def all : List SyllabicCategory := [
  .other, .bindu, .visarga, .avagraha, .nukta, .virama, .pureKiller, .invisibleStacker,
  .vowelIndependent, .vowelDependent, .vowel, .consonantPlaceholder, .consonant, .consonantDead,
  .consonantWithStacker, .consonantPrefixed, .consonantPrecedingRepha, .consonantSucceedingRepha,
  .consonantSubjoined, .consonantMedial, .consonantFinal, .consonantHeadLetter,
  .consonantInitialPostfixed, .modifyingLetter, .toneLetter, .toneMark, .geminationMark,
  .cantillationMark, .registerShifter, .syllableModifier, .consonantKiller, .nonJoiner, .joiner,
  .numberJoiner, .number, .brahmiJoiningNumber, .hieroglyph, .hieroglyphJoiner,
  .hieroglyphSegmentBegin, .hieroglyphSegmentEnd]

/-- The spelling the data files use. -/
def ucdName : SyllabicCategory → String
  | .other => "Other"
  | .bindu => "Bindu"
  | .visarga => "Visarga"
  | .avagraha => "Avagraha"
  | .nukta => "Nukta"
  | .virama => "Virama"
  | .pureKiller => "Pure_Killer"
  | .invisibleStacker => "Invisible_Stacker"
  | .vowelIndependent => "Vowel_Independent"
  | .vowelDependent => "Vowel_Dependent"
  | .vowel => "Vowel"
  | .consonantPlaceholder => "Consonant_Placeholder"
  | .consonant => "Consonant"
  | .consonantDead => "Consonant_Dead"
  | .consonantWithStacker => "Consonant_With_Stacker"
  | .consonantPrefixed => "Consonant_Prefixed"
  | .consonantPrecedingRepha => "Consonant_Preceding_Repha"
  | .consonantSucceedingRepha => "Consonant_Succeeding_Repha"
  | .consonantSubjoined => "Consonant_Subjoined"
  | .consonantMedial => "Consonant_Medial"
  | .consonantFinal => "Consonant_Final"
  | .consonantHeadLetter => "Consonant_Head_Letter"
  | .consonantInitialPostfixed => "Consonant_Initial_Postfixed"
  | .modifyingLetter => "Modifying_Letter"
  | .toneLetter => "Tone_Letter"
  | .toneMark => "Tone_Mark"
  | .geminationMark => "Gemination_Mark"
  | .cantillationMark => "Cantillation_Mark"
  | .registerShifter => "Register_Shifter"
  | .syllableModifier => "Syllable_Modifier"
  | .consonantKiller => "Consonant_Killer"
  | .nonJoiner => "Non_Joiner"
  | .joiner => "Joiner"
  | .numberJoiner => "Number_Joiner"
  | .number => "Number"
  | .brahmiJoiningNumber => "Brahmi_Joining_Number"
  | .hieroglyph => "Hieroglyph"
  | .hieroglyphJoiner => "Hieroglyph_Joiner"
  | .hieroglyphSegmentBegin => "Hieroglyph_Segment_Begin"
  | .hieroglyphSegmentEnd => "Hieroglyph_Segment_End"

def ofUcdName? (text : String) : Option SyllabicCategory :=
  all.find? (·.ucdName == text)

instance : Inhabited SyllabicCategory := ⟨.other⟩

theorem mem_all (value : SyllabicCategory) : value ∈ all := by cases value <;> decide

/-- Every value is read back from its spelling, so no two values share one. -/
theorem ofUcdName?_ucdName (value : SyllabicCategory) : ofUcdName? value.ucdName = some value := by
  cases value <;> decide

end SyllabicCategory

end ShapingTables
