import ShapingTables.Classification.Correction
import ShapingTables.Fault

/-! One predicate for each role. A codepoint has a role when exactly one predicate holds
of its corrected attributes; none takes precedence over another. -/
namespace ShapingTables

namespace Attributes

variable (a : Attributes)

def isBase : Bool :=
  (match a.syllabic with
    | .number | .consonant | .consonantHeadLetter | .toneLetter | .vowelIndependent => true
    | _ => false) ||
  (a.joining.isJoining && a.syllabic != .joiner) ||
  (a.general == .otherLetter &&
    match a.syllabic with
    | .avagraha | .bindu | .consonantFinal | .consonantMedial | .consonantSubjoined | .vowel
    | .vowelDependent => true
    | _ => false)

def isBaseNumber : Bool := a.syllabic == .brahmiJoiningNumber

/-- Placeholders, and the dashes, bullets and squares used as such. -/
def isGenericBase : Bool :=
  a.syllabic == .consonantPlaceholder || a.codepoint == 0x2015 || a.codepoint == 0x2022 ||
    (0x25FB ≤ a.codepoint && a.codepoint ≤ 0x25FE)

def isConsonantFinal : Bool :=
  (a.syllabic == .consonantFinal && a.general != .otherLetter) ||
    a.syllabic == .consonantSucceedingRepha

def isConsonantFinalModifier : Bool := a.syllabic == .syllableModifier

def isConsonantMedial : Bool :=
  (a.syllabic == .consonantMedial && a.general != .otherLetter) ||
    a.syllabic == .consonantInitialPostfixed

/-- Balinese musical signs. -/
def isSymbolModifier : Bool := 0x1B6B ≤ a.codepoint && a.codepoint ≤ 0x1B73

def isConsonantModifier : Bool :=
  (a.syllabic == .nukta || a.syllabic == .geminationMark || a.syllabic == .consonantKiller) &&
    !a.isSymbolModifier

def isConsonantSubjoined : Bool :=
  a.syllabic == .consonantSubjoined && a.general != .otherLetter

def isConsonantWithStacker : Bool := a.syllabic == .consonantWithStacker

def isHalantOrVowelModifier : Bool := a.codepoint == 0x11046 || a.codepoint == 0x1134D

def isSakot : Bool := a.codepoint == 0x1A60

def isHalant : Bool :=
  (a.syllabic == .virama || a.syllabic == .invisibleStacker) && !a.isHalantOrVowelModifier &&
    !a.isSakot

def isHalantNumber : Bool := a.syllabic == .numberJoiner

def isHieroglyph : Bool := a.syllabic == .hieroglyph

def isHieroglyphJoiner : Bool := a.syllabic == .hieroglyphJoiner

def isHieroglyphSegmentBegin : Bool := a.syllabic == .hieroglyphSegmentBegin

def isHieroglyphSegmentEnd : Bool := a.syllabic == .hieroglyphSegmentEnd

def isNonJoiner : Bool := a.syllabic == .nonJoiner

/-- The dotted circle and four further signs are symbols to the standard alone. -/
def isSymbol : Bool :=
  (a.general == .otherSymbol || a.general == .currencySymbol) &&
    !(a.codepoint == 0x25CC || a.codepoint == 0x1E14F || a.codepoint == 0x0F01 ||
      a.codepoint == 0x1B62 || a.codepoint == 0x1B68)

def isOther : Bool :=
  (a.general == .unassigned || a.general == .otherPunctuation ||
    match a.syllabic with
    | .consonantDead | .joiner | .modifyingLetter | .other => true
    | _ => false) &&
  !a.isBase && !a.isGenericBase && !a.isSymbol && !a.isSymbolModifier

def isRepha : Bool :=
  a.syllabic == .consonantPrecedingRepha || a.syllabic == .consonantPrefixed

def isVowel : Bool :=
  a.syllabic == .pureKiller ||
    (a.general != .otherLetter && (a.syllabic == .vowel || a.syllabic == .vowelDependent) &&
      a.codepoint != 0xAA29)

def isVowelModifier : Bool :=
  (match a.syllabic with
    | .toneMark | .cantillationMark | .registerShifter | .visarga => true
    | _ => false) ||
  (a.general != .otherLetter && (a.syllabic == .bindu || a.codepoint == 0xAA29))

end Attributes

namespace Role

def holds (attributes : Attributes) : Role → Bool
  | .base => attributes.isBase
  | .baseNumber => attributes.isBaseNumber
  | .genericBase => attributes.isGenericBase
  | .consonantFinal => attributes.isConsonantFinal
  | .consonantFinalModifier => attributes.isConsonantFinalModifier
  | .consonantMedial => attributes.isConsonantMedial
  | .consonantModifier => attributes.isConsonantModifier
  | .consonantSubjoined => attributes.isConsonantSubjoined
  | .consonantWithStacker => attributes.isConsonantWithStacker
  | .halant => attributes.isHalant
  | .halantOrVowelModifier => attributes.isHalantOrVowelModifier
  | .halantNumber => attributes.isHalantNumber
  | .hieroglyph => attributes.isHieroglyph
  | .hieroglyphJoiner => attributes.isHieroglyphJoiner
  | .hieroglyphSegmentBegin => attributes.isHieroglyphSegmentBegin
  | .hieroglyphSegmentEnd => attributes.isHieroglyphSegmentEnd
  | .nonJoiner => attributes.isNonJoiner
  | .other => attributes.isOther
  | .repha => attributes.isRepha
  | .sakot => attributes.isSakot
  | .symbol => attributes.isSymbol
  | .symbolModifier => attributes.isSymbolModifier
  | .vowel => attributes.isVowel
  | .vowelModifier => attributes.isVowelModifier

/-- The roles of `candidates` whose predicates hold, in that order. -/
def matching (candidates : List Role) (attributes : Attributes) : List Role :=
  candidates.filter (holds attributes)

/-- The one role whose predicate holds. -/
def resolve (attributes : Attributes) : Except Fault Role :=
  match matching all attributes with
  | [role] => .ok role
  | matched => .error (.ambiguousRole attributes matched)

end Role

end ShapingTables
