import ShapingTables.Attributes
import ShapingTables.Codepoint

/-! Codepoints whose published attributes differ from what shaping needs. Syllabic
corrections come before the role is decided and positional ones after it. -/
namespace ShapingTables.Correction

/-- The first three ranges have a position in the data but no syllabic category.
U+1CED is a tone mark after a few nasalization marks only. -/
def syllabic : List (CodepointRange × SyllabicCategory) := [
  (⟨0x1CE2, 0x1CE8⟩, .cantillationMark),
  (⟨0x0F18, 0x0F19⟩, .vowelDependent),
  (⟨0x0F3E, 0x0F3F⟩, .vowelDependent),
  (⟨0x1BF2, 0x1BF3⟩, .nukta),
  (⟨0x1CED, 0x1CED⟩, .toneMark),
  (⟨0xA982, 0xA982⟩, .consonantSucceedingRepha)]

def positional : List (CodepointRange × PositionalCategory) := [
  (⟨0x0953, 0x0954⟩, .notApplicable),
  (⟨0x103C, 0x103C⟩, .left),
  (⟨0xA926, 0xA92A⟩, .top),
  (⟨0x11302, 0x11303⟩, .top),
  (⟨0x114C1, 0x114C1⟩, .top),
  (⟨0x1171E, 0x1171E⟩, .left),
  (⟨0x1CF8, 0x1CF9⟩, .top),
  (⟨0x1112A, 0x1112B⟩, .top),
  (⟨0x11131, 0x11132⟩, .top)]

/-- The value of the first range that contains the codepoint. -/
def find? (table : List (CodepointRange × α)) (codepoint : Nat) : Option α :=
  (table.find? fun entry => entry.1.contains codepoint).map (·.2)

/-- The two Batak killers attach below, which their correction to a nukta needs. -/
def beforeRole (attributes : Attributes) : Attributes :=
  { attributes with
    syllabic := (find? syllabic attributes.codepoint).getD attributes.syllabic
    positional :=
      if attributes.codepoint = 0x1BF2 ∨ attributes.codepoint = 0x1BF3 then .bottom
      else attributes.positional }

def afterRole (attributes : Attributes) : Attributes :=
  { attributes with
    positional := (find? positional attributes.codepoint).getD attributes.positional }

end ShapingTables.Correction
