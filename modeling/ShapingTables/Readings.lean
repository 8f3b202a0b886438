import ShapingTables.Block
import ShapingTables.Source

/-! What the seven attribute files say, before anything is merged. Each property is a list
of ranges with values in which a later entry takes precedence: the rows of the file, the
rows of its overlay, and for the syllabic category the overrides. -/
namespace ShapingTables

structure Readings where
  syllabic : List (CodepointRange × SyllabicCategory)
  positional : List (CodepointRange × PositionalCategory)
  general : List (CodepointRange × GeneralCategory)
  joining : List (CodepointRange × JoiningType)
  blocks : BlockTable

namespace Readings

/-- Syllabic categories that hold whatever the files say: letters and signs which
the universal shaping model needs and the Indic files leave out, and signs that
stand in for a base. -/
def syllabicOverrides : List (CodepointRange × SyllabicCategory) := [
  (⟨0x0640, 0x0640⟩, .other),
  (⟨0x07CA, 0x07EA⟩, .other),
  (⟨0x07FA, 0x07FA⟩, .other),
  (⟨0x0840, 0x0858⟩, .other),
  (⟨0x1887, 0x18A8⟩, .other),
  (⟨0x18AA, 0x18AA⟩, .other),
  (⟨0x1B61, 0x1B61⟩, .other),
  (⟨0x1B63, 0x1B67⟩, .other),
  (⟨0x1B69, 0x1B6A⟩, .other),
  (⟨0x2060, 0x2060⟩, .other),
  (⟨0xA840, 0xA872⟩, .other),
  (⟨0x10B80, 0x10B91⟩, .other),
  (⟨0x10BA9, 0x10BAE⟩, .other),
  (⟨0x10FB0, 0x10FB0⟩, .other),
  (⟨0x10FB2, 0x10FB6⟩, .other),
  (⟨0x10FB8, 0x10FBF⟩, .other),
  (⟨0x10FC1, 0x10FC4⟩, .other),
  (⟨0x10FC9, 0x10FCB⟩, .other),
  (⟨0x1B5B, 0x1B5C⟩, .consonantPlaceholder),
  (⟨0x1B5F, 0x1B5F⟩, .consonantPlaceholder),
  (⟨0x1B62, 0x1B62⟩, .consonantPlaceholder),
  (⟨0x1B68, 0x1B68⟩, .consonantPlaceholder),
  (⟨0x11C44, 0x11C45⟩, .consonantPlaceholder),
  (⟨0x111C8, 0x111C8⟩, .consonantPlaceholder)]

/-- The overlay has the spelling `Consonant_Final_Modifier` of its own. -/
def syllabicOverlayValue? (written : String) : Option SyllabicCategory :=
  if written == "Consonant_Final_Modifier" then some .syllableModifier
  else SyllabicCategory.ofUcdName? written

/-- The overlay writes `NA` for a sign without a position. -/
def positionalOverlayValue? (written : String) : Option PositionalCategory :=
  if written == "NA" then some .notApplicable else PositionalCategory.ofUcdName? written

/-- Some rows of the syllabic overlay are commented out below this marker. -/
def syllabicOverlayFormat : DataFile.Format := ⟨2, some "USE_Syllabic_Category"⟩

/-- The character database files have the value in their third field. -/
def databaseFormat : DataFile.Format := ⟨3, none⟩

/-- Reads the attribute files in a fixed order and stops at the first fault. -/
def ofSource (source : Source) : Except Fault Readings := do
  let syllabic ← source.read .syllabicCategory
    (DataFile.values .plain 1 SyllabicCategory.ofUcdName?)
  let syllabicOverlay ← source.read .syllabicOverlay
    (DataFile.values syllabicOverlayFormat 1 syllabicOverlayValue?)
  let positional ← source.read .positionalCategory
    (DataFile.values .plain 1 PositionalCategory.ofUcdName?)
  let positionalOverlay ← source.read .positionalOverlay
    (DataFile.values .plain 1 positionalOverlayValue?)
  let general ← source.read .unicodeData
    (DataFile.values databaseFormat 2 GeneralCategory.ofUcdName?)
  let joining ← source.read .arabicShaping
    (DataFile.values databaseFormat 2 JoiningType.ofUcdName?)
  let blocks ← source.read .blocks BlockTable.ofText
  return ⟨syllabic ++ syllabicOverlay ++ syllabicOverrides, positional ++ positionalOverlay,
    general, joining, blocks⟩

end Readings

end ShapingTables
