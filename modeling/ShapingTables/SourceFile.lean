/-! The ten data files that the tables are built from, where each lies below the data
directory, and where it can be fetched. -/
namespace ShapingTables

inductive SourceFile where
  | syllabicCategory
  | positionalCategory
  | unicodeData
  | arabicShaping
  | blocks
  | scripts
  /-- Overlay of the universal shaping model for the syllabic categories. -/
  | syllabicOverlay
  /-- Overlay of the universal shaping model for the positional categories. -/
  | positionalOverlay
  /-- Vowel sequences that must not be joined. -/
  | invalidClusters
  | emojiData
  deriving DecidableEq, Repr

namespace SourceFile

def all : List SourceFile := [
  .syllabicCategory, .positionalCategory, .unicodeData, .arabicShaping, .blocks, .scripts,
  .syllabicOverlay, .positionalOverlay, .invalidClusters, .emojiData]

/-- The path below the data directory, which is also the name in messages. -/
def path : SourceFile → String
  | .syllabicCategory => "IndicSyllabicCategory.txt"
  | .positionalCategory => "IndicPositionalCategory.txt"
  | .unicodeData => "UnicodeData.txt"
  | .arabicShaping => "ArabicShaping.txt"
  | .blocks => "Blocks.txt"
  | .scripts => "Scripts.txt"
  | .syllabicOverlay => "ms-use/IndicSyllabicCategory-Additional.txt"
  | .positionalOverlay => "ms-use/IndicPositionalCategory-Additional.txt"
  | .invalidClusters => "ms-use/IndicShapingInvalidCluster.txt"
  | .emojiData => "emoji/emoji-data.txt"

/-- Where to fetch the file of a Unicode version. The overlays and the invalid
clusters belong to no version. -/
def origin (file : SourceFile) (version : String) : String :=
  match file with
  | .syllabicOverlay | .positionalOverlay | .invalidClusters =>
    "the USE data files (https://github.com/harfbuzz/harfbuzz/tree/main/src/ms-use)"
  | _ => "https://unicode.org/Public/" ++ version ++ "/ucd/" ++ file.path

end SourceFile

end ShapingTables
