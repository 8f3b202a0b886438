import ShapingTables.Prohibition.Trie

/-! A prohibited run is shown as a broken cluster: a dotted circle goes in front of it.
Runs do not overlap, the search goes on behind the last glyph of a run, and no glyph of
the buffer is changed or lost. -/
namespace ShapingTables

def dottedCircle : Nat := 0x25CC

structure Glyph where
  /-- The codepoint, as long as it is not mapped to a glyph of the font. -/
  codepoint : Nat
  cluster : Nat
  /-- Belongs to the cluster of the glyph before it. -/
  continuation : Bool
  deriving DecidableEq, Repr

structure GlyphBuffer where
  glyphs : List Glyph
  /-- Prohibited runs are left as they are. -/
  withoutDottedCircles : Bool
  deriving DecidableEq, Repr

namespace GlyphBuffer

/-- One glyph for each codepoint, numbered through as clusters. -/
def ofCodepoints (codepoints : List Nat) : GlyphBuffer :=
  ⟨codepoints.mapIdx fun index codepoint => ⟨codepoint, index, false⟩, false⟩

def codepoints (buffer : GlyphBuffer) : List Nat := buffer.glyphs.map (·.codepoint)

/-- Which codepoints begin a run. The first `skip` of them belong to a run that
has begun before. -/
def runMarks (matchLength? : List Nat → Option Nat) : Nat → List Nat → List Bool
  | _, [] => []
  | skip + 1, _ :: rest => false :: runMarks matchLength? skip rest
  | 0, codepoint :: rest =>
    match matchLength? (codepoint :: rest) with
    | some length => true :: runMarks matchLength? (length - 1) rest
    | none => false :: runMarks matchLength? 0 rest

/-- Each marked glyph gets a dotted circle of its own cluster in front of it. -/
def insertCircles (glyphs : List Glyph) (marks : List Bool) : List Glyph :=
  (glyphs.zip marks).flatMap fun (glyph, marked) =>
    if marked then [⟨dottedCircle, glyph.cluster, false⟩, glyph] else [glyph]

/-- The buffer with a dotted circle before each prohibited run, and whether there
is any. -/
def fix (trie : SequenceTrie) (buffer : GlyphBuffer) : GlyphBuffer × Bool :=
  if buffer.withoutDottedCircles then (buffer, false)
  else
    let marks := runMarks trie.matchLength? 0 buffer.codepoints
    ({ buffer with glyphs := insertCircles buffer.glyphs marks }, marks.contains true)

end GlyphBuffer

end ShapingTables
