import ShapingTables.Prohibition.Buffer

/-! The search for prohibited runs as a loop over the places of a buffer. Nothing is put out
before the first run; it copies what has been passed, and from then on every glyph follows. A
turn takes one unit of fuel, and a place outside a list ends the loop with a fault of its own. -/
namespace ShapingTables.GlyphBuffer

inductive SearchFault where
  | outOfBounds
  | outOfFuel
  deriving DecidableEq, Repr

/-- The items between two places, which must be in order and inside the list. -/
def between (items : List α) (start stop : Nat) : Except SearchFault (List α) :=
  if start ≤ stop ∧ stop ≤ items.length then .ok ((items.drop start).take (stop - start))
  else .error .outOfBounds

def itemAt (items : List α) (place : Nat) : Except SearchFault α :=
  match items[place]? with
  | some item => .ok item
  | none => .error .outOfBounds

/-- How far a search has come, and what it has put out. -/
structure Search where
  place : Nat
  output : List Glyph
  /-- A run has been found. -/
  fixed : Bool
  deriving DecidableEq, Repr

namespace Search

def start : Search := ⟨0, [], false⟩

/-- The output with everything that has been passed. -/
def opened (buffer : GlyphBuffer) (search : Search) : Except SearchFault (List Glyph) :=
  if search.fixed then .ok search.output
  else (between buffer.glyphs 0 search.place).map (search.output ++ ·)

/-- A run follows its circle, and the search goes on behind it. -/
def found (buffer : GlyphBuffer) (length : Nat) (search : Search) : Except SearchFault Search := do
  let front ← search.opened buffer
  let glyph ← itemAt buffer.glyphs search.place
  let run ← between buffer.glyphs search.place (search.place + length)
  return ⟨search.place + length, front ++ [⟨dottedCircle, glyph.cluster, false⟩] ++ run, true⟩

/-- A glyph at which no run begins is put out unless nothing has been put out yet. -/
def passed (buffer : GlyphBuffer) (search : Search) : Except SearchFault Search :=
  if search.fixed then
    (itemAt buffer.glyphs search.place).map fun glyph =>
      ⟨search.place + 1, search.output ++ [glyph], true⟩
  else .ok ⟨search.place + 1, search.output, false⟩

def turn (run? : List Nat → Option Nat) (buffer : GlyphBuffer) (search : Search) :
    Except SearchFault Search := do
  let rest ← between buffer.codepoints search.place buffer.codepoints.length
  match run? rest with
  | some length => search.found buffer length
  | none => search.passed buffer

/-- Turns up to the end of the buffer. A run without a length keeps the search at its place. -/
def loop (run? : List Nat → Option Nat) (buffer : GlyphBuffer) :
    Nat → Search → Except SearchFault Search
  | 0, _ => .error .outOfFuel
  | fuel + 1, search =>
    if search.place < buffer.glyphs.length then do loop run? buffer fuel (← search.turn run? buffer)
    else .ok search

end Search

/-- The buffer after a search for the runs that `run?` finds at the start of codepoints, and
whether there is any. -/
def search (run? : List Nat → Option Nat) (fuel : Nat) (buffer : GlyphBuffer) :
    Except SearchFault (GlyphBuffer × Bool) :=
  if buffer.withoutDottedCircles then .ok (buffer, false)
  else (Search.loop run? buffer fuel .start).map fun last =>
    if last.fixed then ({ buffer with glyphs := last.output }, true) else (buffer, false)

end ShapingTables.GlyphBuffer
