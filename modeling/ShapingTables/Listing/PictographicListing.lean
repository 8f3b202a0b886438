import ShapingTables.Listing.Notice
import ShapingTables.Pictographic

/-! The generated file with a function that matches a codepoint against one pattern after
the other and is false where none of them fits. -/
namespace ShapingTables

open Text (Outline)

inductive CodepointPattern where
  | one (codepoint : Nat)
  /-- From the first to the last, both included. -/
  | between (first last : Nat)
  deriving DecidableEq, Repr

namespace CodepointPattern

def ofRange (range : CodepointRange) : CodepointPattern :=
  if range.first = range.last then .one range.first else .between range.first range.last

def fits (codepoint : Nat) : CodepointPattern → Bool
  | .one only => codepoint == only
  | .between first last => first ≤ codepoint && codepoint ≤ last

def text : CodepointPattern → String
  | .one codepoint => "0x" ++ Text.hex4 codepoint
  | .between first last => "0x" ++ Text.hex4 first ++ "..=0x" ++ Text.hex4 last

end CodepointPattern

structure PictographicListing where
  patterns : List CodepointPattern
  deriving DecidableEq, Repr

namespace PictographicListing

def ofSet (set : PictographicSet) : PictographicListing :=
  ⟨set.ranges.map CodepointPattern.ofRange⟩

/-- What the listed function answers. -/
def holds (listing : PictographicListing) (codepoint : Nat) : Bool :=
  listing.patterns.any (·.fits codepoint)

def outlines (listing : PictographicListing) : List Outline :=
  [generatedNotice,
    .line "",
    .line "#[rustfmt::skip]",
    .block "pub fn is_emoji_extended_pictographic(u: u32) -> bool" [
      .block "match u"
        (listing.patterns.map (fun pattern => .line (pattern.text ++ " => true,")) ++
          [.line "_ => false,"]) ""] ""]

def text (listing : PictographicListing) : String := Outline.text listing.outlines

end PictographicListing

end ShapingTables
