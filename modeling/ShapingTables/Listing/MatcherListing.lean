import ShapingTables.Listing.BufferProgram
import ShapingTables.Listing.MatchExpression
import ShapingTables.Listing.Notice
import ShapingTables.Prohibition.Matchers
import ShapingTables.Property.Standalone

/-! The generated file with one function for each script, a function that selects among
them by the name of the script, and the loop that rewrites a glyph buffer. Functions are
known by their names, so two scripts with one function name share what the first of them
was given. -/
namespace ShapingTables

open Text (Outline)

structure MatcherListing where
  /-- The name and the body of each function; without a body nothing matches. -/
  functions : List (String × Option MatchExpression)
  /-- For each script the name of the function to call. -/
  cases : List (String × String)
  deriving DecidableEq, Repr

namespace MatcherListing

/-- The name of a script's function. Letters and digits of ASCII are kept in lower
case and every other character becomes an underscore. -/
def functionName (script : String) : String :=
  "match_" ++ String.ofList (script.toList.map fun c => if c.isAlphanum then c.toLower else '_')

/-- A character inside a string literal. What would not show by itself is written as
its number. -/
def escape (c : Char) : List Char :=
  if c = '"' then ['\\', '"']
  else if c = '\\' then ['\\', '\\']
  else if c = '\t' then ['\\', 't']
  else if c = '\r' then ['\\', 'r']
  else if c = '\n' then ['\\', 'n']
  else if c = '\x00' then ['\\', '0']
  else if standsAlone c then [c]
  else ['\\', 'u', '\x7b'] ++ (Text.hexDigits c.toNat).map Char.toLower ++ ['\x7d']

def stringLiteral (text : String) : String :=
  String.ofList ('"' :: text.toList.flatMap escape ++ ['"'])

def ofMatchers (matchers : ScriptMatchers) : MatcherListing where
  functions := matchers.tries.map fun trie =>
    (functionName trie.script, trie.root?.map (MatchExpression.ofNode 0))
  cases := matchers.scripts.map fun script => (script, functionName script)

/-- What the listed selection answers on a script and the glyphs at hand. -/
def run? (listing : MatcherListing) (script : String) (glyphs : List Nat) : Option Nat :=
  (listing.cases.lookup script).bind fun name =>
    ((listing.functions.lookup name).getD none).bind (·.eval glyphs)

def functionOutline (function : String × Option MatchExpression) : Outline :=
  .block ("fn " ++ function.1 ++ "(glyphs: &[u32]) -> Option<usize>") [
    match function.2 with
    | some body => body.outline "" ""
    | none => .line "None"] ""

def caseOutline (entry : String × String) : Outline :=
  .line (stringLiteral entry.1 ++ " => " ++ entry.2 ++ "(glyphs),")

def selectionOutline (listing : MatcherListing) : Outline :=
  .block "pub fn prohibited_run(script: &str, glyphs: &[u32]) -> Option<usize>" [
    .block "match script" (listing.cases.map caseOutline ++ [.line "_ => None,"]) ""] ""

def outlines (listing : MatcherListing) : List Outline :=
  [generatedNotice,
    .line "",
    .line "use super::buffer::\x7bGlyphBuffer, GlyphRecord\x7d;",
    .line "",
    .line "/// U+25CC DOTTED CIRCLE",
    .line ("pub const DOTTED_CIRCLE: u32 = 0x" ++ Text.hex4 dottedCircle ++ ";")] ++
  listing.functions.flatMap (fun function => [.line "", functionOutline function]) ++
  [.line "",
    .line "/// Length of the prohibited run at the start of `glyphs`",
    listing.selectionOutline,
    .line "",
    .line "/// Insert a dotted circle before every prohibited run of `script` in",
    .line "/// `buffer`. Returns whether anything was inserted.",
    BufferProgram.scanAndFix.outline]

def text (listing : MatcherListing) : String := Outline.text listing.outlines

end MatcherListing

end ShapingTables
