import ShapingTables.Proofs.Generated.Program
import ShapingTables.Proofs.Generated.Token

/-! Generated expressions that measure a sequence in `glyphs`. Each is the body of a
function, so a glyph that is missing in front of `?` makes the function answer
nothing. The reader takes one token at a time and keeps the matches that are still
open in a list. -/
namespace ShapingTables.Generated

inductive LabelPattern where
  | anything
  | oneOf (labels : List Nat)
  deriving DecidableEq, Repr

namespace LabelPattern

def lists (label : Nat) : LabelPattern → Bool
  | .anything => false
  | .oneOf labels => labels.contains label

def takes (glyph : Nat) : LabelPattern → Bool
  | .anything => true
  | .oneOf labels => labels.contains glyph

end LabelPattern

mutual

inductive Matching where
  | answer (length : Option Nat)
  /-- A length if the glyphs from one place up to another are those listed. -/
  | compare (start stop : Nat) (listed : List Nat) (length : Nat)
  /-- The glyph at a place, if there is one, selects an arm. -/
  | select (place : Nat) (arms : MatchingArms)

inductive MatchingArms where
  | nil
  | cons (pattern : LabelPattern) (body : Matching) (others : MatchingArms)

end

namespace MatchingArms

def toList : MatchingArms → List (LabelPattern × Matching)
  | .nil => []
  | .cons pattern body others => (pattern, body) :: others.toList

def ofList : List (LabelPattern × Matching) → MatchingArms
  | [] => .nil
  | (pattern, body) :: rest => .cons pattern body (ofList rest)

theorem ofList_toList (arms : MatchingArms) : ofList arms.toList = arms := by
  match arms with
  | .nil => rfl
  | .cons pattern body others => rw [toList, ofList, ofList_toList others]

/-- The bodies of the arms that list a label. -/
def bodiesOf (label : Nat) (arms : MatchingArms) : List Matching :=
  (arms.toList.filter (·.1.lists label)).map (·.2)

end MatchingArms

/-- The glyphs from one place up to another, none where the places are out of order or
outside the glyphs. -/
def window? (glyphs : List Nat) (start stop : Nat) : Option (List Nat) :=
  if start ≤ stop ∧ stop ≤ glyphs.length then some ((glyphs.drop start).take (stop - start))
  else none

mutual

def Matching.eval (glyphs : List Nat) : Matching → Except Trap (Option Nat)
  | .answer length => .ok length
  | .compare start stop listed length =>
    .ok (if window? glyphs start stop = some listed then some length else none)
  | .select place arms =>
    match glyphs[place]? with
    | some glyph => arms.eval glyphs glyph
    | none => .ok none

/-- The first arm that takes the glyph decides. -/
def MatchingArms.eval (glyphs : List Nat) (glyph : Nat) : MatchingArms → Except Trap (Option Nat)
  | .nil => .error .noArm
  | .cons pattern body others =>
    if pattern.takes glyph then body.eval glyphs else others.eval glyphs glyph

end

namespace Matching

/-- A match whose last arm so far has no body yet. -/
structure Frame where
  place : Nat
  arms : List (LabelPattern × Matching)
  pattern : LabelPattern

/-- What must come next. -/
inductive Focus where
  | expression
  /-- One certain token, and then something else. -/
  | exactly (token : Token) (next : Focus)
  | length
  | start
  | stop (start : Nat)
  | glyph (start stop : Nat) (listed : List Nat)
  | behindGlyph (start stop : Nat) (listed : List Nat)
  | total (start stop : Nat) (listed : List Nat)
  | place
  /-- A further arm or the end of the match. -/
  | arm (place : Nat) (arms : List (LabelPattern × Matching))
  | label (place : Nat) (arms : List (LabelPattern × Matching)) (labels : List Nat)
  | behindLabel (place : Nat) (arms : List (LabelPattern × Matching)) (labels : List Nat)
  | behind (whole : Matching)

structure Reader where
  focus : Focus
  frames : List Frame

/-- Certain tokens one after the other, and then something else. -/
def Focus.following (tokens : List Token) (next : Focus) : Focus := tokens.foldr .exactly next

/-- The tokens between `matches` or `match` and the first place. -/
def getTokens : List Token := [.name "glyphs", .symbol .dot, .name "get", .symbol .openRound]

def listTokens : List Token :=
  [.symbol .closeRound, .symbol .comma, .name "Some", .symbol .openRound, .symbol .openSquare]

def thenTokens : List Token :=
  [.symbol .closeRound, .symbol .closeRound, .symbol .dot, .name "then_some", .symbol .openRound]

def armsTokens : List Token := [.symbol .closeRound, .symbol .question, .symbol .openCurly]

def readExpression : Token → Option Focus
  | .name text =>
    if text = "Some" then some (.exactly (.symbol .openRound) .length)
    else if text = "None" then some (.behind (.answer none))
    else if text = "matches" then
      some (.following ([.symbol .exclamation, .symbol .openRound] ++ getTokens) .start)
    else none
  | .keyword .select => some (.following (.symbol .star :: getTokens) .place)
  | _ => none

/-- Labels and glyphs are words, which a greater number is not. -/
def readWord (value : Nat) (next : Focus) : Option Focus :=
  if value < wordSize then some next else none

def step : Reader → Token → Option Reader
  | ⟨.expression, frames⟩, token => (readExpression token).map (⟨·, frames⟩)
  | ⟨.exactly expected next, frames⟩, token =>
    if token = expected then some ⟨next, frames⟩ else none
  | ⟨.length, frames⟩, .number value =>
    some ⟨.exactly (.symbol .closeRound) (.behind (.answer (some value))), frames⟩
  | ⟨.start, frames⟩, .number value => some ⟨.exactly (.symbol .doubleDot) (.stop value), frames⟩
  | ⟨.stop start, frames⟩, .number value =>
    some ⟨.following listTokens (.glyph start value []), frames⟩
  | ⟨.glyph start stop listed, frames⟩, .number value =>
    (readWord value (.behindGlyph start stop (listed ++ [value]))).map (⟨·, frames⟩)
  | ⟨.behindGlyph start stop listed, frames⟩, .symbol .comma =>
    some ⟨.glyph start stop listed, frames⟩
  | ⟨.behindGlyph start stop listed, frames⟩, .symbol .closeSquare
  | ⟨.glyph start stop listed, frames⟩, .symbol .closeSquare =>
    some ⟨.following thenTokens (.total start stop listed), frames⟩
  | ⟨.total start stop listed, frames⟩, .number value =>
    some ⟨.exactly (.symbol .closeRound) (.behind (.compare start stop listed value)), frames⟩
  | ⟨.place, frames⟩, .number value => some ⟨.following armsTokens (.arm value []), frames⟩
  | ⟨.arm place arms, frames⟩, .keyword .anything =>
    some ⟨.exactly (.symbol .arrow) .expression, ⟨place, arms, .anything⟩ :: frames⟩
  | ⟨.arm place arms, frames⟩, .number value =>
    (readWord value (.behindLabel place arms [value])).map (⟨·, frames⟩)
  | ⟨.arm place arms, frames⟩, .symbol .closeCurly =>
    some ⟨.behind (.select place (.ofList arms)), frames⟩
  | ⟨.label place arms labels, frames⟩, .number value =>
    (readWord value (.behindLabel place arms (labels ++ [value]))).map (⟨·, frames⟩)
  | ⟨.behindLabel place arms labels, frames⟩, .symbol .bar =>
    some ⟨.label place arms labels, frames⟩
  | ⟨.behindLabel place arms labels, frames⟩, .symbol .arrow =>
    some ⟨.expression, ⟨place, arms, .oneOf labels⟩ :: frames⟩
  | ⟨.behind body, ⟨place, arms, pattern⟩ :: frames⟩, .symbol .comma =>
    some ⟨.arm place (arms ++ [(pattern, body)]), frames⟩
  | _, _ => none

def finish : Reader → Option Matching
  | ⟨.behind whole, []⟩ => some whole
  | _ => none

/-- Tokens that lead from one reader to another. -/
def Leads (found : List Token) (before after : Reader) : Prop :=
  found.foldlM step before = some after

theorem Leads.append {front rest : List Token} {before middle after : Reader}
    (first : Leads front before middle) (second : Leads rest middle after) :
    Leads (front ++ rest) before after := by
  rw [Leads, List.foldlM_append, first]
  exact second

/-- The expression of a whole text. -/
def read? (text : String) : Option Matching :=
  ((tokens text.toList).foldlM step ⟨.expression, []⟩).bind finish

end Matching

end ShapingTables.Generated
