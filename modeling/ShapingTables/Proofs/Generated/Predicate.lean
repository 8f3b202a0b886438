import ShapingTables.Proofs.Generated.MatcherFile

/-! Generated functions that say of a word whether it has a property. The body is one match on
the argument, and the first pattern that fits decides. A pattern is a word, a range of words
that is not empty, or anything; what is written otherwise is not read. -/
namespace ShapingTables.Generated

open BufferProgram (Parser)
open BufferProgram.Parser (expect)
open MatcherFile (Takes many many_flatMap bind_eq takes_expect takes_name length_le_flatMap)

inductive WordPattern where
  | one (word : Nat)
  /-- From the first to the last, both included. -/
  | between (first last : Nat)
  | anything
  deriving DecidableEq, Repr

namespace WordPattern

def fits (word : Nat) : WordPattern → Bool
  | .one only => word == only
  | .between first last => first ≤ word && word ≤ last
  | .anything => true

/-- Whether a match may have the pattern. -/
def Proper : WordPattern → Prop
  | .one only => only < wordSize
  | .between first last => first ≤ last ∧ last < wordSize
  | .anything => True

def tokens : WordPattern → List Token
  | .one only => [.number only]
  | .between first last => [.number first, .symbol .through, .number last]
  | .anything => [.keyword .anything]

end WordPattern

structure Predicate where
  name : String
  parameter : String
  arms : List (WordPattern × Bool)

namespace Predicate

def call (predicate : Predicate) (word : UInt32) : Except Trap Bool :=
  match predicate.arms.find? (·.1.fits word.toNat) with
  | some (_, answer) => .ok answer
  | none => .error .noArm

/-- Each pattern takes some word, no word is taken by two of them, and the words of a pattern
lie below those of the patterns behind it. -/
structure Ascending (patterns : List WordPattern) : Prop where
  nonempty : ∀ pattern ∈ patterns, ∃ word : UInt32, pattern.fits word.toNat = true
  disjoint : patterns.Pairwise fun left right => ∀ word : UInt32,
    ¬(left.fits word.toNat = true ∧ right.fits word.toNat = true)
  ascend : patterns.Pairwise fun left right => ∀ one other : UInt32,
    left.fits one.toNat = true → right.fits other.toNat = true → one < other

/-- An arm for each of some patterns, and one for all other words. -/
def armsOf (patterns : List WordPattern) : List (WordPattern × Bool) :=
  patterns.map (fun pattern => (pattern, true)) ++ [(.anything, false)]

theorem exists_find?_armsOf (patterns : List WordPattern) (word : Nat) : ∃ pattern,
    (armsOf patterns).find? (·.1.fits word) = some (pattern, patterns.any (·.fits word)) := by
  induction patterns with
  | nil => exact ⟨.anything, rfl⟩
  | cons pattern rest ih =>
    obtain ⟨found, later⟩ := ih
    rw [armsOf] at later
    by_cases here : pattern.fits word = true
    · exact ⟨pattern, by simp [armsOf, here]⟩
    · exact ⟨found, by simpa [armsOf, here] using later⟩

theorem call_of_arms {predicate : Predicate} {patterns : List WordPattern}
    (arms : predicate.arms = armsOf patterns) (word : UInt32) :
    predicate.call word = .ok (patterns.any (·.fits word.toNat)) := by
  obtain ⟨pattern, found⟩ := exists_find?_armsOf patterns word.toNat
  rw [call, arms, found]

def headTokens : List Token := [
  .symbol .hash, .symbol .openSquare, .name "rustfmt", .symbol .doubleColon, .name "skip",
  .symbol .closeSquare, .keyword .exported, .keyword .function]

/-- The type of the parameter and what the function gives. -/
def typeTokens : List Token := [
  .symbol .colon, .name "u32", .symbol .closeRound, .symbol .gives, .name "bool",
  .symbol .openCurly]

def selectTokens (parameter : String) : List Token := [
  .keyword .select, .name parameter, .symbol .openCurly]

def truthToken : Bool → Token
  | true => .name "true"
  | false => .name "false"

def armTokens (arm : WordPattern × Bool) : List Token :=
  arm.1.tokens ++ [.symbol .arrow, truthToken arm.2, .symbol .comma]

def endTokens : List Token := [.symbol .closeCurly, .symbol .closeCurly]

protected def tokens (predicate : Predicate) : List Token :=
  headTokens ++ ([.name predicate.name] ++ ([.symbol .openRound] ++ ([.name predicate.parameter] ++
    (typeTokens ++ selectTokens predicate.parameter ++
      (predicate.arms.flatMap armTokens ++ endTokens)))))

def pattern : Parser WordPattern
  | .keyword .anything :: rest => some (.anything, rest)
  | .number first :: .symbol .through :: .number last :: rest =>
    if first ≤ last ∧ last < wordSize then some (.between first last, rest) else none
  | .number only :: rest => if only < wordSize then some (.one only, rest) else none
  | _ => none

def truth : Parser Bool
  | .name text :: rest =>
    if text = "true" then some (true, rest)
    else if text = "false" then some (false, rest)
    else none
  | _ => none

/-- What stands behind a pattern. -/
def answer (taken : WordPattern) : Parser (WordPattern × Bool) := do
  expect [.symbol .arrow]
  let answer ← truth
  expect [.symbol .comma]
  return (taken, answer)

def arm : Parser (WordPattern × Bool) := pattern >>= answer

/-- The function matches its own parameter. -/
def whole (fuel : Nat) : Parser Predicate := do
  expect headTokens
  let called ← Parser.name
  expect [.symbol .openRound]
  let parameter ← Parser.name
  expect (typeTokens ++ selectTokens parameter)
  let arms ← many arm fuel
  expect endTokens
  return ⟨called, parameter, arms⟩

/-- The function of a whole text. -/
def read? (text : String) : Option Predicate :=
  let found := Generated.tokens text.toList
  match whole found.length found with
  | some (predicate, []) => some predicate
  | _ => none

theorem pattern_tokens {taken : WordPattern} (proper : taken.Proper) (rest : List Token) :
    pattern (taken.tokens ++ .symbol .arrow :: rest) = some (taken, .symbol .arrow :: rest) := by
  cases taken with
  | one only =>
    have small : only < wordSize := proper
    exact if_pos small
  | between first last =>
    have bounds : first ≤ last ∧ last < wordSize := proper
    exact if_pos bounds
  | anything => rfl

theorem takes_truth (answer : Bool) : Takes truth [truthToken answer] answer := by
  intro rest
  cases answer <;> rfl

theorem takes_arm {entry : WordPattern × Bool} (proper : entry.1.Proper) :
    Takes arm (armTokens entry) entry := by
  have behind : Takes (answer entry.1)
      ([.symbol .arrow] ++ ([truthToken entry.2] ++ [.symbol .comma])) entry :=
    (takes_expect _).bind ((takes_truth _).bind ((takes_expect _).give fun _ => entry))
  intro rest
  rw [armTokens, List.append_assoc, arm]
  exact (bind_eq (pattern_tokens proper _) answer).trans (behind rest)

/-- A function with proper patterns is read from its tokens. -/
theorem whole_tokens {predicate : Predicate} (named : predicate.name ∉ Parser.reserved)
    (parameter : predicate.parameter ∉ Parser.reserved)
    (proper : ∀ arm ∈ predicate.arms, arm.1.Proper) {fuel : Nat}
    (enough : predicate.arms.length ≤ fuel) :
    whole fuel predicate.tokens = some (predicate, []) := by
  have arms : many arm fuel (predicate.arms.flatMap armTokens ++ endTokens) =
      some (predicate.arms.map id, endTokens) :=
    many_flatMap (fun entry member => takes_arm (proper entry member)) rfl enough
  rw [Predicate.tokens, whole, bind_eq (takes_expect _ _), bind_eq (takes_name named _),
    bind_eq (takes_expect _ _), bind_eq (takes_name parameter _), bind_eq (takes_expect _ _),
    bind_eq arms, List.map_id]
  rfl

theorem read?_of_tokens {predicate : Predicate} (named : predicate.name ∉ Parser.reserved)
    (parameter : predicate.parameter ∉ Parser.reserved)
    (proper : ∀ arm ∈ predicate.arms, arm.1.Proper) {text : String}
    (scanned : Generated.tokens text.toList = predicate.tokens) : read? text = some predicate := by
  have filled : ∀ entry ∈ predicate.arms, armTokens entry ≠ [] := by simp [armTokens]
  have arms := length_le_flatMap filled
  have enough : predicate.arms.length ≤ predicate.tokens.length := by
    simp only [Predicate.tokens, List.length_append]
    omega
  simp only [read?, scanned, whole_tokens named parameter proper enough]

end Predicate

end ShapingTables.Generated
