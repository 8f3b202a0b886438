import ShapingTables.Listing.PictographicListing
import ShapingTables.Proofs.Generated.Predicate
import ShapingTables.Proofs.PictographicRanges

/-! The generated file of a pictographic set. Its function has one arm for each stored range, in
their order, so the arms ascend as the ranges do, and the first arm that fits is found exactly
for the codepoints that the set holds. -/
namespace ShapingTables

open Generated
open Text (Outline)

namespace CodepointPattern

/-- What a pattern is read as. -/
def code : CodepointPattern → WordPattern
  | .one codepoint => .one codepoint
  | .between first last => .between first last

theorem fits_code (pattern : CodepointPattern) (codepoint : Nat) :
    pattern.code.fits codepoint = pattern.fits codepoint := by
  cases pattern <;> rfl

theorem fits_ofRange (range : CodepointRange) (codepoint : Nat) :
    (ofRange range).fits codepoint = range.contains codepoint := by
  rw [Bool.eq_iff_iff, CodepointRange.contains_iff, ofRange]
  split
  · rename_i single
    simp only [fits, beq_iff_eq]
    omega
  · simp [fits]

theorem proper_ofRange {range : CodepointRange} (order : range.first ≤ range.last)
    (word : range.last ≤ 0xFFFFFFFF) : (ofRange range).code.Proper := by
  rw [ofRange]
  split <;> simp only [code, WordPattern.Proper, wordSize] <;> omega

/-- A literal that has not ended yet. -/
theorem scan_digits (n : Nat) : scan (.word ['0', 'x']) (Text.hex4 n).toList =
    ([], .word (['0', 'x'] ++ (Text.hex4 n).toList)) :=
  scan_letters _ isLetter_hex

theorem scan_arm (pattern : CodepointPattern) :
    scan .between ((pattern.text ++ " => true,").toList ++ ['\n']) =
      (Predicate.armTokens (pattern.code, true), .between) := by
  have begun : scan .between "0x".toList = ([], .word ['0', 'x']) := rfl
  have ended (n : Nat) : scan (.word (['0', 'x'] ++ (Text.hex4 n).toList))
      (" => true,".toList ++ ['\n']) =
      (.number n :: [.symbol .arrow, Predicate.truthToken true, .symbol .comma], .between) := by
    rw [← ofLetters_hex 4 n]
    rfl
  cases pattern with
  | one codepoint =>
    simp only [text, String.toList_append, List.append_assoc]
    have whole := scan_append begun (scan_append (scan_digits codepoint) (ended codepoint))
    exact whole
  | between first last =>
    have through : scan (.word (['0', 'x'] ++ (Text.hex4 first).toList)) "..=0x".toList =
        ([.number first, .symbol .through], .word ['0', 'x']) := by
      rw [← ofLetters_hex 4 first]
      rfl
    simp only [text, String.toList_append, List.append_assoc]
    have whole := scan_append begun (scan_append (scan_digits first) (scan_append through
      (scan_append (scan_digits last) (ended last))))
    exact whole

end CodepointPattern

namespace PictographicListing

def codes (listing : PictographicListing) : List WordPattern :=
  listing.patterns.map CodepointPattern.code

/-- What a listing is read as. -/
def predicate (listing : PictographicListing) : Predicate where
  name := "is_emoji_extended_pictographic"
  parameter := "u"
  arms := Predicate.armsOf listing.codes

theorem scans_arms (patterns : List CodepointPattern) :
    Scans (Outline.linesOfAll 2 (patterns.map fun pattern => .line (pattern.text ++ " => true,")))
      (patterns.flatMap fun pattern => Predicate.armTokens (pattern.code, true)) := by
  rw [List.map_eq_flatMap]
  exact Scans.flatMap 2 _ _ fun pattern _ =>
    Scans.single 2 (Scans.line 2 pattern.scan_arm)

theorem scans_outlines (listing : PictographicListing) :
    Scans (Outline.linesOfAll 0 listing.outlines) listing.predicate.tokens := by
  have notice : Scans (generatedNotice.lines 0) [] := Scans.line 0 rfl
  have blank : Scans ((Outline.line "").lines 0) [] := Scans.line 0 rfl
  have skip : Scans ((Outline.line "#[rustfmt::skip]").lines 0) (Predicate.headTokens.take 6) :=
    Scans.line 0 rfl
  have head : Scans ((Outline.line
      ("pub fn is_emoji_extended_pictographic(u: u32) -> bool" ++ " \x7b")).lines 0)
      (Predicate.headTokens.drop 6 ++ [.name "is_emoji_extended_pictographic",
        .symbol .openRound, .name "u"] ++ Predicate.typeTokens) := Scans.line 0 rfl
  have select : Scans ((Outline.line ("match u" ++ " \x7b")).lines 1)
      (Predicate.selectTokens "u") := Scans.line 1 rfl
  have otherwise : Scans ((Outline.line "_ => false,").lines 2)
      (Predicate.armTokens (.anything, false)) := Scans.line 2 rfl
  have close (depth : Nat) : Scans ((Outline.line ("\x7d" ++ "")).lines depth)
      [.symbol .closeCurly] := Scans.line depth rfl
  have inner := Scans.block 1 select
    (Scans.appendAll 2 (scans_arms listing.patterns) (Scans.single 2 otherwise)) (close 1)
  have function := Scans.block 0 head (Scans.single 1 inner) (close 0)
  have whole := Scans.passed 0 notice (Scans.passed 0 blank
    (Scans.cons 0 skip (Scans.single 0 function)))
  have arms : listing.predicate.arms.flatMap Predicate.armTokens =
      (listing.patterns.flatMap fun pattern => Predicate.armTokens (pattern.code, true)) ++
        Predicate.armTokens (.anything, false) := by
    simp only [predicate, Predicate.armsOf, codes, List.flatMap_append, List.flatMap_map,
      List.flatMap_cons, List.flatMap_nil, List.append_nil]
  rw [Predicate.tokens, arms]
  simp only [List.append_assoc] at whole ⊢
  exact whole

theorem read?_text {listing : PictographicListing}
    (proper : ∀ pattern ∈ listing.codes, pattern.Proper) :
    Predicate.read? listing.text = some listing.predicate := by
  apply Predicate.read?_of_tokens
  · simp [predicate, BufferProgram.Parser.reserved]
  · simp [predicate, BufferProgram.Parser.reserved]
  · intro arm member
    rcases List.mem_append.mp member with listed | last
    · obtain ⟨pattern, origin, rfl⟩ := List.mem_map.mp listed
      exact proper pattern origin
    · rw [List.mem_singleton.mp last]
      trivial
  · have scanned := scans_outlines listing
    rw [Scans] at scanned
    rw [text, Outline.text, String.toList_ofList, Generated.tokens, scanned]
    simp only [Mode.pending, List.append_nil]

/-- The function answers what the listing answers. -/
theorem call_predicate (listing : PictographicListing) (word : UInt32) :
    listing.predicate.call word = .ok (listing.holds word.toNat) := by
  rw [Predicate.call_of_arms (rfl : listing.predicate.arms = Predicate.armsOf listing.codes),
    holds, codes, List.any_map]
  congr 2
  funext pattern
  exact pattern.fits_code word.toNat

open CodepointRange

theorem holds_ofSet (set : PictographicSet) (codepoint : Nat) :
    (ofSet set).holds codepoint = true ↔ Covers set.ranges codepoint := by
  simp only [holds, ofSet, List.any_map, List.any_eq_true, Function.comp_apply,
    CodepointPattern.fits_ofRange]
  rfl

theorem codes_ofSet (set : PictographicSet) : (ofSet set).codes =
    set.ranges.map fun range => (CodepointPattern.ofRange range).code := by
  rw [codes, ofSet, List.map_map]
  rfl

theorem fits_code_ofRange {range : CodepointRange} {codepoint : Nat} :
    (CodepointPattern.ofRange range).code.fits codepoint = true ↔
      range.first ≤ codepoint ∧ codepoint ≤ range.last := by
  rw [CodepointPattern.fits_code, CodepointPattern.fits_ofRange, contains_iff]

/-- Separated ranges of words have ascending patterns. -/
theorem codes_ascending {set : PictographicSet} (separated : Separated 1 set.ranges)
    (words : ∀ range ∈ set.ranges, range.last ≤ 0xFFFFFFFF) :
    Predicate.Ascending (ofSet set).codes := by
  rw [codes_ofSet]
  refine ⟨?_, List.pairwise_map.mpr (separated.apart.imp ?_),
    List.pairwise_map.mpr (separated.apart.imp ?_)⟩
  · intro pattern member
    obtain ⟨range, stored, rfl⟩ := List.mem_map.mp member
    have order := separated.nonempty range stored
    have small : range.last < UInt32.size := Nat.lt_succ_of_le (words range stored)
    refine ⟨UInt32.ofNatLT range.last small, fits_code_ofRange.mpr ?_⟩
    rw [UInt32.toNat_ofNatLT]
    exact ⟨order, Nat.le_refl _⟩
  · rintro left right apart word ⟨first, second⟩
    rw [fits_code_ofRange] at first second
    omega
  · intro left right apart one other first second
    rw [fits_code_ofRange] at first second
    rw [UInt32.lt_iff_toNat_lt]
    omega

/-- The text generated for the set of some ranges, each of which holds something, is read as a
function whose arms for the codepoints of the set are not empty, disjoint and in ascending order,
and whose answer is for every word whether the set contains it. -/
theorem read?_text_ofRanges (ranges : List CodepointRange)
    (filled : PictographicSet.Filled ranges) :
    ∃ predicate patterns,
      Predicate.read? (ofSet (PictographicSet.ofRanges ranges)).text = some predicate ∧
      predicate.name = "is_emoji_extended_pictographic" ∧
      predicate.arms = Predicate.armsOf patterns ∧ Predicate.Ascending patterns ∧
      ∀ u : UInt32,
        predicate.call u = .ok ((PictographicSet.ofRanges ranges).contains u.toNat) := by
  have stored := filled.stored
  have proper : ∀ pattern ∈ (ofSet (PictographicSet.ofRanges ranges)).codes, pattern.Proper := by
    rw [codes_ofSet]
    intro pattern member
    obtain ⟨range, listed, rfl⟩ := List.mem_map.mp member
    exact CodepointPattern.proper_ofRange (stored.nonempty range listed)
      (stored.words range listed)
  refine ⟨_, _, read?_text proper, rfl, rfl, codes_ascending filled.separated stored.words, ?_⟩
  intro u
  have same : (ofSet (PictographicSet.ofRanges ranges)).holds u.toNat =
      (PictographicSet.ofRanges ranges).contains u.toNat := by
    rw [Bool.eq_iff_iff, holds_ofSet, filled.covers_iff,
      PictographicSet.contains_ofRanges filled.starts]
  rw [call_predicate, same]

/-- One codepoint alone, ranges beyond the first plane that touch, and the greatest word. -/
def scatteredRanges : List CodepointRange :=
  [⟨0x1F10D, 0x1F10F⟩, ⟨0xFFFFFFFF, 0xFFFFFFFF⟩, ⟨0x1F000, 0x1F10C⟩, ⟨0xA9, 0xA9⟩]

theorem read?_text_scatteredRanges : PictographicSet.Filled scatteredRanges ∧
    ∃ predicate patterns,
      Predicate.read? (ofSet (PictographicSet.ofRanges scatteredRanges)).text = some predicate ∧
      predicate.arms = Predicate.armsOf patterns ∧ Predicate.Ascending patterns ∧
      predicate.call 0xA9 = .ok true ∧ predicate.call 0xAA = .ok false ∧
      predicate.call 0x1F10D = .ok true ∧ predicate.call 0xFFFFFFFF = .ok true := by
  have filled : PictographicSet.Filled scatteredRanges := ⟨by decide, by decide⟩
  obtain ⟨predicate, patterns, read, _, arms, ascending, answers⟩ :=
    read?_text_ofRanges scatteredRanges filled
  have held (u : Nat) (covered : Covers scatteredRanges u) :
      (PictographicSet.ofRanges scatteredRanges).contains u = true :=
    (PictographicSet.contains_ofRanges filled.starts u).mpr covered
  refine ⟨filled, predicate, patterns, read, arms, ascending, ?_, ?_, ?_, ?_⟩
  · rw [answers, held _ ⟨⟨0xA9, 0xA9⟩, by simp [scatteredRanges], rfl⟩]
  · have missed : (PictographicSet.ofRanges scatteredRanges).contains 0xAA = false := by
      rw [Bool.eq_false_iff, ne_eq, PictographicSet.contains_ofRanges filled.starts]
      simp [scatteredRanges, contains_iff, Covers]
    rw [answers]
    exact congrArg Except.ok missed
  · rw [answers, held _ ⟨⟨0x1F10D, 0x1F10F⟩, by simp [scatteredRanges], rfl⟩]
  · rw [answers, held _ ⟨⟨0xFFFFFFFF, 0xFFFFFFFF⟩, by simp [scatteredRanges], rfl⟩]

end PictographicListing

end ShapingTables
