import Mathlib.Data.Fintype.Basic
import Mathlib.Data.List.Nodup
import Mathlib.Tactic.Tauto
import ShapingTables.Proofs.CategoryOfSource

/-! Which attributes have exactly one role. A codepoint that no predicate names gets at most
one role from its syllabic category. Cursive joining, symbols and what stands outside of
syllables bring in roles of their own; where two of these differ, or none is left, there is
no single role. -/
namespace ShapingTables

namespace Role

theorem all_nodup : all.Nodup := by decide

theorem mem_matching {order : List Role} (complete : order.Perm all) {attributes : Attributes}
    {role : Role} : role ∈ matching order attributes ↔ holds attributes role = true := by
  rw [matching, List.mem_filter]
  exact and_iff_right (complete.mem_iff.mpr (mem_all role))

/-- A role that alone holds is the only match, whatever the order of the candidates. -/
theorem matching_eq_singleton {order : List Role} (complete : order.Perm all)
    {attributes : Attributes} {role : Role}
    (only : ∀ candidate, holds attributes candidate = true ↔ candidate = role) :
    matching order attributes = [role] := by
  have distinct : (matching order attributes).Nodup := (complete.nodup_iff.mpr all_nodup).filter _
  apply List.perm_singleton.mp
  apply (List.perm_ext_iff_of_nodup distinct (List.nodup_singleton role)).mpr
  intro candidate
  rw [mem_matching complete, only, List.mem_singleton]

end Role

/-- One role holds and no other does. -/
def Attributes.Resolves (a : Attributes) : Prop :=
  ∃ role, ∀ candidate, Role.holds a candidate = true ↔ candidate = role

theorem Role.exists_resolve_iff (attributes : Attributes) :
    (∃ role, resolve attributes = .ok role) ↔ attributes.Resolves := by
  constructor
  · rintro ⟨role, resolved⟩
    exact ⟨role, holds_iff_of_resolve resolved⟩
  · rintro ⟨role, only⟩
    refine ⟨role, ?_⟩
    rw [resolve, matching_eq_singleton (.refl all) only]

namespace Attributes

/-- The codepoints that some predicate names. -/
def named : List CodepointRange := [
  ⟨0x0F01, 0x0F01⟩, ⟨0x1A60, 0x1A60⟩, ⟨0x1B62, 0x1B62⟩, ⟨0x1B68, 0x1B68⟩, ⟨0x1B6B, 0x1B73⟩,
  ⟨0x2015, 0x2015⟩, ⟨0x2022, 0x2022⟩, ⟨0x25CC, 0x25CC⟩, ⟨0x25FB, 0x25FE⟩, ⟨0xAA29, 0xAA29⟩,
  ⟨0x11046, 0x11046⟩, ⟨0x1134D, 0x1134D⟩, ⟨0x1E14F, 0x1E14F⟩]

/-- No predicate names the codepoint. -/
def Ordinary (a : Attributes) : Prop := ∀ range ∈ named, range.contains a.codepoint = false

instance (a : Attributes) : Decidable a.Ordinary :=
  inferInstanceAs (Decidable (∀ range ∈ named, range.contains a.codepoint = false))

variable (a : Attributes)

def Joins : Prop :=
  a.joining ∈ [.joinCausing, .dualJoining, .leftJoining, .rightJoining] ∧ a.syllabic ≠ .joiner

def Symbolic : Prop := a.general = .otherSymbol ∨ a.general = .currencySymbol

/-- The general category puts the codepoint outside of syllables. -/
def Outside : Prop := a.general = .unassigned ∨ a.general = .otherPunctuation

/-- The combinations with no role or several. -/
def Unresolved : Prop :=
  match a.syllabic with
  | .number | .consonant | .consonantHeadLetter | .toneLetter | .vowelIndependent => a.Symbolic
  | .other | .consonantDead | .joiner | .modifyingLetter => a.Joins ∧ a.Symbolic
  | .consonantPlaceholder => a.Joins ∨ a.Symbolic
  | .avagraha => a.general ≠ .otherLetter ∧
      (a.Joins ∧ a.Symbolic ∨ ¬a.Joins ∧ ¬a.Symbolic ∧ ¬a.Outside)
  | .bindu | .consonantFinal | .consonantMedial | .consonantSubjoined | .vowel
  | .vowelDependent => a.general ≠ .otherLetter ∧ (a.Joins ∨ a.Symbolic ∨ a.Outside)
  | _ => a.Joins ∨ a.Symbolic ∨ a.Outside

end Attributes

namespace SyllabicCategory

instance : Fintype SyllabicCategory := ⟨⟨all, by decide⟩, mem_all⟩

/-- The role that a category has by itself. Some signs are bases where they are letters. -/
def role? (letter : Bool) : SyllabicCategory → Option Role
  | .number | .consonant | .consonantHeadLetter | .toneLetter | .vowelIndependent => some .base
  | .other | .consonantDead | .joiner | .modifyingLetter => none
  | .avagraha => if letter then some .base else none
  | .bindu => some (if letter then .base else .vowelModifier)
  | .consonantFinal => some (if letter then .base else .consonantFinal)
  | .consonantMedial => some (if letter then .base else .consonantMedial)
  | .consonantSubjoined => some (if letter then .base else .consonantSubjoined)
  | .vowel | .vowelDependent => some (if letter then .base else .vowel)
  | .consonantPlaceholder => some .genericBase
  | .visarga | .toneMark | .cantillationMark | .registerShifter => some .vowelModifier
  | .nukta | .geminationMark | .consonantKiller => some .consonantModifier
  | .virama | .invisibleStacker => some .halant
  | .pureKiller => some .vowel
  | .consonantWithStacker => some .consonantWithStacker
  | .consonantPrefixed | .consonantPrecedingRepha => some .repha
  | .consonantSucceedingRepha => some .consonantFinal
  | .consonantInitialPostfixed => some .consonantMedial
  | .syllableModifier => some .consonantFinalModifier
  | .nonJoiner => some .nonJoiner
  | .numberJoiner => some .halantNumber
  | .brahmiJoiningNumber => some .baseNumber
  | .hieroglyph => some .hieroglyph
  | .hieroglyphJoiner => some .hieroglyphJoiner
  | .hieroglyphSegmentBegin => some .hieroglyphSegmentBegin
  | .hieroglyphSegmentEnd => some .hieroglyphSegmentEnd

theorem role?_ne : ∀ (letter : Bool) (category : SyllabicCategory),
    category.role? letter ≠ some .symbol ∧ category.role? letter ≠ some .other := by
  decide

/-- A codepoint with such a category is `other` unless it is something else besides. -/
def IsPlain (category : SyllabicCategory) : Prop :=
  category ∈ [.other, .consonantDead, .joiner, .modifyingLetter]

theorem role?_plain {category : SyllabicCategory} (plain : category.IsPlain) (letter : Bool) :
    category.role? letter = none := by
  cases category <;> first | rfl | simp [IsPlain] at plain

end SyllabicCategory

namespace Attributes

variable {a : Attributes}

def role? (a : Attributes) : Option Role := a.syllabic.role? (a.general == .otherLetter)

theorem role?_ne (a : Attributes) : a.role? ≠ some .symbol ∧ a.role? ≠ some .other :=
  SyllabicCategory.role?_ne _ _

theorem isJoining_iff : a.joining.isJoining = true ↔
    a.joining ∈ [.joinCausing, .dualJoining, .leftJoining, .rightJoining] := by
  cases a.joining <;> decide

theorem isBase_iff : a.isBase = true ↔ a.role? = some .base ∨ a.Joins := by
  rw [isBase, Joins, role?, ← isJoining_iff]
  generalize a.joining.isJoining = joining
  by_cases letter : a.general = .otherLetter <;> cases a.syllabic <;>
    simp [SyllabicCategory.role?, letter]

namespace Ordinary

variable (ordinary : a.Ordinary)
include ordinary

theorem outside (range : CodepointRange) (member : range ∈ named) :
    ¬(range.first ≤ a.codepoint ∧ a.codepoint ≤ range.last) := by
  rw [← CodepointRange.contains_iff, ordinary range member]
  exact Bool.false_ne_true

theorem ne (codepoint : Nat) (member : .single codepoint ∈ named) : a.codepoint ≠ codepoint := by
  rintro rfl
  exact ordinary.outside _ member ⟨Nat.le_refl _, Nat.le_refl _⟩

theorem isSymbolModifier : a.isSymbolModifier = false := by
  have outside := ordinary.outside ⟨0x1B6B, 0x1B73⟩ (by decide)
  simpa [Attributes.isSymbolModifier] using outside

theorem isSakot : a.isSakot = false := beq_false_of_ne (ordinary.ne 0x1A60 (by decide))

theorem isHalantOrVowelModifier : a.isHalantOrVowelModifier = false := by
  simp [Attributes.isHalantOrVowelModifier, ordinary.ne 0x11046 (by decide),
    ordinary.ne 0x1134D (by decide)]

theorem isGenericBase_iff : a.isGenericBase = true ↔ a.role? = some .genericBase := by
  have dash := ordinary.ne 0x2015 (by decide)
  have bullet := ordinary.ne 0x2022 (by decide)
  have squares := ordinary.outside ⟨0x25FB, 0x25FE⟩ (by decide)
  simp only [isGenericBase, role?]
  by_cases letter : a.general = .otherLetter <;> cases a.syllabic <;>
    simp_all [SyllabicCategory.role?]

theorem isSymbol_iff : a.isSymbol = true ↔ a.Symbolic := by
  simp [isSymbol, Symbolic, ordinary.ne 0x25CC (by decide), ordinary.ne 0x1E14F (by decide),
    ordinary.ne 0x0F01 (by decide), ordinary.ne 0x1B62 (by decide), ordinary.ne 0x1B68 (by decide)]

theorem isOther_iff : a.isOther = true ↔ (a.Outside ∨ a.syllabic.IsPlain) ∧
    ¬(a.role? = some .base ∨ a.Joins) ∧ a.role? ≠ some .genericBase ∧ ¬a.Symbolic := by
  rw [isOther]
  simp only [Bool.and_eq_true, Bool.not_eq_true', ← Bool.not_eq_true, isBase_iff,
    ordinary.isGenericBase_iff, ordinary.isSymbol_iff, ordinary.isSymbolModifier, Outside,
    SyllabicCategory.IsPlain]
  generalize a.role? = own, a.Joins = joins
  cases a.syllabic <;> simp [and_assoc]

/-- All other roles come from the syllabic category alone. -/
theorem holds_iff_role? {role : Role} (base : role ≠ .base) (symbol : role ≠ .symbol)
    (rest : role ≠ .other) : Role.holds a role = true ↔ a.role? = some role := by
  have chamVowel : (a.codepoint == 0xAA29) = false :=
    beq_false_of_ne (ordinary.ne 0xAA29 (by decide))
  have generic := ordinary.isGenericBase_iff
  have modifier := ordinary.isSymbolModifier
  have sakot := ordinary.isSakot
  have halant := ordinary.isHalantOrVowelModifier
  cases role
  case genericBase => exact generic
  all_goals first | contradiction | skip
  -- What is left of each predicate reads the category and whether it is a letter's.
  all_goals
    simp only [role?, Role.holds, isBaseNumber, isConsonantFinal, isConsonantFinalModifier,
      isConsonantMedial, isConsonantModifier, isConsonantSubjoined, isConsonantWithStacker,
      isHalant, isHalantNumber, isHieroglyph, isHieroglyphJoiner, isHieroglyphSegmentBegin,
      isHieroglyphSegmentEnd, isNonJoiner, isRepha, isVowel, isVowelModifier, bne, chamVowel,
      modifier, sakot, halant]
    generalize (a.general == .otherLetter) = letter, a.syllabic = category
    revert category letter
    decide

end Ordinary

/-- What brings in a role. -/
inductive Brings (a : Attributes) : Role → Prop
  | category : a.role? = some role → Brings a role
  | joining : a.Joins → Brings a .base
  | symbol : a.Symbolic → Brings a .symbol
  | rest : a.Outside ∨ a.syllabic.IsPlain → ¬(a.role? = some .base ∨ a.Joins) →
      a.role? ≠ some .genericBase → ¬a.Symbolic → Brings a .other

theorem Ordinary.holds_iff (ordinary : a.Ordinary) (role : Role) :
    Role.holds a role = true ↔ a.Brings role := by
  by_cases base : role = .base
  · subst base
    refine isBase_iff.trans ⟨?_, ?_⟩
    · rintro (own | joins)
      · exact .category own
      · exact .joining joins
    · rintro (own | joins)
      · exact .inl own
      · exact .inr joins
  by_cases symbol : role = .symbol
  · subst symbol
    refine ordinary.isSymbol_iff.trans ⟨.symbol, ?_⟩
    rintro (own | _ | symbolic)
    · exact absurd own a.role?_ne.1
    · exact symbolic
  by_cases rest : role = .other
  · subst rest
    refine ordinary.isOther_iff.trans ⟨?_, ?_⟩
    · rintro ⟨apart, notBase, notGeneric, notSymbolic⟩
      exact .rest apart notBase notGeneric notSymbolic
    · rintro (own | _ | _ | ⟨apart, notBase, notGeneric, notSymbolic⟩)
      · exact absurd own a.role?_ne.2
      · exact ⟨apart, notBase, notGeneric, notSymbolic⟩
  refine (ordinary.holds_iff_role? base symbol rest).trans ⟨.category, ?_⟩
  rintro (own | _ | _ | _)
  · exact own
  all_goals contradiction

/-- A codepoint keeps the role of its syllabic category if nothing brings in another one. -/
theorem Ordinary.resolves_of_some (ordinary : a.Ordinary) {role : Role}
    (own : a.role? = some role) : a.Resolves ↔ (a.Joins → role = .base) ∧ ¬a.Symbolic ∧
      (a.Outside → role = .base ∨ role = .genericBase) := by
  simp only [Resolves, ordinary.holds_iff]
  constructor
  · rintro ⟨found, only⟩
    obtain rfl := (only role).mp (.category own)
    have notSymbolic : ¬a.Symbolic := by
      intro symbolic
      obtain rfl := (only .symbol).mp (.symbol symbolic)
      exact a.role?_ne.1 own
    have joined : a.Joins → role = .base := fun joins => ((only .base).mp (.joining joins)).symm
    refine ⟨joined, notSymbolic, fun outside => ?_⟩
    by_contra! neither
    have notBase : ¬(a.role? = some .base ∨ a.Joins) := by
      rintro (same | joins)
      · exact neither.1 (Option.some.inj (own.symm.trans same))
      · exact neither.1 (joined joins)
    have notGeneric : a.role? ≠ some .genericBase := fun same =>
      neither.2 (Option.some.inj (own.symm.trans same))
    obtain rfl := (only .other).mp (.rest (.inl outside) notBase notGeneric notSymbolic)
    exact a.role?_ne.2 own
  · rintro ⟨joined, notSymbolic, allowed⟩
    refine ⟨role, fun candidate => ⟨?_, fun same => .category (same ▸ own)⟩⟩
    rintro (same | joins | symbolic | ⟨apart, notBase, notGeneric, _⟩)
    · exact Option.some.inj (same.symm.trans own)
    · exact (joined joins).symm
    · exact absurd symbolic notSymbolic
    · have outside : a.Outside := apart.resolve_right fun plain => by
        rw [role?, SyllabicCategory.role?_plain plain] at own
        contradiction
      rcases allowed outside with rfl | rfl
      · exact absurd (.inl own) notBase
      · exact absurd own notGeneric

/-- Without a role by the syllabic category something else has to bring in the only one. -/
theorem Ordinary.resolves_of_none (ordinary : a.Ordinary) (own : a.role? = none) :
    a.Resolves ↔ ¬(a.Joins ∧ a.Symbolic) ∧
      (a.Joins ∨ a.Symbolic ∨ a.Outside ∨ a.syllabic.IsPlain) := by
  have noOwn : ∀ role, a.role? ≠ some role := by simp [own]
  simp only [Resolves, ordinary.holds_iff]
  constructor
  · rintro ⟨role, only⟩
    constructor
    · rintro ⟨joins, symbolic⟩
      cases ((only .base).mp (.joining joins)).trans ((only .symbol).mp (.symbol symbolic)).symm
    · rcases (only role).mpr rfl with same | joins | symbolic | ⟨apart, _, _, _⟩
      · exact absurd same (noOwn _)
      · exact .inl joins
      · exact .inr (.inl symbolic)
      · exact .inr (.inr apart)
  · rintro ⟨apart, some⟩
    by_cases joins : a.Joins
    · refine ⟨.base, fun candidate => ⟨?_, fun same => same ▸ .joining joins⟩⟩
      rintro (same | _ | symbolic | ⟨_, notBase, _, _⟩)
      · exact absurd same (noOwn _)
      · rfl
      · exact absurd ⟨joins, symbolic⟩ apart
      · exact absurd (.inr joins) notBase
    · by_cases symbolic : a.Symbolic
      · refine ⟨.symbol, fun candidate => ⟨?_, fun same => same ▸ .symbol symbolic⟩⟩
        rintro (same | _ | _ | ⟨_, _, _, notSymbolic⟩)
        · exact absurd same (noOwn _)
        · contradiction
        · rfl
        · contradiction
      · have rest : a.Brings .other := .rest ((some.resolve_left joins).resolve_left symbolic)
          (not_or.mpr ⟨noOwn _, joins⟩) (noOwn _) symbolic
        refine ⟨.other, fun candidate => ⟨?_, fun same => same ▸ rest⟩⟩
        rintro (same | _ | _ | _)
        · exact absurd same (noOwn _)
        · contradiction
        · contradiction
        · rfl

theorem Ordinary.resolves_iff (ordinary : a.Ordinary) : a.Resolves ↔ ¬a.Unresolved := by
  have notSymbolic : a.general = .otherLetter → ¬a.Symbolic := by
    intro letter
    simp [Symbolic, letter]
  have notOutside : a.general = .otherLetter → ¬a.Outside := by
    intro letter
    simp [Outside, letter]
  cases own : a.role? with
  | none =>
    rw [ordinary.resolves_of_none own, Unresolved, SyllabicCategory.IsPlain]
    rw [role?] at own
    cases category : a.syllabic <;> simp [category, SyllabicCategory.role?] at own ⊢
    all_goals tauto
  | some role =>
    rw [ordinary.resolves_of_some own, Unresolved]
    rw [role?] at own
    by_cases letter : a.general = .otherLetter <;> cases category : a.syllabic <;>
      simp only [category, SyllabicCategory.role?, beq_iff_eq, letter, if_true, if_false] at own <;>
      cases own <;> simp [letter, notSymbolic, notOutside]

end Attributes

/-- Away from the codepoints that predicates name, a role fails to resolve for the listed
combinations and no others. A role that resolves is the only match and the first one in
whatever order the roles are tried. -/
theorem Role.resolve_fails_iff (attributes : Attributes) :
    (attributes.Ordinary →
      ((∃ fault, resolve attributes = .error fault) ↔ attributes.Unresolved)) ∧
    ∀ role, resolve attributes = .ok role → ∀ order : List Role, order.Perm all →
      matching order attributes = [role] ∧ order.find? (holds attributes) = some role := by
  constructor
  · intro ordinary
    have fails : (∃ fault, resolve attributes = .error fault) ↔
        ¬∃ role, resolve attributes = .ok role := by
      cases resolve attributes <;> simp
    rw [fails, exists_resolve_iff, ordinary.resolves_iff, not_not]
  · intro role resolved order complete
    have only := matching_eq_singleton complete (holds_iff_of_resolve resolved)
    refine ⟨only, ?_⟩
    rw [← List.head?_filter, ← matching, only, List.head?_cons]

/-- An avagraha that is no letter has no role. A bindu keeps its role when the roles are tried
from the last to the first. -/
theorem Role.resolve_fails_iff_signs :
    Attributes.Ordinary ⟨0x093D, .avagraha, .notApplicable, .nonspacingMark, .unlisted⟩ ∧
    (∃ fault, resolve ⟨0x093D, .avagraha, .notApplicable, .nonspacingMark, .unlisted⟩ =
      .error fault) ∧
    resolve ⟨0x0902, .bindu, .top, .nonspacingMark, .unlisted⟩ = .ok .vowelModifier ∧
    matching all.reverse ⟨0x0902, .bindu, .top, .nonspacingMark, .unlisted⟩ = [.vowelModifier] := by
  have ordinary : Attributes.Ordinary
      ⟨0x093D, .avagraha, .notApplicable, .nonspacingMark, .unlisted⟩ := by decide
  have stray : Attributes.Unresolved
      ⟨0x093D, .avagraha, .notApplicable, .nonspacingMark, .unlisted⟩ := by
    simp [Attributes.Unresolved, Attributes.Joins, Attributes.Symbolic, Attributes.Outside]
  have resolved : resolve ⟨0x0902, .bindu, .top, .nonspacingMark, .unlisted⟩ =
      .ok .vowelModifier := by decide
  exact ⟨ordinary, ((resolve_fails_iff _).1 ordinary).mpr stray, resolved,
    ((resolve_fails_iff _).2 _ resolved _ (List.reverse_perm all)).1⟩

end ShapingTables
