import Mathlib.Data.List.Forall2
import Mathlib.Data.List.TakeWhile
import Mathlib.Tactic.MkIffOfInductiveProp
import ShapingTables.Text.Split

/-! Blanks around texts and fields. Trimming a text leaves what is between its blanks, and the
fields of a text, trimmed one by one, are those of the trimmed text. -/
namespace ShapingTables.Text

/-- The text is the word with any blanks in front of it and behind it. -/
def Padded (word text : List Char) : Prop :=
  ∃ lead tail, text = lead ++ word ++ tail ∧ lead.all isBlank = true ∧ tail.all isBlank = true

/-- No blank stands at an end of the text. -/
@[mk_iff]
structure Trimmed (text : List Char) : Prop where
  first : text.head?.any isBlank = false
  last : text.getLast?.any isBlank = false

instance (text : List Char) : Decidable (Trimmed text) :=
  decidable_of_iff _ (trimmed_iff text).symm

theorem trimmed_of_solid {text : List Char} (solid : ∀ c ∈ text, isBlank c = false) :
    Trimmed text where
  first := by
    cases first : text.head? with
    | none => rfl
    | some c => exact solid c (List.mem_of_mem_head? first)
  last := by
    cases last : text.getLast? with
    | none => rfl
    | some c => exact solid c (List.mem_of_mem_getLast? last)

theorem Padded.refl (word : List Char) : Padded word word := ⟨[], [], by simp⟩

theorem Padded.append_left {word text lead : List Char} (padded : Padded word text)
    (front : lead.all isBlank = true) : Padded word (lead ++ text) := by
  obtain ⟨start, tail, rfl, blank, behind⟩ := padded
  exact ⟨lead ++ start, tail, by simp, by rw [List.all_append, front, blank, Bool.and_self], behind⟩

theorem Padded.append_right {word text tail : List Char} (padded : Padded word text)
    (behind : tail.all isBlank = true) : Padded word (text ++ tail) := by
  obtain ⟨lead, rest, rfl, front, blank⟩ := padded
  exact ⟨lead, rest ++ tail, by simp, front, by rw [List.all_append, behind, blank, Bool.and_self]⟩

theorem dropWhile_blanks_append {blanks text : List Char} (blank : blanks.all isBlank = true)
    (first : text.head?.any isBlank = false) : (blanks ++ text).dropWhile isBlank = text := by
  rw [List.dropWhile_append_of_pos (List.all_eq_true.mp blank)]
  cases text with
  | nil => rfl
  | cons c rest =>
    have solid : isBlank c = false := first
    simp [solid]

theorem any_head?_dropWhile (text : List Char) :
    (text.dropWhile isBlank).head?.any isBlank = false := by
  have kept := List.head?_dropWhile_not isBlank text
  cases first : (text.dropWhile isBlank).head? with
  | none => rfl
  | some c =>
    rw [first] at kept
    exact kept

theorem exists_trimEnd (text : List Char) :
    ∃ tail, text = trimEnd text ++ tail ∧ tail.all isBlank = true := by
  have split := List.takeWhile_append_dropWhile (p := isBlank) (l := text.reverse)
  refine ⟨(text.reverse.takeWhile isBlank).reverse, ?_, ?_⟩
  · rw [trimEnd, ← List.reverse_append, split, List.reverse_reverse]
  · rw [List.all_reverse]
    exact List.all_takeWhile

theorem padded_trim (text : List Char) : Padded (trim text) text := by
  obtain ⟨tail, split, behind⟩ := exists_trimEnd (trimStart text)
  refine ⟨text.takeWhile isBlank, tail, ?_, List.all_takeWhile, behind⟩
  rw [trim, List.append_assoc, ← split]
  exact List.takeWhile_append_dropWhile.symm

theorem Padded.trim_eq {word text : List Char} (padded : Padded word text)
    (trimmed : Trimmed word) : trim text = word := by
  obtain ⟨lead, tail, rfl, front, behind⟩ := padded
  cases word with
  | nil =>
    have blank : (lead ++ [] ++ tail).all isBlank = true := by
      rw [List.append_nil, List.all_append, front, behind, Bool.and_self]
    rw [trim, trimStart, List.dropWhile_eq_nil_iff.mpr (List.all_eq_true.mp blank)]
    rfl
  | cons c rest =>
    have first : (c :: rest ++ tail).head?.any isBlank = false := trimmed.first
    have last : (c :: rest).reverse.head?.any isBlank = false := by
      rw [List.head?_reverse]
      exact trimmed.last
    have blank : tail.reverse.all isBlank = true := by rw [List.all_reverse, behind]
    rw [trim, trimStart, List.append_assoc, dropWhile_blanks_append front first, trimEnd,
      List.reverse_append, dropWhile_blanks_append blank last, List.reverse_reverse]

theorem trimmed_trim (text : List Char) : Trimmed (trim text) where
  first := by
    obtain ⟨tail, split, _⟩ := exists_trimEnd (trimStart text)
    have kept := any_head?_dropWhile text
    rw [← trimStart, split, ← trim] at kept
    cases whole : trim text with
    | nil => rfl
    | cons c rest =>
      rw [whole] at kept
      exact kept
  last := by
    rw [trim, trimEnd, List.getLast?_reverse]
    exact any_head?_dropWhile _

theorem padded_iff_trim {word text : List Char} (trimmed : Trimmed word) :
    Padded word text ↔ trim text = word := by
  constructor
  · exact fun padded => padded.trim_eq trimmed
  · rintro rfl
    exact padded_trim text

theorem Trimmed.trim_eq {text : List Char} (trimmed : Trimmed text) : trim text = text :=
  (Padded.refl text).trim_eq trimmed

theorem trim_append_left {lead : List Char} (front : lead.all isBlank = true)
    (text : List Char) : trim (lead ++ text) = trim text :=
  ((padded_trim text).append_left front).trim_eq (trimmed_trim text)

theorem trim_append_right {tail : List Char} (behind : tail.all isBlank = true)
    (text : List Char) : trim (text ++ tail) = trim text :=
  ((padded_trim text).append_right behind).trim_eq (trimmed_trim text)

theorem trim_eq_nil_iff {text : List Char} : trim text = [] ↔ text.all isBlank = true := by
  rw [← padded_iff_trim ⟨rfl, rfl⟩]
  constructor
  · rintro ⟨lead, tail, rfl, front, behind⟩
    rw [List.append_nil, List.all_append, front, behind, Bool.and_self]
  · intro blank
    exact ⟨text, [], by simp, blank, rfl⟩

theorem notMem_of_blank {c : Char} (solid : isBlank c = false) {text : List Char}
    (blank : text.all isBlank = true) : c ∉ text := by
  intro member
  rw [List.all_eq_true.mp blank c member] at solid
  contradiction

section

variable {separates : Char → Bool}

theorem splitWhere_append_left {front : List Char} (none : ∀ c ∈ front, separates c = false)
    (text : List Char) : splitWhere separates (front ++ text) =
      (front ++ (splitWhere separates text).1, (splitWhere separates text).2) := by
  induction front with
  | nil => rfl
  | cons c front ih =>
    obtain ⟨first, later⟩ := List.forall_mem_cons.mp none
    simp [splitWhere, ih later, first]

/-- What stands behind the last separator belongs to the last field. -/
theorem splitWhere_append_right {back : List Char} (none : ∀ c ∈ back, separates c = false)
    (text : List Char) : List.Forall₂ (fun field other => other = field ∨ other = field ++ back)
      ((splitWhere separates text).1 :: (splitWhere separates text).2)
      ((splitWhere separates (text ++ back)).1 :: (splitWhere separates (text ++ back)).2) := by
  induction text with
  | nil =>
    rw [List.nil_append, splitWhere_of_forall_not none]
    exact .cons (.inr rfl) .nil
  | cons c text ih =>
    rw [List.cons_append, splitWhere, splitWhere]
    cases ih with
    | cons first later =>
      cases separates c with
      | true => exact .cons (.inl rfl) (.cons first later)
      | false =>
        refine .cons ?_ later
        rcases first with same | same
        · exact .inl (congrArg (c :: ·) same)
        · exact .inr (congrArg (c :: ·) same)

/-- The trimmed fields of a text are those of the trimmed text. -/
theorem fields_trim (solid : ∀ c, isBlank c = true → separates c = false) (text : List Char) :
    ((splitWhere separates (trim text)).1 :: (splitWhere separates (trim text)).2).map trim =
      ((splitWhere separates text).1 :: (splitWhere separates text).2).map trim := by
  obtain ⟨lead, tail, split, front, behind⟩ := padded_trim text
  have inside {part : List Char} (blank : part.all isBlank = true) :
      ∀ c ∈ part, separates c = false :=
    fun c member => solid c (List.all_eq_true.mp blank c member)
  -- Blanks in front stand in the first field, and blanks behind in the last one.
  have ends := splitWhere_append_right (inside behind) (lead ++ trim text)
  have kept : ∀ field other, (other = field ∨ other = field ++ tail) → trim field = trim other := by
    rintro field other (rfl | rfl)
    · rfl
    · exact (trim_append_right behind field).symm
  have same := List.forall₂_eq_eq_eq ▸
    List.forall₂_map_left_iff.mpr (List.forall₂_map_right_iff.mpr (ends.imp kept))
  rw [← split, splitWhere_append_left (inside front)] at same
  rw [← same, List.map_cons, List.map_cons, trim_append_left front]

/-- Fields with one separator between each two of them. -/
theorem splitWhere_fields {separator : Char} (separate : separates separator = true)
    {head : List Char} {fields : List (List Char)} (first : ∀ c ∈ head, separates c = false)
    (others : ∀ field ∈ fields, ∀ c ∈ field, separates c = false) :
    splitWhere separates (head ++ fields.flatMap (separator :: ·)) = (head, fields) := by
  induction fields generalizing head with
  | nil => simp [splitWhere_of_forall_not first]
  | cons field fields ih =>
    obtain ⟨next, others⟩ := List.forall_mem_cons.mp others
    rw [List.flatMap_cons, List.cons_append, splitWhere_append separates separate, ih next others,
      splitWhere_of_forall_not first]
    rfl

end

end ShapingTables.Text
