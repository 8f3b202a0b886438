import Mathlib.Data.Nat.Digits.Defs
import ShapingTables.Proofs.Numerals
import ShapingTables.Proofs.TrimmedFields

/-! The words of a line and the numerals among them. A text falls apart at every blank, which
is all that is needed of words; a word is read exactly if it is one to six digits. -/
namespace ShapingTables.Text

theorem words_append_blank {c : Char} (blank : isBlank c = true) (front back : List Char) :
    words (front ++ c :: back) = words front ++ words back := by
  simp only [words, splitWhere_append isBlank blank]
  rw [← List.cons_append, List.filter_append]

theorem words_blanks_append {blanks : List Char} (blank : ∀ c ∈ blanks, isBlank c = true)
    (text : List Char) : words (blanks ++ text) = words text := by
  induction blanks with
  | nil => rfl
  | cons c blanks ih =>
    obtain ⟨first, later⟩ := List.forall_mem_cons.mp blank
    have apart := words_append_blank first [] (blanks ++ text)
    rw [List.nil_append] at apart
    rw [List.cons_append, apart, ih later]
    rfl

theorem words_solid {word : List Char} (filled : word ≠ [])
    (solid : ∀ c ∈ word, isBlank c = false) : words word = [word] := by
  simp [words, splitWhere_of_forall_not solid, filled]

theorem solid_of_mem_splitWhere (separates : Char → Bool) (text : List Char) :
    ∀ field ∈ (splitWhere separates text).1 :: (splitWhere separates text).2,
      ∀ c ∈ field, separates c = false := by
  induction text with
  | nil => simp [splitWhere]
  | cons c rest ih =>
    rw [splitWhere]
    by_cases separate : separates c = true
    · simpa [separate] using ih
    · obtain ⟨first, later⟩ := List.forall_mem_cons.mp ih
      simpa [separate] using And.intro first later

theorem solid_of_mem_words {text word : List Char} (member : word ∈ words text) :
    ∀ c ∈ word, isBlank c = false := by
  have field : word ∈ (splitWhere isBlank text).1 :: (splitWhere isBlank text).2 :=
    (List.mem_filter.mp member).1
  exact solid_of_mem_splitWhere isBlank text word field

/-- A digit of either case. -/
def isHexDigit (c : Char) : Bool := "0123456789ABCDEFabcdef".toList.contains c

/-- One to six hexadecimal digits. -/
@[mk_iff]
structure IsNumeral (word : List Char) : Prop where
  filled : 1 ≤ word.length
  short : word.length ≤ 6
  digits : word.all isHexDigit = true

instance (word : List Char) : Decidable (IsNumeral word) :=
  decidable_of_iff _ (isNumeral_iff word).symm

/-- The number that a digit stands for. -/
def digitValue (c : Char) : Nat := "0123456789ABCDEF".toList.idxOf c.toUpper

/-- The number that is written in base sixteen, the lowest digit last. -/
def numeralValue (word : List Char) : Nat := Nat.ofDigits 16 (word.map digitValue).reverse

/-- What is checked for the digits one by one holds for each of them. -/
theorem of_isHexDigit {p : Char → Prop} [DecidablePred p]
    (checked : "0123456789ABCDEFabcdef".toList.all (fun c => decide (p c)) = true) {c : Char}
    (digit : isHexDigit c = true) : p c := by
  have own := List.all_eq_true.mp checked c (List.contains_iff_mem.mp digit)
  simpa using own

theorem ofHexDigits_eq (digits : List Nat) :
    ofHexDigits digits = Nat.ofDigits 16 digits.reverse := by
  rw [Nat.ofDigits_eq_foldr, List.foldr_reverse, ofHexDigits]
  simp [Nat.add_comm]

theorem hexDigitValue?_digit {c : Char} (digit : isHexDigit c = true) :
    hexDigitValue? c = some (digitValue c) :=
  of_isHexDigit (p := fun c => hexDigitValue? c = some (digitValue c)) (by decide) digit

theorem hexDigitValue?_eq_some_iff {c : Char} {value : Nat} :
    hexDigitValue? c = some value ↔ isHexDigit c = true ∧ value = digitValue c := by
  constructor
  · intro read
    have bound : c.toNat < 103 := by
      apply Nat.lt_of_not_le
      intro beyond
      have above (digit : Char) (low : digit.toNat < 103) : ¬c ≤ digit := by
        rw [Char.le_def, UInt32.le_iff_toNat_le]
        exact Nat.not_le_of_lt (Nat.lt_of_lt_of_le low beyond)
      simp [hexDigitValue?, above '9' (by decide), above 'F' (by decide),
        above 'f' (by decide)] at read
    have listed : ∀ n < 103, (hexDigitValue? (Char.ofNat n)).isSome = true →
        isHexDigit (Char.ofNat n) = true := by
      decide
    have digit := listed c.toNat bound
    rw [Char.ofNat_toNat, read] at digit
    have own := hexDigitValue?_digit (digit rfl)
    exact ⟨digit rfl, Option.some.inj (read.symm.trans own)⟩
  · rintro ⟨digit, rfl⟩
    exact hexDigitValue?_digit digit

theorem mapM_hexDigitValue?_eq_some_iff {word : List Char} {digits : List Nat} :
    word.mapM hexDigitValue? = some digits ↔
      word.all isHexDigit = true ∧ digits = word.map digitValue := by
  induction word generalizing digits with
  | nil =>
    rw [List.mapM_nil, Option.pure_def, Option.some.injEq, @eq_comm _ [] digits]
    simp
  | cons c word ih =>
    rw [List.mapM_cons]
    simp only [Option.bind_eq_bind, Option.bind_eq_some_iff, hexDigitValue?_eq_some_iff, ih,
      Option.pure_def, Option.some.injEq, List.all_cons, Bool.and_eq_true, List.map_cons]
    constructor
    · rintro ⟨_, ⟨first, rfl⟩, _, ⟨later, rfl⟩, rfl⟩
      exact ⟨⟨first, later⟩, rfl⟩
    · rintro ⟨⟨first, later⟩, rfl⟩
      exact ⟨_, ⟨first, rfl⟩, _, ⟨later, rfl⟩, rfl⟩

/-- What is read of a text is the numeral between its blanks, if there is one. -/
theorem readHex?_eq_some_iff_trim {text : List Char} {value : Nat} :
    readHex? text = some value ↔ IsNumeral (trim text) ∧ value = numeralValue (trim text) := by
  rw [readHex?]
  by_cases size : (trim text).length = 0 ∨ 6 < (trim text).length
  · simp only [size, if_true, reduceCtorEq, false_iff]
    rintro ⟨numeral, _⟩
    have filled := numeral.filled
    have short := numeral.short
    omega
  · simp only [size, if_false, Option.map_eq_some_iff, mapM_hexDigitValue?_eq_some_iff]
    constructor
    · rintro ⟨_, ⟨digits, rfl⟩, rfl⟩
      exact ⟨⟨by omega, by omega, digits⟩, ofHexDigits_eq _⟩
    · rintro ⟨numeral, rfl⟩
      exact ⟨_, ⟨numeral.digits, rfl⟩, ofHexDigits_eq _⟩

/-- Of the words of a line the numerals are read, as the numbers that they stand for. -/
theorem readHex?_eq_some_iff {word : List Char} (solid : ∀ c ∈ word, isBlank c = false)
    {value : Nat} : readHex? word = some value ↔ IsNumeral word ∧ value = numeralValue word := by
  rw [readHex?_eq_some_iff_trim, (trimmed_of_solid solid).trim_eq]

theorem IsNumeral.solid {word : List Char} (numeral : IsNumeral word) :
    ∀ c ∈ word, isBlank c = false := by
  intro c member
  exact of_isHexDigit (p := fun c => isBlank c = false) (by decide)
    (List.all_eq_true.mp numeral.digits c member)

theorem IsNumeral.value_lt {word : List Char} (numeral : IsNumeral word) :
    numeralValue word < 0x1000000 :=
  readHex?_lt ((readHex?_eq_some_iff numeral.solid).mpr ⟨numeral, rfl⟩)

/-- A number of six digits or fewer has numerals of every width up to six. -/
theorem isNumeral_hex {width n : Nat} (narrow : width ≤ 6) (small : n < 0x1000000) :
    IsNumeral (hex width n).toList ∧ numeralValue (hex width n).toList = n := by
  obtain ⟨digits, read, value⟩ := Option.map_eq_some_iff.mp (mapM_hex width n)
  obtain ⟨listed, rfl⟩ := mapM_hexDigitValue?_eq_some_iff.mp read
  refine ⟨⟨List.length_pos_iff.mpr (hex_ne_nil width n), ?_, listed⟩, ?_⟩
  · have length := length_hexDigits_le small
    simp only [toList_hex, List.length_append, List.length_replicate]
    omega
  · rw [numeralValue, ← ofHexDigits_eq, value]

end ShapingTables.Text
