import Mathlib.Data.List.Basic
import ShapingTables.Text.Numeral

/-! Numerals read back. The hexadecimal digits written for a number are digits and
stand for the number, whatever zeros are put in front of them. -/
namespace ShapingTables.Text

theorem hexDigitValue?_hexDigit : ∀ value < 16, hexDigitValue? (hexDigit value) = some value := by
  decide

theorem mem_hexDigits (n : Nat) {c : Char} (member : c ∈ hexDigits n) :
    ∃ value < 16, c = hexDigit value := by
  induction n using hexDigits.induct with
  | case1 n small =>
    rw [hexDigits, if_pos small, List.mem_singleton] at member
    exact ⟨n, small, member⟩
  | case2 n large ih =>
    rw [hexDigits, if_neg large, List.mem_append, List.mem_singleton] at member
    rcases member with front | last
    · exact ih front
    · exact ⟨n % 16, by omega, last⟩

theorem hexDigits_ne_nil (n : Nat) : hexDigits n ≠ [] := by
  rw [hexDigits]
  split <;> simp

theorem ofHexDigits_append_singleton (digits : List Nat) (last : Nat) :
    ofHexDigits (digits ++ [last]) = 16 * ofHexDigits digits + last := by
  simp [ofHexDigits]

/-- Digits are read back in whatever shape keeps their values. -/
theorem mapM_shaped {shape : Char → Char}
    (kept : ∀ value < 16, hexDigitValue? (shape (hexDigit value)) = some value) (n : Nat) :
    ∃ digits : List Nat, ((hexDigits n).map shape).mapM hexDigitValue? = some digits ∧
      ofHexDigits digits = n ∧ digits.length = (hexDigits n).length := by
  induction n using hexDigits.induct with
  | case1 n small =>
    refine ⟨[n], ?_, by simp [ofHexDigits], by rw [hexDigits, if_pos small]; rfl⟩
    rw [hexDigits, if_pos small]
    simp [kept n small]
  | case2 n large ih =>
    obtain ⟨digits, read, value, length⟩ := ih
    refine ⟨digits ++ [n % 16], ?_, ?_, ?_⟩
    · rw [hexDigits, if_neg large, List.map_append, List.mapM_append, read]
      simp [kept (n % 16) (by omega)]
    · rw [ofHexDigits_append_singleton, value]
      omega
    · rw [hexDigits, if_neg large, List.length_append, List.length_append, length]
      rfl

theorem mapM_hexDigits (n : Nat) : ∃ digits : List Nat,
    (hexDigits n).mapM hexDigitValue? = some digits ∧ ofHexDigits digits = n := by
  have kept : ∀ value < 16, hexDigitValue? (id (hexDigit value)) = some value :=
    hexDigitValue?_hexDigit
  obtain ⟨digits, read, value, _⟩ := mapM_shaped kept n
  rw [List.map_id] at read
  exact ⟨digits, read, value⟩

/-- Lower case is read as well. -/
theorem mapM_lower (n : Nat) : ∃ digits : List Nat,
    ((hexDigits n).map Char.toLower).mapM hexDigitValue? = some digits ∧
      ofHexDigits digits = n ∧ digits.length = (hexDigits n).length :=
  mapM_shaped (by decide) n

theorem mapM_zeros (count : Nat) :
    (List.replicate count '0').mapM hexDigitValue? = some (List.replicate count 0) := by
  induction count with
  | zero => rfl
  | succ count ih =>
    rw [List.replicate_succ, List.mapM_cons, ih]
    rfl

theorem ofHexDigits_zeros (count : Nat) (digits : List Nat) :
    ofHexDigits (List.replicate count 0 ++ digits) = ofHexDigits digits := by
  induction count with
  | zero => rfl
  | succ count ih =>
    rw [List.replicate_succ, List.cons_append]
    exact ih

theorem toList_hex (width n : Nat) : (hex width n).toList =
    List.replicate (width - (hexDigits n).length) '0' ++ hexDigits n := by
  rw [hex, String.toList_ofList, List.leftpad]

/-- A written number is read back. -/
theorem mapM_hex (width n : Nat) :
    ((hex width n).toList.mapM hexDigitValue?).map ofHexDigits = some n := by
  obtain ⟨digits, read, value⟩ := mapM_hexDigits n
  rw [toList_hex, List.mapM_append, mapM_zeros, read]
  simp only [Option.bind_eq_bind, Option.bind_some, Option.pure_def, Option.map_some,
    ofHexDigits_zeros, value]

theorem hex_injective {width n other : Nat} (same : hex width n = hex width other) : n = other := by
  have read := mapM_hex width n
  rw [same, mapM_hex] at read
  exact (Option.some.inj read).symm

theorem mem_hex {width n : Nat} {c : Char} (member : c ∈ (hex width n).toList) :
    ∃ value < 16, c = hexDigit value := by
  rw [toList_hex, List.mem_append] at member
  rcases member with zero | digit
  · exact ⟨0, by decide, List.eq_of_mem_replicate zero⟩
  · exact mem_hexDigits n digit

theorem hex_ne_nil (width n : Nat) : (hex width n).toList ≠ [] := by
  rw [toList_hex]
  simp [hexDigits_ne_nil]

theorem length_hexDigits_step {n count : Nat} (shorter : (hexDigits (n / 16)).length ≤ count) :
    (hexDigits n).length ≤ count + 1 := by
  rw [hexDigits]
  split
  · simp
  · simpa using shorter

/-- Six digits are enough for every character. -/
theorem length_hexDigits_le {n : Nat} (inside : n < 0x1000000) : (hexDigits n).length ≤ 6 := by
  have last : (hexDigits (n / 16 / 16 / 16 / 16 / 16)).length = 1 := by
    rw [hexDigits, if_pos (by omega), List.length_singleton]
  iterate 5 apply length_hexDigits_step
  exact Nat.le_of_eq last

theorem mem_toString_digit {n : Nat} {c : Char} (member : c ∈ (toString n).toList) :
    c.isDigit = true := by
  rw [Nat.toString_eq_repr, Nat.repr, String.toList_ofList] at member
  exact Nat.isDigit_of_mem_toDigits (by decide) (by decide) member

theorem ofDigitChars_toString (n : Nat) : Nat.ofDigitChars 10 (toString n).toList 0 = n := by
  rw [Nat.toString_eq_repr, Nat.repr, String.toList_ofList, Nat.ofDigitChars_ten_toDigits]

theorem toString_ne_nil (n : Nat) : (toString n).toList ≠ [] := by
  rw [Nat.toString_eq_repr, Nat.repr, String.toList_ofList]
  exact Nat.toDigits_ne_nil

theorem hexDigitValue?_lt {c : Char} {value : Nat} (read : hexDigitValue? c = some value) :
    value < 16 := by
  simp only [hexDigitValue?, Char.le_def, UInt32.le_iff_toNat_le] at read
  split at read
  · rename_i bounds
    change 48 ≤ c.toNat ∧ c.toNat ≤ 57 at bounds
    cases read
    omega
  · split at read
    · rename_i bounds
      change 65 ≤ c.toNat ∧ c.toNat ≤ 70 at bounds
      cases read
      omega
    · split at read
      · rename_i bounds
        change 97 ≤ c.toNat ∧ c.toNat ≤ 102 at bounds
        cases read
        omega
      · contradiction

theorem foldl_hexDigits_lt {digits : List Nat} (small : ∀ digit ∈ digits, digit < 16) (n : Nat) :
    digits.foldl (fun n d => 16 * n + d) n < (n + 1) * Nat.pow 16 digits.length := by
  induction digits generalizing n with
  | nil => simp
  | cons digit digits ih =>
    obtain ⟨first, later⟩ := List.forall_mem_cons.mp small
    calc (digit :: digits).foldl (fun n d => 16 * n + d) n
        < (16 * n + digit + 1) * Nat.pow 16 digits.length := ih later (16 * n + digit)
      _ ≤ ((n + 1) * 16) * Nat.pow 16 digits.length := Nat.mul_le_mul_right _ (by omega)
      _ = (n + 1) * Nat.pow 16 (digits.length + 1) := by
        rw [Nat.mul_assoc, Nat.mul_comm 16]
        rfl

theorem mapM_hexDigitValue?_lt {text : List Char} {digits : List Nat}
    (read : text.mapM hexDigitValue? = some digits) :
    digits.length = text.length ∧ ∀ digit ∈ digits, digit < 16 := by
  induction text generalizing digits with
  | nil =>
    rw [List.mapM_nil] at read
    cases read
    exact ⟨rfl, by simp⟩
  | cons c rest ih =>
    rw [List.mapM_cons] at read
    obtain ⟨digit, value, read⟩ := Option.bind_eq_some_iff.mp read
    obtain ⟨others, later, same⟩ := Option.bind_eq_some_iff.mp read
    cases same
    obtain ⟨length, small⟩ := ih later
    exact ⟨congrArg (· + 1) length, List.forall_mem_cons.mpr ⟨hexDigitValue?_lt value, small⟩⟩

/-- Six digits do not fill a word. -/
theorem readHex?_lt {text : List Char} {value : Nat} (read : readHex? text = some value) :
    value < 0x1000000 := by
  simp only [readHex?] at read
  split at read
  · contradiction
  · rename_i few
    obtain ⟨digits, values, rfl⟩ := Option.map_eq_some_iff.mp read
    obtain ⟨length, small⟩ := mapM_hexDigitValue?_lt values
    have below := foldl_hexDigits_lt small 0
    have bound : Nat.pow 16 digits.length ≤ Nat.pow 16 6 :=
      Nat.pow_le_pow_right (by decide) (by omega)
    calc ofHexDigits digits < (0 + 1) * Nat.pow 16 digits.length := below
      _ ≤ 0x1000000 := by
        rw [Nat.zero_add, Nat.one_mul]
        exact bound

end ShapingTables.Text
