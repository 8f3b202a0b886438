import ShapingTables.Proofs.FirstFault
import ShapingTables.Proofs.HexWords
import ShapingTables.Proofs.LineEndings
import ShapingTables.Prohibition.Sequence

/-! The list of prohibited sequences as a format. A text is read exactly if each of its lines
holds no word or several numerals, and then it is known what is read; otherwise the lowest
line at fault is reported. Sequences that are written in this format are read back. -/
namespace ShapingTables

/-- A fault of members that are checked one by one comes from the first one at fault. -/
theorem firstOf_map_iff {check : α → ε → Prop} {members : List α} {fault : ε} :
    FirstOf (members.map check) fault ↔ ∃ front member back,
      members = front ++ member :: back ∧ (∀ earlier ∈ front, ∀ other, ¬check earlier other) ∧
        check member fault := by
  constructor
  · rintro ⟨_, _, _, split, none, found⟩
    obtain ⟨front, rest, rfl, rfl, later⟩ := List.map_eq_append_iff.mp split
    obtain ⟨member, back, rfl, rfl, rfl⟩ := List.map_eq_cons_iff.mp later
    exact ⟨front, member, back, rfl, List.forall_mem_map.mp none, found⟩
  · rintro ⟨front, member, back, rfl, none, found⟩
    exact ⟨_, _, _, List.map_append.trans (by rw [List.map_cons]),
      List.forall_mem_map.mpr none, found⟩

namespace ProhibitedSequence

open Text (IsNumeral numeralValue SameLine)

/-- The words of a line in front of its first `#` and then of its first semicolon. -/
def wordsOf (line : List Char) : List (List Char) :=
  Text.words (Text.before ';' (Text.before '#' line))

/-- The line has no word or at least two, and all of them are numerals. -/
@[mk_iff]
structure WellFormed (line : List Char) : Prop where
  length : wordsOf line = [] ∨ 2 ≤ (wordsOf line).length
  numerals : ∀ word ∈ wordsOf line, IsNumeral word

instance (line : List Char) : Decidable (WellFormed line) :=
  decidable_of_iff _ (wellFormed_iff line).symm

/-- What is wrong with a line. Its first word that is no numeral is reported before anything
else, and only then that it has a single word. -/
inductive Faulty (line : List Char) : LineFault → Prop
  | badCodepoint : wordsOf line = front ++ word :: back →
      (∀ earlier ∈ front, IsNumeral earlier) → ¬IsNumeral word →
      Faulty line (.badCodepoint (String.ofList word))
  | loneCodepoint : wordsOf line = [word] → IsNumeral word →
      Faulty line (.loneCodepoint (numeralValue word))

/-- The lowest line at fault, all lines above it being well-formed, if the first line has the
number `start`. -/
def FirstFaulty (start : Nat) (lines : List (List Char)) (number : Nat) (fault : LineFault) :
    Prop :=
  ∃ front line back, lines = front ++ line :: back ∧ (∀ earlier ∈ front, WellFormed earlier) ∧
    number = start + front.length ∧ Faulty line fault

/-- What is listed in the line, if it has a word. -/
def listedIn (line : List Char) : Option (List Nat) :=
  if wordsOf line = [] then none else some ((wordsOf line).map numeralValue)

/-- The sequences of well-formed lines, the first of which has the number `start`. -/
def listed (start : Nat) (lines : List (List Char)) : List ProhibitedSequence :=
  (lines.zipIdx start).filterMap fun (line, number) => (listedIn line).map (⟨number, ·⟩)

/-- What a single word is read as. -/
def readWord (word : List Char) : Except LineFault Nat :=
  match Text.readHex? word with
  | some codepoint => .ok codepoint
  | none => .error (.badCodepoint (String.ofList word))

theorem readWords_eq (words : List (List Char)) : readWords words = words.mapM readWord := rfl

section Word

variable {word : List Char} (solid : ∀ c ∈ word, Text.isBlank c = false)
include solid

theorem readWord_eq_ok_iff {codepoint : Nat} :
    readWord word = .ok codepoint ↔ IsNumeral word ∧ codepoint = numeralValue word := by
  rw [← Text.readHex?_eq_some_iff solid, readWord]
  cases Text.readHex? word <;> simp

theorem readWord_eq_error_iff {fault : LineFault} : readWord word = .error fault ↔
    ¬IsNumeral word ∧ fault = .badCodepoint (String.ofList word) := by
  have numeral : IsNumeral word ↔ Text.readHex? word = some (numeralValue word) := by
    simp [Text.readHex?_eq_some_iff solid]
  rw [numeral, readWord]
  cases read : Text.readHex? word with
  | none => simp [@eq_comm _ fault]
  | some codepoint => simp [((Text.readHex?_eq_some_iff solid).mp read).2]

theorem isNumeral_of_read (read : ∀ fault, ¬readWord word = .error fault) : IsNumeral word := by
  apply Classical.byContradiction
  intro unread
  exact read _ ((readWord_eq_error_iff solid).mpr ⟨unread, rfl⟩)

end Word

section Words

variable {words : List (List Char)} (solid : ∀ word ∈ words, ∀ c ∈ word, Text.isBlank c = false)
include solid

theorem readWords_eq_ok_iff {codepoints : List Nat} : readWords words = .ok codepoints ↔
    (∀ word ∈ words, IsNumeral word) ∧ codepoints = words.map numeralValue := by
  rw [readWords_eq]
  induction words generalizing codepoints with
  | nil => simp [pure, Except.pure, @eq_comm _ [] codepoints]
  | cons word rest ih =>
    obtain ⟨first, later⟩ := List.forall_mem_cons.mp solid
    rw [List.forall_mem_cons, List.map_cons]
    constructor
    · intro read
      obtain ⟨_, _, here, others, rfl⟩ := mapM_cons_eq_ok read
      obtain ⟨numeral, rfl⟩ := (readWord_eq_ok_iff first).mp here
      obtain ⟨numerals, rfl⟩ := (ih later).mp others
      exact ⟨⟨numeral, numerals⟩, rfl⟩
    · rintro ⟨⟨numeral, numerals⟩, rfl⟩
      rw [List.mapM_cons, (readWord_eq_ok_iff first).mpr ⟨numeral, rfl⟩,
        (ih later).mpr ⟨numerals, rfl⟩]
      rfl

/-- The first word that is no numeral is reported. -/
theorem readWords_eq_error_iff {fault : LineFault} : readWords words = .error fault ↔
    ∃ front word back, words = front ++ word :: back ∧ (∀ earlier ∈ front, IsNumeral earlier) ∧
      ¬IsNumeral word ∧ fault = .badCodepoint (String.ofList word) := by
  rw [readWords_eq, Fails.mapM (fun _ _ => Iff.rfl) words fault, firstOf_map_iff]
  constructor
  · rintro ⟨front, word, back, rfl, read, found⟩
    obtain ⟨before, own, _⟩ := List.forall_mem_append.mp solid |>.imp_right List.forall_mem_cons.mp
    obtain ⟨unread, rfl⟩ := (readWord_eq_error_iff own).mp found
    exact ⟨front, word, back, rfl, fun earlier member =>
      isNumeral_of_read (before earlier member) (read earlier member), unread, rfl⟩
  · rintro ⟨front, word, back, rfl, numerals, unread, rfl⟩
    obtain ⟨before, own, _⟩ := List.forall_mem_append.mp solid |>.imp_right List.forall_mem_cons.mp
    refine ⟨front, word, back, rfl, fun earlier member other failed => ?_,
      (readWord_eq_error_iff own).mpr ⟨unread, rfl⟩⟩
    exact ((readWord_eq_error_iff (before earlier member)).mp failed).1 (numerals earlier member)

end Words

theorem solid_wordsOf (line : List Char) :
    ∀ word ∈ wordsOf line, ∀ c ∈ word, Text.isBlank c = false :=
  fun _ member => Text.solid_of_mem_words member

/-- A line is read once its words are. -/
theorem readLine_eq (line : List Char) : readLine line =
    match readWords (wordsOf line) with
    | .error fault => .error fault
    | .ok [] => .ok none
    | .ok [codepoint] => .error (.loneCodepoint codepoint)
    | .ok codepoints => .ok (some codepoints) := rfl

theorem readLine_wellFormed {line : List Char} (well : WellFormed line) :
    readLine line = .ok (listedIn line) := by
  have read := (readWords_eq_ok_iff (solid_wordsOf line)).mpr ⟨well.numerals, rfl⟩
  rw [readLine_eq, read, listedIn]
  rcases words : wordsOf line with _ | ⟨word, _ | ⟨next, rest⟩⟩
  · rfl
  · have length := well.length
    simp [words] at length
  · rfl

theorem readLine_faulty {line : List Char} {fault : LineFault} (faulty : Faulty line fault) :
    readLine line = .error fault := by
  rw [readLine_eq]
  cases faulty with
  | badCodepoint words numerals unread =>
    rw [(readWords_eq_error_iff (solid_wordsOf line)).mpr ⟨_, _, _, words, numerals, unread, rfl⟩]
  | loneCodepoint words numeral =>
    have numerals : ∀ other ∈ wordsOf line, IsNumeral other := by simpa [words] using numeral
    rw [(readWords_eq_ok_iff (solid_wordsOf line)).mpr ⟨numerals, rfl⟩, words]
    rfl

theorem wellFormed_or_faulty (line : List Char) : WellFormed line ∨ ∃ fault, Faulty line fault := by
  cases read : readWords (wordsOf line) with
  | error fault =>
    obtain ⟨_, _, _, words, numerals, unread, rfl⟩ :=
      (readWords_eq_error_iff (solid_wordsOf line)).mp read
    exact .inr ⟨_, .badCodepoint words numerals unread⟩
  | ok codepoints =>
    obtain ⟨numerals, _⟩ := (readWords_eq_ok_iff (solid_wordsOf line)).mp read
    rcases words : wordsOf line with _ | ⟨word, _ | ⟨next, rest⟩⟩
    · exact .inl ⟨.inl words, numerals⟩
    · have numeral := numerals word (by simp [words])
      exact .inr ⟨_, .loneCodepoint words numeral⟩
    · exact .inl ⟨.inr (by simp [words]), numerals⟩

namespace Faulty

variable {line : List Char} {fault : LineFault} (faulty : Faulty line fault)
include faulty

theorem not_wellFormed : ¬WellFormed line := by
  intro well
  have read := readLine_faulty faulty
  rw [readLine_wellFormed well] at read
  contradiction

theorem unique {other : LineFault} (otherFaulty : Faulty line other) : other = fault := by
  have read := readLine_faulty faulty
  rw [readLine_faulty otherFaulty] at read
  exact Except.error.inj read

end Faulty

theorem firstFaulty_cons {start : Nat} {line : List Char} {rest : List (List Char)} {number : Nat}
    {fault : LineFault} : FirstFaulty start (line :: rest) number fault ↔
      (number = start ∧ Faulty line fault) ∨
        (WellFormed line ∧ FirstFaulty (start + 1) rest number fault) := by
  constructor
  · rintro ⟨_ | ⟨first, front⟩, found, back, split, well, rfl, faulty⟩
    · obtain ⟨rfl, rfl⟩ := List.cons.inj split
      exact .inl ⟨rfl, faulty⟩
    · obtain ⟨rfl, rfl⟩ := List.cons.inj split
      obtain ⟨first, well⟩ := List.forall_mem_cons.mp well
      exact .inr ⟨first, front, found, back, rfl, well, by simp only [List.length_cons]; omega, faulty⟩
  · rintro (⟨rfl, faulty⟩ | ⟨first, front, found, back, rfl, well, rfl, faulty⟩)
    · exact ⟨[], line, rest, rfl, by simp, rfl, faulty⟩
    · exact ⟨line :: front, found, back, rfl, List.forall_mem_cons.mpr ⟨first, well⟩,
        by simp only [List.length_cons]; omega, faulty⟩

/-- A well-formed line puts what it lists in front. -/
theorem readLines_cons {line : List Char} (well : WellFormed line) (start : Nat)
    (rest : List (List Char)) : readLines start (line :: rest) =
      (readLines (start + 1) rest).map (((listedIn line).map (⟨start, ·⟩)).toList ++ ·) := by
  rw [readLines, readLine_wellFormed well]
  cases listedIn line with
  | none => cases readLines (start + 1) rest <;> rfl
  | some codepoints => rfl

theorem listed_cons (start : Nat) (line : List Char) (rest : List (List Char)) :
    listed start (line :: rest) =
      ((listedIn line).map (⟨start, ·⟩)).toList ++ listed (start + 1) rest := by
  simp only [listed, List.zipIdx_cons, List.filterMap_cons]
  cases listedIn line <;> rfl

theorem listedIn_of_mem_listed {start : Nat} {lines : List (List Char)}
    {sequence : ProhibitedSequence} (member : sequence ∈ listed start lines) :
    ∃ line ∈ lines, listedIn line = some sequence.codepoints := by
  obtain ⟨⟨line, number⟩, inside, own⟩ := List.mem_filterMap.mp member
  obtain ⟨codepoints, found, rfl⟩ := Option.map_eq_some_iff.mp own
  refine ⟨line, ?_, found⟩
  rw [← List.zipIdx_map_fst start lines]
  exact List.mem_map_of_mem inside

theorem readLines_eq_ok_iff (start : Nat) (lines : List (List Char))
    (sequences : List ProhibitedSequence) : readLines start lines = .ok sequences ↔
      (∀ line ∈ lines, WellFormed line) ∧ sequences = listed start lines := by
  induction lines generalizing start sequences with
  | nil => simp [readLines, listed, @eq_comm _ [] sequences]
  | cons line rest ih =>
    rw [List.forall_mem_cons, listed_cons]
    rcases wellFormed_or_faulty line with well | ⟨fault, faulty⟩
    · rw [readLines_cons well]
      constructor
      · intro read
        cases others : readLines (start + 1) rest with
        | error fault => simp [others, Except.map] at read
        | ok found =>
          obtain ⟨later, rfl⟩ := (ih _ _).mp others
          rw [others] at read
          exact ⟨⟨well, later⟩, (Except.ok.inj read).symm⟩
      · rintro ⟨⟨_, later⟩, rfl⟩
        rw [(ih _ _).mpr ⟨later, rfl⟩]
        rfl
    · simp [readLines, readLine_faulty faulty, faulty.not_wellFormed]

theorem readLines_eq_error_iff (start : Nat) (lines : List (List Char)) (number : Nat)
    (fault : LineFault) : readLines start lines = .error (number, fault) ↔
      FirstFaulty start lines number fault := by
  induction lines generalizing start with
  | nil => simp [readLines, FirstFaulty]
  | cons line rest ih =>
    rw [firstFaulty_cons]
    rcases wellFormed_or_faulty line with well | ⟨found, faulty⟩
    · have sound : ¬Faulty line fault := fun faulty => faulty.not_wellFormed well
      rw [readLines_cons well, ← ih]
      cases readLines (start + 1) rest <;> simp [Except.map, well, sound]
    · have own : Faulty line fault ↔ found = fault :=
        ⟨fun other => other.unique faulty, fun same => same ▸ faulty⟩
      simp [readLines, readLine_faulty faulty, faulty.not_wellFormed, own, @eq_comm _ start]

end ProhibitedSequence

end ShapingTables
