import Mathlib.Tactic.Tauto
import ShapingTables.Proofs.DataLines

/-! Checks one after the other. A computation that stops at its first fault is described by
a list of checks, each of which says by itself what it finds wrong; the fault is that of
the first check that finds anything. The lines of a data file are such checks. -/
namespace ShapingTables

variable {ε α β : Type}

/-- The fault of the first check that finds one. -/
def FirstOf (checks : List (ε → Prop)) (fault : ε) : Prop :=
  ∃ front check rest, checks = front ++ check :: rest ∧
    (∀ earlier ∈ front, ∀ other, ¬earlier other) ∧ check fault

theorem firstOf_nil (fault : ε) : ¬FirstOf [] fault := by
  rintro ⟨front, check, rest, split, _⟩
  simp at split

theorem firstOf_cons (check : ε → Prop) (checks : List (ε → Prop)) (fault : ε) :
    FirstOf (check :: checks) fault ↔
      check fault ∨ (∀ other, ¬check other) ∧ FirstOf checks fault := by
  constructor
  · rintro ⟨front, found, rest, split, none, holds⟩
    cases front with
    | nil =>
      obtain ⟨rfl, rfl⟩ := List.cons.inj split
      exact .inl holds
    | cons first front =>
      obtain ⟨rfl, rfl⟩ := List.cons.inj split
      obtain ⟨absent, none⟩ := List.forall_mem_cons.mp none
      exact .inr ⟨absent, front, found, rest, rfl, none, holds⟩
  · rintro (holds | ⟨absent, front, found, rest, rfl, none, holds⟩)
    · exact ⟨[], check, checks, rfl, by simp, holds⟩
    · exact ⟨check :: front, found, rest, rfl, List.forall_mem_cons.mpr ⟨absent, none⟩, holds⟩

/-- There is a first fault where any check finds one. -/
theorem exists_firstOf_iff (checks : List (ε → Prop)) :
    (∃ fault, FirstOf checks fault) ↔ ∃ check ∈ checks, ∃ fault, check fault := by
  induction checks with
  | nil => simp [firstOf_nil]
  | cons check checks ih =>
    simp only [firstOf_cons, exists_or, exists_and_left, ih, List.mem_cons, exists_eq_or_imp]
    by_cases holds : ∃ fault, check fault
    · simp [holds]
    · simp [not_exists.mp holds]

theorem exists_of_firstOf_map {check : α → ε → Prop} {members : List α} {fault : ε}
    (found : FirstOf (members.map check) fault) : ∃ member ∈ members, check member fault := by
  obtain ⟨_, own, _, split, _, holds⟩ := found
  have listed : own ∈ members.map check := split ▸ List.mem_append_right _ List.mem_cons_self
  obtain ⟨member, inside, rfl⟩ := List.mem_map.mp listed
  exact ⟨member, inside, holds⟩

theorem firstOf_append (checks others : List (ε → Prop)) (fault : ε) :
    FirstOf (checks ++ others) fault ↔
      FirstOf checks fault ∨ (∀ other, ¬FirstOf checks other) ∧ FirstOf others fault := by
  induction checks with
  | nil => simp [firstOf_nil]
  | cons check checks ih =>
    have none : (∀ other, ¬FirstOf (check :: checks) other) ↔
        (∀ other, ¬check other) ∧ ∀ other, ¬FirstOf checks other := by
      simp only [firstOf_cons, not_or, not_and, forall_and]
      tauto
    rw [List.cons_append, firstOf_cons, ih, none, firstOf_cons]
    tauto

/-- A result is a fault exactly where a check finds one, and then it is the first one found. -/
def Fails (result : Except ε α) (checks : List (ε → Prop)) : Prop :=
  ∀ fault, result = .error fault ↔ FirstOf checks fault

namespace Fails

theorem ok (value : α) : Fails (.ok value : Except ε α) [] := by
  intro fault
  simp [firstOf_nil]

theorem of_check {result : Except ε α} {check : ε → Prop}
    (finds : ∀ fault, result = .error fault ↔ check fault) : Fails result [check] := by
  intro fault
  rw [firstOf_cons, finds]
  simp [firstOf_nil]

/-- What comes later is checked only if the first part succeeds. -/
theorem bind {result : Except ε α} {next : α → Except ε β} {checks others : List (ε → Prop)}
    (first : Fails result checks) (later : ∀ value, result = .ok value → Fails (next value) others) :
    Fails (result >>= next) (checks ++ others) := by
  intro fault
  rw [firstOf_append, ← first fault]
  cases ended : result with
  | error found =>
    have some : ¬∀ other, ¬FirstOf checks other := fun none => none found ((first found).mp ended)
    simp [some, Bind.bind, Except.bind]
  | ok value =>
    have none : ∀ other, ¬FirstOf checks other := by
      intro other holds
      rw [(first other).mpr holds] at ended
      contradiction
    rw [← later value ended fault]
    simp [none, Bind.bind, Except.bind]

theorem map {result : Except ε α} {checks : List (ε → Prop)} (fails : Fails result checks)
    (next : α → β) : Fails (result.map next) checks := by
  intro fault
  rw [← fails fault]
  cases result <;> simp [Except.map]

/-- Of two members of a list the one in front is checked first. -/
theorem mapM_cons {next : α → Except ε β} {member : α} {members : List α} {check : ε → Prop}
    {checks : List (ε → Prop)} (finds : ∀ fault, next member = .error fault ↔ check fault)
    (later : Fails (members.mapM next) checks) :
    Fails ((member :: members).mapM next) (check :: checks) := by
  rw [List.mapM_cons]
  have front : Fails (next member) [check] := of_check finds
  refine front.bind fun value _ => ?_
  rw [← List.append_nil checks]
  exact later.bind fun _ _ => ok _

theorem mapM {next : α → Except ε β} {check : α → ε → Prop}
    (finds : ∀ member fault, next member = .error fault ↔ check member fault) (members : List α) :
    Fails (members.mapM next) (members.map check) := by
  induction members with
  | nil => exact ok []
  | cons member members ih => exact mapM_cons (finds member) ih

theorem exists_iff {result : Except ε α} {checks : List (ε → Prop)} (fails : Fails result checks) :
    (∃ fault, result = .error fault) ↔ ∃ check ∈ checks, ∃ fault, check fault := by
  rw [← exists_firstOf_iff]
  exact exists_congr fails

end Fails

namespace DataFile

/-- The trimmed fields of a line, the first one apart, if it holds anything. -/
def fieldsOf? (text : List Char) : Option (List Char × List (List Char)) :=
  let data := Text.trim (Text.before '#' text)
  if data.isEmpty then none
  else
    let (head, fields) := Text.splitWhere (· == ';') data
    some (Text.trim head, fields.map Text.trim)

/-- What is wrong with a line. Its fields are counted first, then its range is read, and
only then it is asked for a value that is not known. -/
inductive Faulty (least : Nat) (unknown? : List String → Option String) (text : List Char) :
    LineFault → Prop
  | tooFew : fieldsOf? text = some (head, fields) → fields.length + 1 < least →
      Faulty least unknown? text (.tooFewFields least (fields.length + 1))
  | badRange : fieldsOf? text = some (head, fields) → least ≤ fields.length + 1 →
      CodepointRange.read? head = none →
      Faulty least unknown? text (.badRange (String.ofList head))
  | unknownValue : fieldsOf? text = some (head, fields) → least ≤ fields.length + 1 →
      CodepointRange.read? head = some range →
      unknown? (fields.map String.ofList) = some written →
      Faulty least unknown? text (.unknownValue written)

/-- The fault of the lowest line that has one, the first line being line one. -/
def FirstFaulty (format : Format) (unknown? : List String → Option String) (text : String) :
    Nat × LineFault → Prop :=
  FirstOf ((format.lines text).mapIdx fun place line fault =>
    ∃ wrong, Faulty (max format.leastFields 1) unknown? line wrong ∧ fault = (1 + place, wrong))

theorem item?_eq (least line : Nat) (text : List Char) : item? least line text =
    (fieldsOf? text).map fun found => rowOf least line found.1 found.2 := by
  simp only [item?, fieldsOf?]
  split <;> rfl

section

variable {β : Type} {unknown? : List String → Option String}
  {check : Item → Except (Nat × LineFault) β}

/-- A check of items passes faults on and reports an unknown value of a row. -/
structure Reports (check : Item → Except (Nat × LineFault) β)
    (unknown? : List String → Option String) : Prop where
  fault : ∀ found, check (.error found) = .error found
  row : ∀ row fault, check (.ok row) = .error fault ↔
    ∃ written, unknown? row.fields = some written ∧ fault = (row.line, .unknownValue written)

theorem faulty_iff {least : Nat} {text head : List Char} {fields : List (List Char)}
    (split : fieldsOf? text = some (head, fields)) (wrong : LineFault) :
    Faulty least unknown? text wrong ↔
      if fields.length + 1 < least then wrong = .tooFewFields least (fields.length + 1)
      else match CodepointRange.read? head with
        | none => wrong = .badRange (String.ofList head)
        | some _ => ∃ written, unknown? (fields.map String.ofList) = some written ∧
          wrong = .unknownValue written := by
  constructor
  · intro faulty
    cases faulty with
    | tooFew given few =>
      cases split.symm.trans given
      rw [if_pos few]
    | badRange given enough unread =>
      cases split.symm.trans given
      rw [if_neg (Nat.not_lt.mpr enough), unread]
    | unknownValue given enough read unknown =>
      cases split.symm.trans given
      rw [if_neg (Nat.not_lt.mpr enough), read]
      exact ⟨_, unknown, rfl⟩
  · intro faulty
    split at faulty
    · rename_i few
      exact faulty ▸ .tooFew split few
    · rename_i enough
      split at faulty
      · rename_i unread
        exact faulty ▸ .badRange split (Nat.not_lt.mp enough) unread
      · rename_i read
        obtain ⟨written, unknown, rfl⟩ := faulty
        exact .unknownValue split (Nat.not_lt.mp enough) read unknown

theorem Reports.faulty_iff (reports : Reports check unknown?) (least line : Nat)
    (text : List Char) (fault : Nat × LineFault) :
    (∃ item, item? least line text = some item ∧ check item = .error fault) ↔
      ∃ wrong, Faulty least unknown? text wrong ∧ fault = (line, wrong) := by
  rw [item?_eq]
  cases split : fieldsOf? text with
  | none =>
    constructor
    · rintro ⟨item, none, _⟩
      contradiction
    · rintro ⟨wrong, faulty, _⟩
      cases faulty <;> simp_all
  | some found =>
    obtain ⟨head, fields⟩ := found
    simp only [Option.map_some, Option.some.injEq, exists_eq_left', DataFile.faulty_iff split, rowOf]
    split
    · simp [reports.fault, @eq_comm _ fault]
    · split
      · rename_i range read
        simp only [read, reports.row]
        constructor
        · rintro ⟨written, unknown, rfl⟩
          exact ⟨_, ⟨written, unknown, rfl⟩, rfl⟩
        · rintro ⟨_, ⟨written, unknown, rfl⟩, rfl⟩
          exact ⟨written, unknown, rfl⟩
      · rename_i unread
        simp [unread, reports.fault, @eq_comm _ fault]

/-- Items are checked in the order of their lines. -/
theorem fails_itemsFrom (check : Item → Except (Nat × LineFault) β) (least line : Nat)
    (texts : List (List Char)) : Fails ((itemsFrom least line texts).mapM check)
      (texts.mapIdx fun place text fault =>
        ∃ item, item? least (line + place) text = some item ∧ check item = .error fault) := by
  induction texts generalizing line with
  | nil => exact .ok []
  | cons text texts ih =>
    have later := ih (line + 1)
    simp only [Nat.add_assoc, Nat.add_comm 1] at later
    rw [itemsFrom, List.mapIdx_cons]
    cases given : item? least line text with
    | none =>
      intro fault
      rw [firstOf_cons, ← later fault]
      simp
    | some item => exact .mapM_cons (fun fault => by simp) later

theorem Reports.fails (reports : Reports check unknown?) (format : Format) (text : String) :
    ∀ fault, (items format text).mapM check = .error fault ↔
      FirstFaulty format unknown? text fault := by
  have fails := fails_itemsFrom check (max format.leastFields 1) 1 (format.lines text)
  simp only [reports.faulty_iff] at fails
  exact fails

end

/-- What a field holds if it is not known. The first field behind the range has place zero. -/
def unknownAt (place : Nat) (valueOf? : String → Option α) (fields : List String) :
    Option String :=
  match valueOf? ((fields[place]?).getD "") with
  | some _ => none
  | none => some ((fields[place]?).getD "")

theorem values_eq_error_iff (format : Format) (place : Nat) (valueOf? : String → Option α)
    (text : String) (fault : Nat × LineFault) :
    values format (place + 1) valueOf? text = .error fault ↔
      FirstFaulty format (unknownAt place valueOf?) text fault := by
  apply Reports.fails
  refine ⟨fun _ => rfl, fun row other => ?_⟩
  simp only [unknownAt, Row.field?]
  cases valueOf? ((row.fields[place]?).getD "") <;> simp [@eq_comm _ other]

theorem rows_eq_error_iff (format : Format) (text : String) (fault : Nat × LineFault) :
    rows format text = .error fault ↔ FirstFaulty format (fun _ => none) text fault :=
  Reports.fails ⟨fun _ => rfl, fun row other => by simp⟩ format text fault

end DataFile

end ShapingTables
