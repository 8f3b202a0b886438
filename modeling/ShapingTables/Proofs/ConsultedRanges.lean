import Mathlib.Data.List.Induction
import ShapingTables.RangeTable
import ShapingTables.Proofs.Ranges

/-! Which of the lines behind a table of ranges a lookup consults: the one that starts last
at or before the codepoint, and of those that start there the latest in a table made of a list,
the earliest in one that is filled line by line. Where the ranges are disjoint no other line
could hold the codepoint. -/
namespace ShapingTables

/-- Sorting leaves elements that are alike in their order. -/
theorem filter_mergeSort {le : α → α → Bool} (trans : ∀ a b c, le a b → le b c → le a c)
    (total : ∀ a b, le a b || le b a) (keeps : α → Bool)
    (alike : ∀ a b, keeps a → keeps b → le a b) (list : List α) :
    (list.mergeSort le).filter keeps = list.filter keeps := by
  have sorted : (list.filter keeps).Pairwise fun a b => le a b = true :=
    List.pairwise_of_forall_mem_list fun a first b second =>
      alike a b (List.mem_filter.mp first).2 (List.mem_filter.mp second).2
  have kept := (List.sublist_mergeSort trans total sorted List.filter_sublist).filter keeps
  rw [List.filter_filter, List.filter_congr fun a _ => Bool.and_self (keeps a)] at kept
  exact (kept.eq_of_length ((List.mergeSort_perm list le).filter keeps).length_eq.symm).symm

/-- What is found first from behind stands behind all that could be found. -/
theorem exists_last_of_find? {list : List α} {keeps : α → Bool} {element : α}
    (found : list.reverse.find? keeps = some element) :
    keeps element = true ∧ ∃ place : Nat, list[place]? = some element ∧
      ∀ (other : Nat) (held : α), list[other]? = some held → keeps held = true → other ≤ place := by
  obtain ⟨kept, i, bound, here, before⟩ := List.find?_eq_some_iff_getElem.mp found
  rw [List.length_reverse] at bound
  rw [List.getElem_reverse] at here
  refine ⟨kept, list.length - 1 - i, here ▸ List.getElem?_eq_getElem _, ?_⟩
  intro other held there keptToo
  apply Nat.le_of_not_lt
  intro behind
  obtain ⟨inside, rfl⟩ := List.getElem?_eq_some_iff.mp there
  have earlier := before (list.length - 1 - other) (by omega)
  have same : list.length - 1 - (list.length - 1 - other) = other := by omega
  simp [List.getElem_reverse, same, keptToo] at earlier

namespace RangeTable

variable {lines : List (CodepointRange × α)} {u place : Nat} {line : CodepointRange × α}

/-- No line that starts at or before the codepoint starts behind this one, and those that
start together with it are not later. -/
structure Consulted (lines : List (CodepointRange × α)) (u place : Nat)
    (line : CodepointRange × α) : Prop where
  here : lines[place]? = some line
  start : line.1.first ≤ u
  latest : ∀ other otherLine, lines[other]? = some otherLine → otherLine.1.first ≤ u →
    otherLine.1.first < line.1.first ∨ (otherLine.1.first = line.1.first ∧ other ≤ place)

theorem Consulted.unique {other : Nat} {otherLine : CodepointRange × α}
    (first : Consulted lines u place line) (second : Consulted lines u other otherLine) :
    line = otherLine := by
  have behind := first.latest other otherLine second.here second.start
  have before := second.latest place line first.here first.start
  have same : place = other := by omega
  have equal := first.here
  rw [same, second.here] at equal
  exact (Option.some.inj equal).symm

theorem mem_ofList : line ∈ ofList lines ↔ line ∈ lines := by
  rw [ofList, List.mem_mergeSort, List.mem_reverse]

theorem descends_trans (a b c : CodepointRange × α) (first : decide (b.1.first ≤ a.1.first) = true)
    (second : decide (c.1.first ≤ b.1.first) = true) : decide (c.1.first ≤ a.1.first) = true := by
  rw [decide_eq_true_eq] at first second ⊢
  exact Nat.le_trans second first

theorem descends_total (a b : CodepointRange × α) :
    (decide (b.1.first ≤ a.1.first) || decide (a.1.first ≤ b.1.first)) = true := by
  simpa using Nat.le_total _ _

theorem ofList_descends (lines : List (CodepointRange × α)) :
    (ofList lines).Pairwise fun left right => right.1.first ≤ left.1.first :=
  (List.pairwise_mergeSort descends_trans descends_total lines.reverse).imp of_decide_eq_true

/-- Lines that start together are met in the table from the latest to the earliest. -/
theorem find?_start (lines : List (CodepointRange × α)) (start : Nat) :
    List.find? (·.1.first == start) (ofList lines) =
      lines.reverse.find? (·.1.first == start) := by
  have alike : ∀ a b : CodepointRange × α, (a.1.first == start) = true →
      (b.1.first == start) = true → decide (b.1.first ≤ a.1.first) = true := by
    intro a b first second
    rw [beq_iff_eq] at first second
    rw [first, second]
    exact decide_eq_true (Nat.le_refl _)
  rw [← List.head?_filter, ofList, filter_mergeSort descends_trans descends_total _ alike,
    List.head?_filter]

/-- The table holds the lines in descending order, and of those that start together the latest
is met first. -/
structure Arranges (table : RangeTable α) (lines : List (CodepointRange × α)) : Prop where
  mem : ∀ line, line ∈ table ↔ line ∈ lines
  descends : table.Pairwise fun left right => right.1.first ≤ left.1.first
  met : ∀ start, List.find? (·.1.first == start) table = lines.reverse.find? (·.1.first == start)

theorem arranges_ofList (lines : List (CodepointRange × α)) : Arranges (ofList lines) lines :=
  ⟨fun _ => mem_ofList, ofList_descends lines, find?_start lines⟩

/-- The table that lines make when they are inserted one after the other. -/
def ofInsertions (lines : List (CodepointRange × α)) : RangeTable α :=
  lines.foldl (fun table line => table.insert line.1 line.2) []

theorem ofInsertions_concat (lines : List (CodepointRange × α)) (range : CodepointRange)
    (value : α) : ofInsertions (lines ++ [(range, value)]) = (ofInsertions lines).insert range value := by
  rw [ofInsertions, List.foldl_append, ← ofInsertions]
  rfl

section Insert

variable {table : RangeTable α}

theorem insert_perm (table : RangeTable α) (range : CodepointRange) (value : α) :
    (table.insert range value).Perm ((range, value) :: table) := by
  rw [insert]
  refine List.perm_middle.trans ?_
  rw [List.takeWhile_append_dropWhile]

theorem ofInsertions_perm (lines : List (CodepointRange × α)) : (ofInsertions lines).Perm lines := by
  induction lines using List.reverseRecOn with
  | nil => exact .nil
  | append_singleton lines line ih =>
    rw [ofInsertions_concat]
    exact (insert_perm _ _ _).trans ((ih.cons line).trans (List.perm_append_singleton _ _).symm)

theorem first_lt_of_mem_dropWhile (descends : table.Pairwise fun left right =>
    right.1.first ≤ left.1.first) {start : Nat}
    (behind : line ∈ table.dropWhile fun entry => start ≤ entry.1.first) :
    line.1.first < start := by
  induction table with
  | nil => contradiction
  | cons head rest ih =>
    obtain ⟨highest, descends⟩ := List.pairwise_cons.mp descends
    rw [List.dropWhile_cons] at behind
    split at behind
    · exact ih descends behind
    · rename_i below
      have start := Nat.lt_of_not_le fun le => below (decide_eq_true le)
      rcases List.mem_cons.mp behind with rfl | later
      · exact start
      · exact Nat.lt_of_le_of_lt (highest line later) start

theorem le_first_of_mem_takeWhile {start : Nat}
    (front : line ∈ table.takeWhile fun entry => start ≤ entry.1.first) :
    start ≤ line.1.first :=
  of_decide_eq_true (List.all_eq_true.mp List.all_takeWhile line front)

/-- An insertion puts its line behind those that start together with it. -/
theorem Arranges.insert (arranged : Arranges table lines) (range : CodepointRange) (value : α) :
    Arranges (table.insert range value) ((range, value) :: lines) := by
  have rejoined := List.takeWhile_append_dropWhile
    (p := fun entry : CodepointRange × α => decide (range.first ≤ entry.1.first)) (l := table)
  have ordered := arranged.descends
  rw [← rejoined, List.pairwise_append] at ordered
  refine ⟨fun line => ?_, ?_, fun start => ?_⟩
  · rw [(insert_perm table range value).mem_iff, List.mem_cons, List.mem_cons, arranged.mem]
  · refine List.pairwise_append.mpr ⟨ordered.1, List.pairwise_cons.mpr ⟨?_, ordered.2.1⟩, ?_⟩
    · intro line behind
      exact Nat.le_of_lt (first_lt_of_mem_dropWhile arranged.descends behind)
    · intro line front other behind
      rcases List.mem_cons.mp behind with rfl | behind
      · exact le_first_of_mem_takeWhile front
      · exact ordered.2.2 line front other behind
  · have met := arranged.met start
    rw [← rejoined, List.find?_append] at met
    rw [RangeTable.insert, List.reverse_cons, List.find?_append, List.find?_append, ← met,
      List.find?_cons, List.find?_cons, List.find?_nil]
    by_cases same : range.first = start
    · -- Nothing behind the new line starts together with it.
      have none : List.find? (·.1.first == start)
          (table.dropWhile fun entry => range.first ≤ entry.1.first) = none := by
        refine List.find?_eq_none.mpr fun line behind equal => ?_
        have below := first_lt_of_mem_dropWhile arranged.descends behind
        rw [beq_iff_eq] at equal
        omega
      rw [none, beq_iff_eq.mpr same, Option.or_none]
    · have other : (range.first == start) = false := by simpa using same
      simp [other]

theorem arranges_ofInsertions (lines : List (CodepointRange × α)) :
    Arranges (ofInsertions lines) lines.reverse := by
  induction lines using List.reverseRecOn with
  | nil => exact ⟨fun _ => Iff.rfl, .nil, fun _ => rfl⟩
  | append_singleton lines line ih =>
    rw [ofInsertions_concat, List.reverse_concat]
    exact ih.insert line.1 line.2

end Insert

/-- As `Consulted`, but of the lines that start together the earliest counts. -/
structure ConsultedFirst (lines : List (CodepointRange × α)) (u place : Nat)
    (line : CodepointRange × α) : Prop where
  here : lines[place]? = some line
  start : line.1.first ≤ u
  earliest : ∀ other otherLine, lines[other]? = some otherLine → otherLine.1.first ≤ u →
    otherLine.1.first < line.1.first ∨ (otherLine.1.first = line.1.first ∧ place ≤ other)

/-- Which line is consulted depends on the ranges alone. -/
theorem consultedFirst_map_iff {become : CodepointRange × α → CodepointRange × β}
    (kept : ∀ line, (become line).1 = line.1) {entry : CodepointRange × β} :
    ConsultedFirst (lines.map become) u place entry ↔
      ∃ line, ConsultedFirst lines u place line ∧ become line = entry := by
  constructor
  · rintro ⟨here, start, earliest⟩
    rw [List.getElem?_map] at here
    obtain ⟨line, own, rfl⟩ := Option.map_eq_some_iff.mp here
    rw [kept] at start
    refine ⟨line, ⟨own, start, fun other otherLine there before => ?_⟩, rfl⟩
    have later := earliest other (become otherLine) (by rw [List.getElem?_map, there]; rfl)
    rw [kept, kept] at later
    exact later before
  · rintro ⟨line, ⟨here, start, earliest⟩, rfl⟩
    refine ⟨by rw [List.getElem?_map, here]; rfl, by rwa [kept], fun other otherLine there before => ?_⟩
    rw [List.getElem?_map] at there
    obtain ⟨original, own, rfl⟩ := Option.map_eq_some_iff.mp there
    rw [kept] at before ⊢
    rw [kept]
    exact earliest other original own before

/-- Read backwards, the earliest line is the latest. -/
theorem exists_consulted_reverse_iff : (∃ place, Consulted lines.reverse u place line) ↔
    ∃ place, ConsultedFirst lines u place line := by
  have mirrored : ∀ {other : Nat} {otherLine : CodepointRange × α},
      lines[other]? = some otherLine → lines.reverse[lines.length - 1 - other]? = some otherLine := by
    intro other otherLine there
    obtain ⟨inside, _⟩ := List.getElem?_eq_some_iff.mp there
    rw [List.getElem?_reverse (by omega), ← there]
    congr 1
    omega
  constructor
  · rintro ⟨place, here, start, latest⟩
    obtain ⟨inside, _⟩ := List.getElem?_eq_some_iff.mp here
    rw [List.length_reverse] at inside
    rw [List.getElem?_reverse inside] at here
    refine ⟨_, here, start, fun other otherLine there before => ?_⟩
    obtain ⟨insideToo, _⟩ := List.getElem?_eq_some_iff.mp there
    exact (latest _ _ (mirrored there) before).imp_right fun ⟨same, order⟩ => ⟨same, by omega⟩
  · rintro ⟨place, here, start, earliest⟩
    refine ⟨_, mirrored here, start, fun other otherLine there before => ?_⟩
    obtain ⟨inside, _⟩ := List.getElem?_eq_some_iff.mp there
    rw [List.length_reverse] at inside
    rw [List.getElem?_reverse inside] at there
    exact (earliest _ _ there before).imp_right fun ⟨same, order⟩ => ⟨same, by omega⟩

namespace Arranges

variable {table : RangeTable α} (arranged : Arranges table lines)
include arranged

theorem exists_consulted (found : List.find? (·.1.first ≤ u) table = some line) :
    ∃ place, Consulted lines u place line := by
  obtain ⟨start, front, rest, split, passed⟩ := List.find?_eq_some_iff_append.mp found
  rw [decide_eq_true_eq] at start
  have first : List.find? (·.1.first == line.1.first) table = some line := by
    refine List.find?_eq_some_iff_append.mpr ⟨by simp, front, rest, split, fun other member => ?_⟩
    have behind := passed other member
    simp only [Bool.not_eq_true', decide_eq_false_iff_not, beq_eq_false_iff_ne] at behind ⊢
    omega
  rw [arranged.met] at first
  obtain ⟨_, place, here, last⟩ := exists_last_of_find? first
  refine ⟨place, here, start, fun other otherLine there before => ?_⟩
  -- The table holds no line in front of this one that starts as early.
  have member : otherLine ∈ front ++ line :: rest :=
    split ▸ (arranged.mem _).mpr (List.mem_of_getElem? there)
  have descends := arranged.descends
  rw [split, List.pairwise_append, List.pairwise_cons] at descends
  have order : otherLine.1.first ≤ line.1.first := by
    rcases List.mem_append.mp member with inFront | inRest
    · have behind := passed otherLine inFront
      simp only [Bool.not_eq_true', decide_eq_false_iff_not] at behind
      omega
    · rcases List.mem_cons.mp inRest with rfl | inRest
      · exact Nat.le_refl _
      · exact descends.2.1.1 otherLine inRest
  rcases Nat.lt_or_eq_of_le order with less | same
  · exact .inl less
  · exact .inr ⟨same, last other otherLine there (by simpa using same)⟩

/-- A lookup answers for the line that it consults, if the range of that line holds the codepoint. -/
theorem find?_iff (value : α) : table.find? u = some value ↔
    ∃ place range, Consulted lines u place (range, value) ∧ range.contains u = true := by
  rw [find?]
  cases found : List.find? (·.1.first ≤ u) table with
  | none =>
    simp only [reduceCtorEq, false_iff]
    rintro ⟨place, range, consulted, _⟩
    have member := (arranged.mem _).mpr (List.mem_of_getElem? consulted.here)
    exact List.find?_eq_none.mp found _ member (by simpa using consulted.start)
  | some line =>
    obtain ⟨place, consulted⟩ := arranged.exists_consulted found
    obtain ⟨range, answer⟩ := line
    simp only [Option.ite_none_right_eq_some, Option.some.injEq]
    constructor
    · rintro ⟨held, rfl⟩
      exact ⟨place, range, consulted, held⟩
    · rintro ⟨other, otherRange, twin, held⟩
      obtain ⟨rfl, rfl⟩ := Prod.mk.inj (consulted.unique twin)
      exact ⟨held, rfl⟩

end Arranges

theorem find?_ofList_iff (value : α) : (ofList lines).find? u = some value ↔
    ∃ place range, Consulted lines u place (range, value) ∧ range.contains u = true :=
  (arranges_ofList lines).find?_iff value

/-- No two lines hold a codepoint together. -/
def Disjoint (lines : List (CodepointRange × α)) : Prop :=
  lines.Pairwise fun one other => ∀ u, ¬(one.1.contains u = true ∧ other.1.contains u = true)

theorem disjoint_of_apart (apart : lines.Pairwise fun one other =>
    one.1.last < other.1.first ∨ other.1.last < one.1.first) : Disjoint lines := by
  refine apart.imp fun apart u => ?_
  rw [CodepointRange.contains_iff, CodepointRange.contains_iff]
  omega

/-- No range starts inside another one. Of ranges that hold something it is the same as to say
that no two of them hold a codepoint together. -/
def StartsApart (lines : List (CodepointRange × α)) : Prop :=
  lines.Pairwise fun one other =>
    one.1.contains other.1.first = false ∧ other.1.contains one.1.first = false

theorem startsApart_iff_disjoint (filled : ∀ line ∈ lines, line.1.first ≤ line.1.last) :
    StartsApart lines ↔ Disjoint lines := by
  rw [StartsApart, Disjoint]
  refine List.Pairwise.iff_of_mem fun {one other} first second => ?_
  have own := filled one first
  have others := filled other second
  simp only [Bool.eq_false_iff, ne_eq, CodepointRange.contains_iff]
  constructor
  · intro apart u both
    omega
  · intro apart
    -- The later start would lie in both.
    have early := apart one.1.first
    have late := apart other.1.first
    omega

namespace StartsApart

variable (apart : StartsApart lines)
include apart

theorem perm {others : List (CodepointRange × α)} (same : others.Perm lines) : StartsApart others :=
  (same.pairwise_iff fun {_ _} pair => pair.symm).mpr apart

theorem not_contains {other : Nat} {otherLine : CodepointRange × α}
    (here : lines[place]? = some line) (there : lines[other]? = some otherLine)
    (different : place ≠ other) : line.1.contains otherLine.1.first = false := by
  obtain ⟨inside, rfl⟩ := List.getElem?_eq_some_iff.mp here
  obtain ⟨insideToo, rfl⟩ := List.getElem?_eq_some_iff.mp there
  have pairs := List.pairwise_iff_getElem.mp apart
  rcases Nat.lt_or_gt_of_ne different with before | behind
  · exact (pairs place other inside insideToo before).1
  · exact (pairs other place insideToo inside behind).2

/-- The line whose range holds a codepoint is consulted. -/
theorem exists_consulted (member : line ∈ lines) (held : line.1.contains u = true) :
    ∃ place, Consulted lines u place line := by
  obtain ⟨place, here⟩ := List.mem_iff_getElem?.mp member
  obtain ⟨start, stop⟩ := CodepointRange.contains_iff.mp held
  refine ⟨place, here, start, fun other otherLine there before => ?_⟩
  by_cases same : place = other
  · subst same
    rw [here, Option.some.injEq] at there
    exact .inr ⟨by rw [← there], Nat.le_refl _⟩
  · -- Else the other range would start inside this one.
    have outside := apart.not_contains here there same
    rw [Bool.eq_false_iff, ne_eq, CodepointRange.contains_iff] at outside
    exact .inl (by omega)

/-- Of ranges that start apart the one that holds a codepoint answers. -/
theorem find?_iff {table : RangeTable α} (arranged : Arranges table lines) (value : α) :
    table.find? u = some value ↔ ∃ range, (range, value) ∈ lines ∧ range.contains u = true := by
  rw [arranged.find?_iff]
  constructor
  · rintro ⟨place, range, consulted, held⟩
    exact ⟨range, List.mem_of_getElem? consulted.here, held⟩
  · rintro ⟨range, member, held⟩
    obtain ⟨place, consulted⟩ := apart.exists_consulted member held
    exact ⟨place, range, consulted, held⟩

end StartsApart

/-- Of disjoint ranges the one that holds a codepoint is consulted. -/
theorem Disjoint.find?_ofList_iff (disjoint : Disjoint lines)
    (filled : ∀ line ∈ lines, line.1.first ≤ line.1.last) (value : α) :
    (ofList lines).find? u = some value ↔
      ∃ range, (range, value) ∈ lines ∧ range.contains u = true :=
  ((startsApart_iff_disjoint filled).mpr disjoint).find?_iff (arranges_ofList lines) value

end RangeTable

end ShapingTables
