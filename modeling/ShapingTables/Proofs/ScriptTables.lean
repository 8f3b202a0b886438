import Mathlib.Data.List.Nodup
import ShapingTables.Script
import ShapingTables.Proofs.ConsultedRanges
import ShapingTables.Proofs.DataLines

/-! The table of scripts against the lines of its file. Numbers are given out in the order
of the first lines and ranked at the end; a range keeps its script through both, and the
scripts end up in the order of the starts of their first ranges. -/
namespace ShapingTables

/-- A list sorted by a key has the elements with equal keys as they were before. -/
theorem pairwise_mergeSort_key (key : α → Nat) {list : List α} {related : α → α → Prop}
    (before : list.Pairwise related) :
    (list.mergeSort fun a b => key a ≤ key b).Pairwise fun a b =>
      key a < key b ∨ (key a = key b ∧ related a b) := by
  have trans : ∀ a b c, decide (key a ≤ key b) = true → decide (key b ≤ key c) = true →
      decide (key a ≤ key c) = true := by
    intro a b c first second
    rw [decide_eq_true_eq] at first second ⊢
    exact Nat.le_trans first second
  have total : ∀ a b, (decide (key a ≤ key b) || decide (key b ≤ key a)) = true := by
    intro a b
    simpa using Nat.le_total _ _
  have sorted := List.pairwise_mergeSort trans total list
  refine List.pairwise_iff_forall_sublist.mpr fun {a b} pair => ?_
  rcases Nat.lt_or_eq_of_le (of_decide_eq_true
    (List.pairwise_iff_forall_sublist.mp sorted pair)) with less | same
  · exact .inl less
  · -- Both are kept where only their key is left, and nothing has moved there.
    have alike := filter_mergeSort trans total (key · == key a)
      (fun c d first second => by simp_all) list
    have kept := pair.filter (key · == key a)
    rw [alike] at kept
    simp only [List.filter_cons, same, beq_self_eq_true, if_true, List.filter_nil] at kept
    have unmoved := kept.trans List.filter_sublist
    exact .inr ⟨same, List.pairwise_iff_forall_sublist.mp before unmoved⟩

namespace ScriptTable

/-- The place of a script's first line among the lines. -/
def firstLine (lines : List (CodepointRange × String)) (name : String) : Nat :=
  (lines.map (·.2)).idxOf name

/-- Where the range of that line starts. -/
def startOf (lines : List (CodepointRange × String)) (name : String) : Nat :=
  ((lines.map (·.1.first))[firstLine lines name]?).getD 0

/-- The first range of one script starts before that of the other, or it starts there too and is
listed earlier. -/
def Before (lines : List (CodepointRange × String)) (one other : String) : Prop :=
  startOf lines one < startOf lines other ∨
    (startOf lines one = startOf lines other ∧ firstLine lines one < firstLine lines other)

instance (lines : List (CodepointRange × String)) (one other : String) :
    Decidable (Before lines one other) :=
  inferInstanceAs (Decidable (_ ∨ _))

variable {lines : List (CodepointRange × String)} {one other name : String}

theorem Before.asymm (first : Before lines one other) (second : Before lines other one) :
    False := by
  rw [Before] at first second
  omega

theorem Before.ne (before : Before lines one other) : one ≠ other := by
  rintro rfl
  exact before.asymm before

/-- Only one list of the same scripts is in order. -/
theorem eq_of_sorted {scripts others : List String} (sorted : scripts.Pairwise (Before lines))
    (otherSorted : others.Pairwise (Before lines))
    (same : ∀ name, name ∈ scripts ↔ name ∈ others) : scripts = others :=
  List.Perm.eq_of_pairwise (fun _ _ _ _ before behind => (before.asymm behind).elim) sorted
    otherSorted ((List.perm_ext_iff_of_nodup (sorted.imp Before.ne)
      (otherSorted.imp Before.ne)).mpr same)

theorem firstLine_append (listed : name ∈ lines.map (·.2))
    (more : List (CodepointRange × String)) :
    firstLine (lines ++ more) name = firstLine lines name := by
  rw [firstLine, List.map_append, List.idxOf_append_of_mem listed, ← firstLine]

theorem firstLine_lt (listed : name ∈ lines.map (·.2)) : firstLine lines name < lines.length := by
  have bound := List.idxOf_lt_length_of_mem listed
  rwa [List.length_map] at bound

theorem startOf_append (listed : name ∈ lines.map (·.2))
    (more : List (CodepointRange × String)) :
    startOf (lines ++ more) name = startOf lines name := by
  rw [startOf, firstLine_append listed, List.map_append, List.getElem?_append_left, ← startOf]
  rw [List.length_map]
  exact firstLine_lt listed

/-- A script that is new has its first line at the end. -/
theorem firstLine_new (isNew : name ∉ lines.map (·.2)) (range : CodepointRange) :
    firstLine (lines ++ [(range, name)]) name = lines.length := by
  rw [firstLine, List.map_append, List.idxOf_append_of_notMem isNew]
  simp

theorem startOf_new (isNew : name ∉ lines.map (·.2)) (range : CodepointRange) :
    startOf (lines ++ [(range, name)]) name = range.first := by
  rw [startOf, firstLine_new isNew]
  simp

end ScriptTable

namespace NumberedScripts

open ScriptTable (firstLine startOf)

/-- What is known of the scripts of some lines: the names in the order of their first lines, the
starts of their first ranges, and each range with a number that leads back to its name. -/
structure Numbers (lines : List (CodepointRange × String)) (scripts : NumberedScripts) : Prop where
  listed : ∀ name, name ∈ scripts.names.names.toList ↔ name ∈ lines.map (·.2)
  appear : scripts.names.names.toList.Pairwise fun one other =>
    firstLine lines one < firstLine lines other
  starts : scripts.firstStarts.toList = scripts.names.names.toList.map (startOf lines)
  named : scripts.ranges.toList.map (fun entry => (entry.1, scripts.names.name? entry.2)) =
    lines.map fun line => (line.1, some line.2)

theorem numbers_empty : Numbers [] empty := by
  constructor <;> simp [empty, NameTable.empty]

variable {lines : List (CodepointRange × String)} {scripts : NumberedScripts}
  {range : CodepointRange} {name : String}

theorem Numbers.appear_append (numbers : Numbers lines scripts)
    (more : List (CodepointRange × String)) :
    scripts.names.names.toList.Pairwise fun one other =>
      firstLine (lines ++ more) one < firstLine (lines ++ more) other := by
  refine numbers.appear.imp_of_mem fun first second before => ?_
  rwa [ScriptTable.firstLine_append ((numbers.listed _).mp first),
    ScriptTable.firstLine_append ((numbers.listed _).mp second)]

theorem Numbers.starts_append (numbers : Numbers lines scripts)
    (more : List (CodepointRange × String)) :
    scripts.firstStarts.toList = scripts.names.names.toList.map (startOf (lines ++ more)) := by
  rw [numbers.starts]
  refine List.map_congr_left fun name member => ?_
  rw [ScriptTable.startOf_append ((numbers.listed _).mp member)]

/-- Every range has a number that was given out. -/
theorem Numbers.exists_name (numbers : Numbers lines scripts) {entry : CodepointRange × Nat}
    (member : entry ∈ scripts.ranges.toList) : ∃ name, scripts.names.name? entry.2 = some name := by
  have image := List.mem_map_of_mem member (f := fun entry => (entry.1, scripts.names.name? entry.2))
  rw [numbers.named] at image
  obtain ⟨line, _, same⟩ := List.mem_map.mp image
  exact ⟨line.2, (Prod.mk.inj same).2.symm⟩

theorem Numbers.known_iff (numbers : Numbers lines scripts) :
    scripts.names.place? name = none ↔ name ∉ lines.map (·.2) := by
  rw [NameTable.place?_eq, List.idxOf?_eq_none_iff, numbers.listed]

/-- A name that has a number keeps it. -/
theorem add_known {number : Nat} (known : scripts.names.place? name = some number) :
    scripts.add range name = { scripts with ranges := scripts.ranges.push (range, number) } := by
  rw [add]
  split
  · rename_i same
    rw [known, Option.some.injEq] at same
    rw [same]
  · rename_i absent
    rw [known] at absent
    contradiction

theorem add_new (isNew : scripts.names.place? name = none) :
    scripts.add range name =
      { names := scripts.names.push name isNew
        firstStarts := scripts.firstStarts.push range.first
        ranges := scripts.ranges.push (range, scripts.names.size) } := by
  rw [add]
  split
  · rename_i known
    rw [isNew] at known
    contradiction
  · rfl

theorem Numbers.add_known (numbers : Numbers lines scripts) {number : Nat}
    (known : scripts.names.place? name = some number) :
    Numbers (lines ++ [(range, name)]) (scripts.add range name) := by
  rw [NumberedScripts.add_known known]
  refine ⟨fun other => ?_, numbers.appear_append [(range, name)],
    numbers.starts_append [(range, name)], ?_⟩
  · have listed : name ∈ lines.map (·.2) := by
      apply Classical.not_not.mp
      intro absent
      rw [numbers.known_iff.mpr absent] at known
      contradiction
    rw [numbers.listed, List.map_append, List.mem_append, List.map_singleton, List.mem_singleton]
    exact ⟨.inl, fun either => either.elim id fun same => same ▸ listed⟩
  · simp only [Array.toList_push, List.map_append, numbers.named, List.map_singleton,
      NameTable.name?_eq_some_of_place? known]

theorem Numbers.add_new (numbers : Numbers lines scripts)
    (isNew : scripts.names.place? name = none) :
    Numbers (lines ++ [(range, name)]) (scripts.add range name) := by
  have absent := numbers.known_iff.mp isNew
  rw [NumberedScripts.add_new isNew]
  refine ⟨fun other => ?_, ?_, ?_, ?_⟩
  · rw [NameTable.toList_push, List.map_append, List.mem_append, List.mem_append, numbers.listed]
    rfl
  · rw [NameTable.toList_push]
    refine List.pairwise_append.mpr ⟨numbers.appear_append _, List.pairwise_singleton _ _, ?_⟩
    intro other member last same
    rw [List.mem_singleton.mp same, ScriptTable.firstLine_new absent,
      ScriptTable.firstLine_append ((numbers.listed _).mp member)]
    exact ScriptTable.firstLine_lt ((numbers.listed _).mp member)
  · rw [NameTable.toList_push, Array.toList_push, List.map_append,
      ← numbers.starts_append [(range, name)], List.map_singleton,
      ScriptTable.startOf_new absent]
  · -- The numbers that ranges have already are below the new one.
    have kept : ∀ entry ∈ scripts.ranges.toList,
        (entry.1, (scripts.names.push name isNew).name? entry.2) =
          (entry.1, scripts.names.name? entry.2) := by
      intro entry member
      obtain ⟨known, own⟩ := numbers.exists_name member
      rw [NameTable.name?_push, if_neg]
      intro last
      simp [last, NameTable.name?, NameTable.size] at own
    rw [Array.toList_push, List.map_append, List.map_congr_left kept, numbers.named,
      List.map_append, List.map_singleton, NameTable.name?_push, if_pos rfl]
    rfl

theorem Numbers.add (numbers : Numbers lines scripts) (range : CodepointRange) (name : String) :
    Numbers (lines ++ [(range, name)]) (scripts.add range name) := by
  cases known : scripts.names.place? name with
  | none => exact numbers.add_new known
  | some number => exact numbers.add_known known

theorem Numbers.foldl (numbers : Numbers lines scripts) (more : List (CodepointRange × String)) :
    Numbers (lines ++ more) (more.foldl (fun scripts line => scripts.add line.1 line.2) scripts) := by
  induction more generalizing lines scripts with
  | nil => rwa [List.append_nil]
  | cons line rest ih =>
    have later := ih (numbers.add line.1 line.2)
    rwa [List.append_assoc] at later

theorem numbers_ofEntries (lines : List (CodepointRange × String)) :
    Numbers lines (ofEntries lines) :=
  numbers_empty.foldl lines

theorem order_perm (scripts : NumberedScripts) :
    scripts.order.Perm (List.range scripts.names.size) :=
  List.mergeSort_perm _ _

theorem mem_order {number : Nat} : number ∈ scripts.order ↔ number < scripts.names.size := by
  rw [scripts.order_perm.mem_iff, List.mem_range]

theorem order_nodup (scripts : NumberedScripts) : scripts.order.Nodup :=
  scripts.order_perm.nodup_iff.mpr List.nodup_range

/-- Of two numbers with the same start the lower one comes first. -/
theorem order_sorted (scripts : NumberedScripts) : scripts.order.Pairwise fun one other =>
    scripts.firstStart one < scripts.firstStart other ∨
      (scripts.firstStart one = scripts.firstStart other ∧ one < other) :=
  pairwise_mergeSort_key scripts.firstStart List.pairwise_lt_range

/-- Each number of a list has the place at which it stands there; the others keep their entries. -/
theorem getElem?_foldl_ranks (order : List Nat) (start : Nat) (ranks : Array Nat)
    (distinct : order.Nodup) {number : Nat} (inside : number < ranks.size) :
    ((order.zipIdx start).foldl (fun ranks entry => ranks.setIfInBounds entry.1 entry.2)
        ranks)[number]? =
      if number ∈ order then some (start + order.idxOf number) else ranks[number]? := by
  induction order generalizing start ranks with
  | nil => simp
  | cons head rest ih =>
    obtain ⟨fresh, distinct⟩ := List.nodup_cons.mp distinct
    rw [List.zipIdx_cons, List.foldl_cons, ih (start + 1) _ distinct (by simpa using inside)]
    by_cases here : number = head
    · subst here
      simp [fresh, inside]
    · have other : head ≠ number := Ne.symm here
      rw [Array.getElem?_setIfInBounds_ne other, List.idxOf_cons_ne _ other, Nat.add_assoc,
        Nat.add_comm 1]
      simp only [List.mem_cons, here, false_or]

theorem getElem?_ranksIn {order : List Nat} (distinct : order.Nodup) {number : Nat}
    (listed : number ∈ order) (inside : number < order.length) :
    (ranksIn order)[number]? = some (order.idxOf number) := by
  have ranks := getElem?_foldl_ranks order 0 (Array.replicate order.length 0) distinct
    (by simpa using inside)
  rw [if_pos listed, Nat.zero_add] at ranks
  exact ranks

theorem ranked_scripts (scripts : NumberedScripts) : scripts.ranked.scripts =
    scripts.order.map fun number => (scripts.names.name? number).getD "" := by
  simp [ranked]

/-- No script is lost and none is doubled when the numbers are put in order. -/
theorem ranked_scripts_perm (scripts : NumberedScripts) :
    scripts.ranked.scripts.Perm scripts.names.names.toList := by
  have all : (List.range scripts.names.size).map (fun number =>
      (scripts.names.name? number).getD "") = scripts.names.names.toList := by
    apply List.ext_getElem
    · simp [NameTable.size]
    · intro number first second
      simp [NameTable.name?, NameTable.size] at first ⊢
      simp [first]
  rw [ranked_scripts, ← all]
  exact scripts.order_perm.map _

/-- The name of a number stands at the rank of the number. -/
theorem name_at_rank {number : Nat} (known : scripts.names.name? number = some name) :
    scripts.ranked.scripts[(ranksIn scripts.order).getD number 0]? = some name := by
  have inside : number < scripts.names.size := by
    apply Nat.lt_of_not_le
    intro beyond
    simp [NameTable.name?, Array.getElem?_eq_none beyond] at known
  have listed := mem_order.mpr inside
  have length : scripts.order.length = scripts.names.size := by
    rw [scripts.order_perm.length_eq, List.length_range]
  rw [Array.getD_eq_getD_getElem?, getElem?_ranksIn scripts.order_nodup listed (length ▸ inside),
    Option.getD_some, ranked_scripts, List.getElem?_map,
    List.getElem?_eq_getElem (List.idxOf_lt_length_of_mem listed), List.getElem_idxOf,
    Option.map_some, known, Option.getD_some]

/-- Each range has the script of its line. -/
theorem Numbers.ranked_ranges (numbers : Numbers lines scripts) :
    scripts.ranked.ranges = RangeTable.ofList lines := by
  have named : ∀ entry ∈ scripts.ranges.toList,
      (entry.1, scripts.ranked.scripts.toArray.getD ((ranksIn scripts.order).getD entry.2 0) "") =
        (entry.1, (scripts.names.name? entry.2).getD "") := by
    intro entry member
    obtain ⟨name, known⟩ := numbers.exists_name member
    rw [known, Array.getD_eq_getD_getElem?, List.getElem?_toArray, name_at_rank known]
  have lines : scripts.ranges.toList.map (fun entry =>
      (entry.1, (scripts.names.name? entry.2).getD "")) = lines := by
    have unnamed := congrArg (List.map fun entry => (entry.1, entry.2.getD "")) numbers.named
    simpa [List.map_map, Function.comp_def] using unnamed
  rw [ranked_scripts] at named
  rw [ranked, List.map_congr_left named, lines]

theorem Numbers.firstStart_eq (numbers : Numbers lines scripts) {number : Nat}
    (known : scripts.names.name? number = some name) :
    scripts.firstStart number = startOf lines name := by
  have start : scripts.firstStarts[number]? = some (startOf lines name) := by
    rw [← Array.getElem?_toList, numbers.starts, List.getElem?_map, Array.getElem?_toList]
    exact congrArg (Option.map (startOf lines)) known
  rw [firstStart, Array.getD_eq_getD_getElem?, start, Option.getD_some]

/-- Names with ascending numbers have ascending first lines. -/
theorem Numbers.firstLine_lt (numbers : Numbers lines scripts) {one other : Nat} {left right : String}
    (first : scripts.names.name? one = some left) (second : scripts.names.name? other = some right)
    (order : one < other) : firstLine lines left < firstLine lines right := by
  rw [NameTable.name?, ← Array.getElem?_toList] at first second
  obtain ⟨inside, rfl⟩ := List.getElem?_eq_some_iff.mp first
  obtain ⟨insideToo, rfl⟩ := List.getElem?_eq_some_iff.mp second
  exact List.pairwise_iff_getElem.mp numbers.appear one other inside insideToo order

/-- The scripts stand in the order of the starts of their first ranges. -/
theorem Numbers.ranked_sorted (numbers : Numbers lines scripts) :
    scripts.ranked.scripts.Pairwise (ScriptTable.Before lines) := by
  rw [ranked_scripts, List.pairwise_map]
  refine scripts.order_sorted.imp_of_mem fun {one other} first second before => ?_
  have known : ∀ number ∈ scripts.order, ∃ name, scripts.names.name? number = some name :=
    fun number member => ⟨_, Array.getElem?_eq_getElem (mem_order.mp member)⟩
  obtain ⟨left, knownLeft⟩ := known one first
  obtain ⟨right, knownRight⟩ := known other second
  rw [numbers.firstStart_eq knownLeft, numbers.firstStart_eq knownRight] at before
  rw [knownLeft, knownRight]
  exact before.imp_right (And.imp_right (numbers.firstLine_lt knownLeft knownRight))

end NumberedScripts

namespace ScriptTable

/-- What a table says, in terms of the lines of its file. -/
structure Describes (table : ScriptTable) (lines : List (CodepointRange × String)) : Prop where
  distinct : table.scripts.Nodup
  listed : ∀ name, name ∈ table.scripts ↔ ∃ line ∈ lines, line.2 = name
  sorted : table.scripts.Pairwise (Before lines)
  place : ∀ name place, table.orderOf? name = some place ↔ table.scripts[place]? = some name
  placeless : ∀ name, table.orderOf? name = none ↔ name ∉ table.scripts
  consulted : ∀ u name, table.scriptOf? u = some name ↔
    ∃ place range, RangeTable.Consulted lines u place (range, name) ∧ range.contains u = true
  covering : RangeTable.Disjoint lines → ∀ u name, table.scriptOf? u = some name ↔
    ∃ range, (range, name) ∈ lines ∧ range.contains u = true

variable {lines : List (CodepointRange × String)} {name : String}

theorem orderOf?_eq_some_iff {table : ScriptTable} (distinct : table.scripts.Nodup) (name : String)
    (place : Nat) : table.orderOf? name = some place ↔ table.scripts[place]? = some name := by
  rw [orderOf?, List.idxOf?_eq_some_iff, List.getElem?_eq_some_iff]
  constructor
  · rintro ⟨inside, here, _⟩
    exact ⟨inside, here⟩
  · rintro ⟨inside, here⟩
    refine ⟨inside, here, fun earlier before same => ?_⟩
    have twice := (List.getElem_inj distinct).mp (same.trans here.symm)
    omega

theorem mem_ofEntries : name ∈ (ofEntries lines).scripts ↔ ∃ line ∈ lines, line.2 = name := by
  have numbers := NumberedScripts.numbers_ofEntries lines
  rw [ofEntries, (NumberedScripts.ofEntries lines).ranked_scripts_perm.mem_iff, numbers.listed,
    List.mem_map]

theorem ofEntries_sorted (lines : List (CodepointRange × String)) :
    (ofEntries lines).scripts.Pairwise (Before lines) :=
  (NumberedScripts.numbers_ofEntries lines).ranked_sorted

theorem ofEntries_ranges (lines : List (CodepointRange × String)) :
    (ofEntries lines).ranges = RangeTable.ofList lines :=
  (NumberedScripts.numbers_ofEntries lines).ranked_ranges

theorem ofEntries_describes (filled : ∀ line ∈ lines, line.1.first ≤ line.1.last) :
    (ofEntries lines).Describes lines := by
  have distinct : (ofEntries lines).scripts.Nodup := (ofEntries_sorted lines).imp Before.ne
  refine ⟨distinct, fun name => mem_ofEntries, ofEntries_sorted lines,
    orderOf?_eq_some_iff distinct, fun name => List.idxOf?_eq_none_iff, fun u name => ?_,
    fun disjoint u name => ?_⟩
  · rw [scriptOf?, ofEntries_ranges, RangeTable.find?_ofList_iff]
  · rw [scriptOf?, ofEntries_ranges, disjoint.find?_ofList_iff filled]

/-- Where each line has a script of its own, that is where the script starts. -/
theorem before_getElem (distinct : (lines.map (·.2)).Nodup) {i j : Nat} (first : i < lines.length)
    (second : j < lines.length) (order : i < j) (ascend : lines[i].1.first ≤ lines[j].1.first) :
    Before lines lines[i].2 lines[j].2 := by
  have own : ∀ (place : Nat) (inside : place < lines.length),
      firstLine lines lines[place].2 = place := by
    intro place inside
    have here := distinct.idxOf_getElem place (by simpa using inside)
    rwa [List.getElem_map] at here
  have start : ∀ (place : Nat) (inside : place < lines.length),
      startOf lines lines[place].2 = lines[place].1.first := by
    intro place inside
    simp [startOf, own place inside, inside]
  rw [Before, start i first, start j second, own i first, own j second]
  omega

/-- Lines that ascend, each with a script of its own, are a table already. -/
theorem ofEntries_ascending (distinct : (lines.map (·.2)).Nodup)
    (ascend : lines.Pairwise fun one other => one.1.first ≤ other.1.first) :
    ofEntries lines = ⟨lines.map (·.2), lines.reverse⟩ := by
  have sorted : (lines.map (·.2)).Pairwise (Before lines) := by
    refine List.pairwise_map.mpr (List.pairwise_iff_getElem.mpr fun i j first second order => ?_)
    exact before_getElem distinct first second order
      (List.pairwise_iff_getElem.mp ascend i j first second order)
  have scripts : (ofEntries lines).scripts = lines.map (·.2) := by
    refine eq_of_sorted (ofEntries_sorted lines) sorted fun name => ?_
    rw [mem_ofEntries, List.mem_map]
  have ranges : (ofEntries lines).ranges = lines.reverse := by
    rw [ofEntries_ranges, RangeTable.ofList, List.mergeSort_of_pairwise]
    exact List.pairwise_reverse.mpr (ascend.imp decide_eq_true)
  rw [← scripts, ← ranges]

/-- The lines of a file: ranges with the names of their scripts. -/
def linesOf (rows : List DataFile.Row) : List (CodepointRange × String) :=
  rows.map fun row => (row.range, (row.field? 1).getD "")

theorem ofText_eq_ok {text : String} {table : ScriptTable} (read : ofText text = .ok table) :
    ∃ rows, DataFile.rows .plain text = .ok rows ∧ table = ofEntries (linesOf rows) := by
  rw [ofText] at read
  cases found : DataFile.rows .plain text with
  | error fault =>
    rw [found] at read
    contradiction
  | ok rows =>
    rw [found] at read
    exact ⟨rows, rfl, (Except.ok.inj read).symm⟩

/-- The table of a text describes the rows of the text. -/
theorem ofText_describes (text : String) (table : ScriptTable) (read : ofText text = .ok table) :
    ∃ rows, DataFile.rows .plain text = .ok rows ∧ table.Describes (linesOf rows) := by
  rw [ofText] at read
  cases found : DataFile.rows .plain text with
  | error fault =>
    rw [found] at read
    contradiction
  | ok rows =>
    rw [found] at read
    obtain rfl := Except.ok.inj read
    refine ⟨rows, rfl, ofEntries_describes fun line member => ?_⟩
    obtain ⟨row, origin, rfl⟩ := List.mem_map.mp member
    exact (DataFile.range_of_rows found origin).1

/-- Lines in no order: a range of a script that is listed late starts before all others. -/
def shuffledLines : String :=
  "1A20..1A5E ; Tai_Tham\n1950..1974 ; Tai_Le\n1A60..1A7C ; Tai_Tham\n1930..193B ; Tai_Tham\n"

def shuffledRows : List DataFile.Row := [⟨1, ⟨0x1A20, 0x1A5E⟩, ["Tai_Tham"]⟩,
  ⟨2, ⟨0x1950, 0x1974⟩, ["Tai_Le"]⟩, ⟨3, ⟨0x1A60, 0x1A7C⟩, ["Tai_Tham"]⟩,
  ⟨4, ⟨0x1930, 0x193B⟩, ["Tai_Tham"]⟩]

theorem ofText_describes_shuffledLines :
    ∃ table, ofText shuffledLines = .ok table ∧ table.scripts = ["Tai_Le", "Tai_Tham"] ∧
      table.orderOf? "Tai_Tham" = some 1 ∧ table.orderOf? "Tai" = none ∧
      table.scriptOf? 0x1931 = some "Tai_Tham" ∧ table.scriptOf? 0x1A5F = none := by
  have known : DataFile.rows .plain shuffledLines = .ok shuffledRows := rfl
  have read : ofText shuffledLines = .ok (ofEntries (linesOf shuffledRows)) :=
    congrArg (Except.map fun rows => ofEntries (linesOf rows)) known
  obtain ⟨rows, same, describes⟩ := ofText_describes shuffledLines _ read
  obtain rfl := Except.ok.inj (known.symm.trans same)
  have scripts : (ofEntries (linesOf shuffledRows)).scripts = ["Tai_Le", "Tai_Tham"] := by
    refine eq_of_sorted describes.sorted (by decide) fun name => ?_
    have names : (linesOf shuffledRows).map (·.2) =
        ["Tai_Tham", "Tai_Le", "Tai_Tham", "Tai_Tham"] := rfl
    rw [describes.listed, ← List.mem_map, names]
    grind
  have disjoint : RangeTable.Disjoint (linesOf shuffledRows) :=
    RangeTable.disjoint_of_apart (by decide)
  refine ⟨_, read, scripts, ?_, ?_, ?_, ?_⟩
  · rw [describes.place, scripts]
    rfl
  · rw [describes.placeless, scripts]
    decide
  · exact (describes.covering disjoint _ _).mpr ⟨⟨0x1930, 0x193B⟩, by decide, by decide⟩
  · have outside : ∀ line ∈ linesOf shuffledRows, line.1.contains 0x1A5F = false := by decide
    refine Option.eq_none_iff_forall_ne_some.mpr fun name found => ?_
    obtain ⟨range, member, held⟩ := (describes.covering disjoint _ _).mp found
    rw [outside _ member] at held
    contradiction

end ScriptTable

end ShapingTables
