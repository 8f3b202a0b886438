import Mathlib.Data.List.Dedup
import Mathlib.Data.List.Induction
import Mathlib.Data.List.Perm.Subperm
import ShapingTables.Run
import ShapingTables.Proofs.ConsultedRanges
import ShapingTables.Proofs.MergedRecords
import ShapingTables.Proofs.Numerals

/-! Handles of blocks and the names behind them. A new name gets its place among the names as
its handle, narrowed to sixteen bits, and keeps it. Handles stand for names exactly as long as
there are no more names than handles; then runs and exclusions, which compare handles, come
out as if they compared names. -/
namespace ShapingTables

/-- As `cons`, with the names of the blocks compared in place of their handles. -/
def Run.consNamed (blocks : BlockTable) (codepoint : Nat) (category : Category) (block : Block) :
    List Run → List Run
  | [] => [⟨.single codepoint, category, block⟩]
  | run :: rest =>
    if codepoint + 1 = run.range.first ∧ category = run.category ∧
        blocks.name block = blocks.name run.block then
      { run with range := ⟨codepoint, run.range.last⟩ } :: rest
    else ⟨.single codepoint, category, block⟩ :: run :: rest

def Run.ofEntriesNamed (blocks : BlockTable) (entries : List (Nat × Category × Block)) : List Run :=
  entries.foldr (fun (codepoint, category, block) runs =>
    if category.isOther then runs else consNamed blocks codepoint category block runs) []

/-- The runs that a set would have if the names of its blocks were compared. -/
def ClassifiedSet.namedRuns (set : ClassifiedSet) : List Run :=
  Run.ofEntriesNamed set.blocks set.entries.toList

/-- The name of the block that a data line gives to its range. -/
def DataFile.Row.blockName (row : Row) : String := (row.field? 1).getD ""

namespace BlockTable

/-- What is asked of a table while it is filled. -/
inductive Step where
  | intern (name : String)
  | insert (range : CodepointRange) (name : String)
  deriving DecidableEq, Repr

namespace Step

def name : Step → String
  | intern name => name
  | insert _ name => name

/-- The handle that is returned, and the table afterwards. -/
def run (table : BlockTable) : Step → Block × BlockTable
  | intern name => table.intern name
  | insert range name => table.insert range name

/-- The range that is inserted, with the name of its block. -/
def line? : Step → Option (CodepointRange × String)
  | intern _ => none
  | insert range name => some (range, name)

/-- What a data line asks for. -/
def ofRow (row : DataFile.Row) : Step := insert row.range row.blockName

end Step

def runFrom (table : BlockTable) (steps : List Step) : BlockTable :=
  steps.foldl (fun table step => (step.run table).2) table

/-- The names asked for, each with the handle that was returned. -/
def answersFrom (table : BlockTable) : List Step → List (String × Block)
  | [] => []
  | step :: rest => (step.name, (step.run table).1) :: answersFrom (step.run table).2 rest

/-- The table that steps make of the empty one. -/
def after (steps : List Step) : BlockTable := runFrom empty steps

def answers (steps : List Step) : List (String × Block) := answersFrom empty steps

def insertions (steps : List Step) : List (CodepointRange × String) := steps.filterMap Step.line?

/-- The names in use, the one for codepoints outside every block among them. -/
def namesOf (steps : List Step) : List String := Block.unnamedName :: steps.map Step.name

/-- How many different names are in use. -/
def nameCount (steps : List Step) : Nat := (namesOf steps).dedup.length

/-- The block is the handle of a name. -/
def Gives (table : BlockTable) (block : Block) : Prop := ∃ name, table.find? name = some block

/-- Handles stand for names: in what is returned, in what is read back then and later, in the
runs of a set and in what is left out. -/
structure Faithful (steps : List Step) : Prop where
  alike : ∀ one ∈ answers steps, ∀ other ∈ answers steps, one.2 = other.2 ↔ one.1 = other.1
  unnamed : ∀ answer ∈ answers steps, answer.2 = .unnamed ↔ answer.1 = Block.unnamedName
  named : ∀ earlier later, earlier ++ later = steps → ∀ answer ∈ answers earlier,
    (after earlier).name answer.2 = answer.1 ∧ (after steps).name answer.2 = answer.1
  runs : ∀ set : ClassifiedSet, set.blocks = after steps →
    (∀ entry ∈ set.entries.toList, set.blocks.Gives entry.2.2) → set.namedRuns = set.runs
  excluded : ∀ names u, (after steps).Excludes names u ↔
    (after steps).name ((after steps).blockOf u) ∈ names

variable {table : BlockTable} {name other : String} {block : Block} {step : Step}
  {steps : List Step}

theorem find?_eq_of_names {others : BlockTable} (same : table.names = others.names)
    (name : String) : table.find? name = others.find? name := by
  rw [find?, find?, same]

theorem intern_known {place : Nat} (known : table.names.place? name = some place) :
    table.intern name = (⟨UInt16.ofNat place⟩, table) := by
  rw [intern]
  split
  · rename_i same
    rw [known, Option.some.injEq] at same
    rw [same]
  · rename_i absent
    rw [known] at absent
    contradiction

theorem intern_new (isNew : table.names.place? name = none) :
    table.intern name = (⟨UInt16.ofNat table.names.size⟩,
      { table with names := table.names.push name isNew }) := by
  rw [intern]
  split
  · rename_i known
    rw [isNew] at known
    contradiction
  · rfl

theorem ranges_intern (table : BlockTable) (name : String) :
    (table.intern name).2.ranges = table.ranges := by
  cases known : table.names.place? name with
  | none => rw [intern_new known]
  | some place => rw [intern_known known]

/-- A name that has a place keeps it. -/
theorem place?_intern {place : Nat} (known : table.names.place? other = some place)
    (name : String) : (table.intern name).2.names.place? other = some place := by
  cases own : table.names.place? name with
  | some _ => rwa [intern_known own]
  | none =>
    rw [intern_new own, NameTable.place?_push, if_neg, known]
    rintro rfl
    rw [own] at known
    contradiction

theorem find?_intern_self (table : BlockTable) (name : String) :
    (table.intern name).2.find? name = some (table.intern name).1 := by
  cases known : table.names.place? name with
  | some place => rw [intern_known known, find?, known, Option.map_some]
  | none => rw [intern_new known, find?, NameTable.place?_push, if_pos rfl, Option.map_some]

theorem Step.names_run (step : Step) (table : BlockTable) :
    (step.run table).2.names = (table.intern step.name).2.names := by
  cases step <;> rfl

theorem Step.find?_run_self (step : Step) (table : BlockTable) :
    (step.run table).2.find? step.name = some (step.run table).1 := by
  rw [find?_eq_of_names (step.names_run table), find?_intern_self]
  cases step <;> rfl

theorem Step.place?_run {place : Nat} (known : table.names.place? name = some place) :
    (step.run table).2.names.place? name = some place := by
  rw [step.names_run]
  exact place?_intern known step.name

theorem place?_runFrom {place : Nat} (known : table.names.place? name = some place)
    (steps : List Step) : (runFrom table steps).names.place? name = some place := by
  induction steps generalizing table with
  | nil => exact known
  | cons step rest ih => exact ih (Step.place?_run known)

/-- The handle of a name never changes. -/
theorem find?_runFrom (found : table.find? name = some block) (steps : List Step) :
    (runFrom table steps).find? name = some block := by
  obtain ⟨place, known, rfl⟩ := Option.map_eq_some_iff.mp found
  rw [find?, place?_runFrom known, Option.map_some]

theorem find?_of_mem_answersFrom {answer : String × Block}
    (answered : answer ∈ answersFrom table steps) :
    (runFrom table steps).find? answer.1 = some answer.2 := by
  induction steps generalizing table with
  | nil => contradiction
  | cons step rest ih =>
    rcases List.mem_cons.mp answered with rfl | later
    · exact find?_runFrom (step.find?_run_self table) rest
    · exact ih later

theorem map_answersFrom (table : BlockTable) (steps : List Step) :
    (answersFrom table steps).map (·.1) = steps.map Step.name := by
  induction steps generalizing table with
  | nil => rfl
  | cons step rest ih => rw [answersFrom, List.map_cons, ih, List.map_cons]

theorem after_append (steps more : List Step) : after (steps ++ more) = runFrom (after steps) more :=
  List.foldl_append

/-- What was returned stays the handle of the name. -/
theorem find?_of_mem_answers {answer : String × Block} (answered : answer ∈ answers steps)
    (more : List Step) : (after (steps ++ more)).find? answer.1 = some answer.2 := by
  rw [after_append]
  exact find?_runFrom (find?_of_mem_answersFrom answered) more

theorem exists_answer (asked : name ∈ steps.map Step.name) : ∃ block, (name, block) ∈ answers steps := by
  rw [← map_answersFrom empty] at asked
  obtain ⟨⟨_, block⟩, answered, rfl⟩ := List.mem_map.mp asked
  exact ⟨block, answered⟩

theorem place?_after_unnamed (steps : List Step) :
    (after steps).names.place? Block.unnamedName = some 0 := by
  refine place?_runFrom ?_ steps
  rw [empty, NameTable.place?_push, if_pos rfl]
  rfl

theorem find?_after_unnamed (steps : List Step) :
    (after steps).find? Block.unnamedName = some .unnamed := by
  rw [find?, place?_after_unnamed]
  rfl

/-- The names of the table are these, each of them once. -/
structure Knows (table : BlockTable) (names : List String) : Prop where
  listed : ∀ name, name ∈ table.names.names.toList ↔ name ∈ names
  distinct : table.names.names.toList.Nodup

theorem Knows.run {names : List String} (knows : table.Knows names) (step : Step) :
    (step.run table).2.Knows (names ++ [step.name]) := by
  cases known : table.names.place? step.name with
  | some place =>
    have same : (step.run table).2.names = table.names := by
      rw [step.names_run, intern_known known]
    have member : step.name ∈ names := by
      apply Classical.not_not.mp
      rw [← knows.listed, ← NameTable.place?_eq_none_iff, known]
      simp
    refine ⟨fun name => ?_, same ▸ knows.distinct⟩
    rw [same, knows.listed, List.mem_append, List.mem_singleton]
    exact ⟨.inl, fun either => either.elim id fun equal => equal ▸ member⟩
  | none =>
    have pushed : (step.run table).2.names.names.toList = table.names.names.toList ++ [step.name] := by
      rw [step.names_run, intern_new known, NameTable.toList_push]
    have absent := (NameTable.place?_eq_none_iff _ _).mp known
    refine ⟨fun name => ?_, ?_⟩
    · rw [pushed, List.mem_append, List.mem_append, knows.listed]
    · rw [pushed, ← List.concat_eq_append]
      exact knows.distinct.concat absent

theorem Knows.runFrom {names : List String} (knows : table.Knows names) (steps : List Step) :
    (runFrom table steps).Knows (names ++ steps.map Step.name) := by
  induction steps generalizing table names with
  | nil => rwa [List.map_nil, List.append_nil]
  | cons step rest ih =>
    have later := ih (knows.run step)
    rwa [List.append_assoc] at later

theorem knows_after (steps : List Step) : (after steps).Knows (namesOf steps) := by
  have start : empty.Knows [Block.unnamedName] := by
    constructor <;> simp [empty, NameTable.empty, NameTable.push]
  exact start.runFrom steps

theorem find?_eq_none_iff : (after steps).find? name = none ↔ name ∉ namesOf steps := by
  rw [find?, Option.map_eq_none_iff, NameTable.place?_eq_none_iff, (knows_after steps).listed]

theorem size_after (steps : List Step) : (after steps).names.size = nameCount steps := by
  have knows := knows_after steps
  have same : (after steps).names.names.toList.Perm (namesOf steps).dedup :=
    (List.perm_ext_iff_of_nodup knows.distinct (List.nodup_dedup _)).mpr fun name => by
      rw [knows.listed, List.mem_dedup]
  rw [nameCount, ← same.length_eq, NameTable.size, Array.length_toList]

theorem nameCount_le_append (steps more : List Step) : nameCount steps ≤ nameCount (steps ++ more) := by
  refine (List.subperm_of_subset (List.nodup_dedup _) fun name used => ?_).length_le
  rw [List.mem_dedup, namesOf, List.mem_cons] at used ⊢
  exact used.imp_right fun asked => by
    rw [List.map_append]
    exact List.mem_append_left _ asked

/-- As long as places fit into handles, a handle leads back to its name. -/
theorem name_of_find? (few : table.names.size ≤ 65536) (found : table.find? name = some block) :
    table.name block = name := by
  obtain ⟨place, known, rfl⟩ := Option.map_eq_some_iff.mp found
  have named := NameTable.name?_eq_some_of_place? known
  obtain ⟨inside, _⟩ := Array.getElem?_eq_some_iff.mp named
  have fits : (UInt16.ofNat place).toNat = place :=
    UInt16.toNat_ofNat_of_lt' (Nat.lt_of_lt_of_le inside few)
  rw [BlockTable.name, fits, named, Option.getD_some]

theorem find?_inj (few : table.names.size ≤ 65536) (found : table.find? name = some block)
    (foundToo : table.find? other = some block) : name = other :=
  (name_of_find? few found).symm.trans (name_of_find? few foundToo)

/-- Of more names than there are handles, the first that has none left gets the handle of
codepoints outside every block. -/
theorem exists_aliased (many : 65536 < nameCount steps) : ∃ name ∈ steps.map Step.name,
    name ≠ Block.unnamedName ∧ (after steps).find? name = some .unnamed := by
  have knows := knows_after steps
  rw [← size_after, NameTable.size, ← Array.length_toList] at many
  have place : (after steps).names.place? (after steps).names.names.toList[65536] = some 65536 := by
    rw [NameTable.place?_eq, List.idxOf?_eq_some_iff]
    refine ⟨many, rfl, fun earlier before same => ?_⟩
    have twice := (List.getElem_inj knows.distinct).mp same
    omega
  have different : (after steps).names.names.toList[65536] ≠ Block.unnamedName := by
    intro same
    rw [same, place?_after_unnamed] at place
    contradiction
  have listed := (knows.listed _).mp (List.getElem_mem many)
  refine ⟨_, (List.mem_cons.mp listed).resolve_left different, different, ?_⟩
  rw [find?, place]
  rfl

theorem insertions_concat_intern (steps : List Step) (name : String) :
    insertions (steps ++ [.intern name]) = insertions steps := by
  simp [insertions, Step.line?]

theorem insertions_concat_insert (steps : List Step) (range : CodepointRange) (name : String) :
    insertions (steps ++ [.insert range name]) = insertions steps ++ [(range, name)] := by
  simp [insertions, Step.line?]

theorem exists_find?_of_mem_insertions {line : CodepointRange × String}
    (inserted : line ∈ insertions steps) : ∃ block, (after steps).find? line.2 = some block := by
  obtain ⟨step, member, own⟩ := List.mem_filterMap.mp inserted
  have asked : line.2 ∈ steps.map Step.name := by
    refine List.mem_map.mpr ⟨step, member, ?_⟩
    cases step with
    | intern => contradiction
    | insert range name =>
      cases own
      rfl
  obtain ⟨block, answered⟩ := exists_answer asked
  have found := find?_of_mem_answers answered []
  rw [List.append_nil] at found
  exact ⟨block, found⟩

/-- The range of a line with the handle of its name. -/
def assigned (table : BlockTable) (line : CodepointRange × String) : CodepointRange × Block :=
  (line.1, (table.find? line.2).getD .unnamed)

/-- Further steps leave the handles of earlier lines as they are. -/
theorem map_assigned_concat (steps : List Step) (step : Step) :
    (insertions steps).map (after (steps ++ [step])).assigned =
      (insertions steps).map (after steps).assigned := by
  refine List.map_congr_left fun line inserted => ?_
  obtain ⟨block, found⟩ := exists_find?_of_mem_insertions inserted
  rw [assigned, assigned, found, after_append, find?_runFrom found [step]]

/-- The ranges of a table are those of the lines, with the handles of their names. -/
theorem ranges_after (steps : List Step) : (after steps).ranges =
    RangeTable.ofInsertions ((insertions steps).map (after steps).assigned) := by
  induction steps using List.reverseRecOn with
  | nil => rfl
  | append_singleton steps step ih =>
    have ran : after (steps ++ [step]) = (step.run (after steps)).2 := after_append steps [step]
    cases step with
    | intern name =>
      rw [insertions_concat_intern, map_assigned_concat, ← ih, ran]
      exact ranges_intern _ name
    | insert range name =>
      have found := Step.find?_run_self (.insert range name) (after steps)
      have own : (after (steps ++ [.insert range name])).assigned (range, name) =
          (range, ((after steps).intern name).1) := by
        rw [assigned, ran]
        exact congrArg (fun found : Option Block => (range, found.getD .unnamed)) found
      rw [insertions_concat_insert, List.map_append, map_assigned_concat, List.map_singleton, own,
        RangeTable.ofInsertions_concat, ← ih, ran, ← ranges_intern (after steps) name]
      rfl

/-- A codepoint has the handle of the name of an inserted line, or that outside every block. -/
theorem gives_blockOf (steps : List Step) (u : Nat) : (after steps).Gives ((after steps).blockOf u) := by
  rw [blockOf]
  cases found : (after steps).ranges.find? u with
  | none => exact ⟨_, find?_after_unnamed steps⟩
  | some block =>
    have arranged := RangeTable.arranges_ofInsertions ((insertions steps).map (after steps).assigned)
    rw [ranges_after, arranged.find?_iff] at found
    obtain ⟨place, range, consulted, _⟩ := found
    have member := List.mem_reverse.mp (List.mem_of_getElem? consulted.here)
    obtain ⟨line, inserted, same⟩ := List.mem_map.mp member
    obtain ⟨own, known⟩ := exists_find?_of_mem_insertions inserted
    refine ⟨line.2, ?_⟩
    rw [assigned, known] at same
    rw [known, Option.getD_some, ← (Prod.mk.inj same).2]
    rfl

theorem name_eq_iff (few : table.names.size ≤ 65536) {one another : Block} (first : table.Gives one)
    (second : table.Gives another) : table.name one = table.name another ↔ one = another := by
  obtain ⟨name, found⟩ := first
  obtain ⟨other, foundToo⟩ := second
  rw [name_of_find? few found, name_of_find? few foundToo]
  constructor
  · rintro rfl
    exact Option.some.inj (found.symm.trans foundToo)
  · rintro rfl
    exact find?_inj few found foundToo

theorem consNamed_eq (few : table.names.size ≤ 65536) (codepoint : Nat) (category : Category)
    (given : table.Gives block) {runs : List Run} (givenAll : ∀ run ∈ runs, table.Gives run.block) :
    Run.consNamed table codepoint category block runs = Run.cons codepoint category block runs := by
  cases runs with
  | nil => rfl
  | cons run rest =>
    simp only [Run.consNamed, Run.cons, name_eq_iff few given (givenAll run List.mem_cons_self)]

theorem gives_cons (codepoint : Nat) (category : Category) (given : table.Gives block)
    {runs : List Run} (givenAll : ∀ run ∈ runs, table.Gives run.block) :
    ∀ run ∈ Run.cons codepoint category block runs, table.Gives run.block := by
  cases runs with
  | nil =>
    intro run member
    obtain rfl := List.mem_singleton.mp member
    exact given
  | cons first rest =>
    obtain ⟨own, others⟩ := List.forall_mem_cons.mp givenAll
    rw [Run.cons]
    split
    · exact List.forall_mem_cons.mpr ⟨own, others⟩
    · exact List.forall_mem_cons.mpr ⟨given, givenAll⟩

theorem ofEntriesNamed_eq (few : table.names.size ≤ 65536) {entries : List (Nat × Category × Block)}
    (given : ∀ entry ∈ entries, table.Gives entry.2.2) :
    Run.ofEntriesNamed table entries = Run.ofEntries entries ∧
      ∀ run ∈ Run.ofEntries entries, table.Gives run.block := by
  induction entries with
  | nil => exact ⟨rfl, by simp [Run.ofEntries]⟩
  | cons entry rest ih =>
    obtain ⟨codepoint, category, block⟩ := entry
    obtain ⟨own, others⟩ := List.forall_mem_cons.mp given
    obtain ⟨same, givenAll⟩ := ih others
    have step : Run.ofEntries ((codepoint, category, block) :: rest) =
      if category.isOther then Run.ofEntries rest
      else Run.cons codepoint category block (Run.ofEntries rest) := rfl
    have namedStep : Run.ofEntriesNamed table ((codepoint, category, block) :: rest) =
      if category.isOther then Run.ofEntriesNamed table rest
      else Run.consNamed table codepoint category block (Run.ofEntriesNamed table rest) := rfl
    rw [step, namedStep, same, consNamed_eq few codepoint category own givenAll]
    split
    · exact ⟨rfl, givenAll⟩
    · exact ⟨rfl, gives_cons codepoint category own givenAll⟩

theorem faithful_of_few (few : nameCount steps ≤ 65536) : Faithful steps := by
  have small : (after steps).names.size ≤ 65536 := size_after steps ▸ few
  have found : ∀ answer ∈ answers steps, (after steps).find? answer.1 = some answer.2 := by
    intro answer answered
    have kept := find?_of_mem_answers answered []
    rwa [List.append_nil] at kept
  constructor
  · intro one first other second
    have own := found one first
    have others := found other second
    constructor
    · intro same
      exact find?_inj small own (same ▸ others)
    · intro same
      rw [same, others] at own
      exact (Option.some.inj own).symm
  · intro answer answered
    have own := found answer answered
    constructor
    · intro same
      exact find?_inj small (same ▸ own) (find?_after_unnamed steps)
    · intro same
      rw [same, find?_after_unnamed] at own
      exact (Option.some.inj own).symm
  · rintro earlier later rfl answer answered
    have before : (after earlier).names.size ≤ 65536 :=
      size_after earlier ▸ Nat.le_trans (nameCount_le_append earlier later) few
    have own := find?_of_mem_answers answered []
    rw [List.append_nil] at own
    exact ⟨name_of_find? before own, name_of_find? small (find?_of_mem_answers answered later)⟩
  · rintro set same given
    rw [ClassifiedSet.namedRuns, ClassifiedSet.runs]
    exact (ofEntriesNamed_eq (same ▸ small) given).1
  · intro names u
    obtain ⟨name, own⟩ := gives_blockOf steps u
    rw [name_of_find? small own]
    constructor
    · rintro ⟨other, listed, foundToo⟩
      rwa [find?_inj small own foundToo]
    · intro listed
      exact ⟨name, listed, own⟩

theorem not_faithful_of_many (many : 65536 < nameCount steps) : ¬Faithful steps := by
  intro faithful
  obtain ⟨name, asked, different, found⟩ := exists_aliased many
  obtain ⟨block, answered⟩ := exists_answer asked
  have own := find?_of_mem_answers answered []
  rw [List.append_nil, found] at own
  exact different ((faithful.unnamed _ answered).mp (Option.some.inj own).symm)

/-- A text is read by inserting its data lines one after the other. -/
theorem ofText_eq (text : String) : ofText text =
    (DataFile.rows .plain text).map fun rows => after (rows.map Step.ofRow) := by
  simp only [ofText, after, runFrom, List.foldl_map]
  rfl

/-- Handles stand for names exactly as long as no more than 65536 names are in use, in what is
built step by step and so in what is read of a text. -/
theorem faithful_iff (steps : List Step) : (Faithful steps ↔ nameCount steps ≤ 65536) ∧
    ∀ text, ofText text =
      (DataFile.rows .plain text).map fun rows => after (rows.map Step.ofRow) := by
  refine ⟨⟨fun faithful => ?_, faithful_of_few⟩, ofText_eq⟩
  exact Nat.le_of_not_lt fun many => not_faithful_of_many many faithful

/-- As many blocks as there are handles, with numerals for names. -/
def crowdedSteps : List Step :=
  (List.range 65536).map fun place => .insert (.single place) (Text.hex 4 place)

theorem namesOf_crowdedSteps : namesOf crowdedSteps =
    Block.unnamedName :: (List.range 65536).map (Text.hex 4) := by
  rw [namesOf, crowdedSteps, List.map_map]
  rfl

theorem nodup_namesOf_crowdedSteps : (namesOf crowdedSteps).Nodup := by
  rw [namesOf_crowdedSteps]
  refine List.nodup_cons.mpr ⟨fun listed => ?_, List.nodup_range.map fun _ _ => Text.hex_injective⟩
  -- A numeral has no capital N.
  obtain ⟨place, _, same⟩ := List.mem_map.mp listed
  have first : 'N' ∈ (Text.hex 4 place).toList := same ▸ by decide
  obtain ⟨value, small, digit⟩ := Text.mem_hex first
  exact absurd digit.symm ((by decide : ∀ value < 16, Text.hexDigit value ≠ 'N') value small)

/-- With one name more than there are handles the last block has the handle of no block. -/
theorem not_faithful_crowdedSteps : ¬Faithful crowdedSteps := by
  apply not_faithful_of_many
  rw [nameCount, nodup_namesOf_crowdedSteps.dedup, namesOf_crowdedSteps, List.length_cons,
    List.length_map, List.length_range]
  decide

end BlockTable

end ShapingTables
