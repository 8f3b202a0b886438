import ShapingTables.Proofs.BlockHandles
import ShapingTables.Proofs.FaultOrder

/-! Blocks that are left out by name. A name that no data line of the block file gives is
refused, except for the name of codepoints outside every block, which the table has from the
start; what a list of known names leaves out are the codepoints whose block has a listed name. -/
namespace ShapingTables

open DataFile (Row)

/-- The files that give attributes and blocks can be read and have no faulty line. -/
def Source.WellFormed (source : Source) : Prop :=
  ∀ check ∈ source.fileChecks, ∀ fault, ¬check fault

/-- The data lines of the block file. -/
def Source.ListsBlocks (source : Source) (lines : List Row) : Prop :=
  ∃ text, source .blocks = .ok text ∧ DataFile.rows .plain text = .ok lines

/-- No data line gives the name, and codepoints outside every block do not have it either. -/
def Unlisted (lines : List Row) (name : String) : Prop :=
  name ≠ Block.unnamedName ∧ ∀ line ∈ lines, line.blockName ≠ name

instance (lines : List Row) (name : String) : Decidable (Unlisted lines name) :=
  inferInstanceAs (Decidable (_ ∧ _))

/-- A name is refused if it is not listed. -/
def Refusal (lines : List Row) (name : String) (fault : Fault) : Prop :=
  Unlisted lines name ∧ fault = .invalidConfig (.unlistedBlock name)

/-- What becomes of a list of names of blocks to be left out. Names stand for blocks where there
are no more of them than handles; without that, handles decide. -/
structure RecordSet.LeavesOut (source : Source) (names : List String) (lines : List Row)
    (rows : AttributeRows) : Prop where
  refused : (∃ reason, ofSource source names = .error (.invalidConfig reason)) ↔
    ∃ name ∈ names, Unlisted lines name
  first : ∀ fault, ofSource source names = .error fault ↔ FirstOf (names.map (Refusal lines)) fault
  handles : ∀ set, ofSource source names = .ok set → ∀ u,
    u ∈ set.records ↔ rows.Introduces u ∧ ¬set.blocks.Excludes names u
  missing : (Block.unnamedName :: lines.map Row.blockName).dedup.length ≤ 65536 →
    ∀ set, ofSource source names = .ok set → ∀ u,
      u ∈ set.records ↔ rows.Introduces u ∧ set.blocks.name (set.blocks.blockOf u) ∉ names

theorem Source.wellFormed_iff (source : Source) :
    source.WellFormed ↔ ∃ readings, Readings.ofSource source = .ok readings := by
  have fails := (Readings.ofSource_fails source).exists_iff
  have sound : source.WellFormed ↔ ¬∃ check ∈ source.fileChecks, ∃ fault, check fault := by
    simp [WellFormed]
  rw [sound, ← fails]
  cases Readings.ofSource source <;> simp

variable {source : Source} {readings : Readings} {names : List String}

/-- The block table of a source is that of its data lines. -/
theorem Readings.exists_listsBlocks (read : ofSource source = .ok readings) :
    ∃ lines, source.ListsBlocks lines ∧
      readings.blocks = BlockTable.after (lines.map BlockTable.Step.ofRow) := by
  obtain ⟨_, _, _, text, given, made⟩ := ofSource_gives read
  rw [BlockTable.ofText_eq] at made
  cases listed : DataFile.rows .plain text with
  | error fault =>
    rw [listed] at made
    contradiction
  | ok lines =>
    rw [listed] at made
    exact ⟨lines, ⟨text, given, listed⟩, (Except.ok.inj made).symm⟩

theorem namesOf_ofRow (lines : List Row) : BlockTable.namesOf (lines.map BlockTable.Step.ofRow) =
    Block.unnamedName :: lines.map Row.blockName := by
  rw [BlockTable.namesOf, List.map_map]
  rfl

theorem unlisted_iff (lines : List Row) (name : String) :
    (BlockTable.after (lines.map BlockTable.Step.ofRow)).find? name = none ↔ Unlisted lines name := by
  rw [BlockTable.find?_eq_none_iff, namesOf_ofRow, Unlisted]
  simp

section

variable {lines : List Row} {rows : AttributeRows} {blocks : BlockTable} {blacklist : List String}

/-- Where there are no more names than handles a codepoint is excluded if its block has one of
the names. -/
theorem BlockTable.ReadFrom.excludes_iff (read : blocks.ReadFrom source)
    (listed : source.ListsBlocks lines)
    (few : (Block.unnamedName :: lines.map Row.blockName).dedup.length ≤ 65536)
    (names : List String) (u : Nat) :
    blocks.Excludes names u ↔ blocks.name (blocks.blockOf u) ∈ names := by
  obtain ⟨text, given, made⟩ := read
  obtain ⟨_, givenToo, listed⟩ := listed
  obtain rfl := Except.ok.inj (given.symm.trans givenToo)
  rw [ofText_eq, listed] at made
  cases made
  rw [← namesOf_ofRow] at few
  exact (faithful_of_few few).excluded names u

/-- The merged records of a source by the names of blocks. -/
theorem RecordSet.Merged.mem_named {set : RecordSet} (merged : set.Merged source blacklist rows)
    (listed : source.ListsBlocks lines)
    (few : (Block.unnamedName :: lines.map Row.blockName).dedup.length ≤ 65536) (u : Nat) :
    u ∈ set.records ↔
      rows.Introduces u ∧ set.blocks.name (set.blocks.blockOf u) ∉ blacklist := by
  rw [merged.mem, merged.blocks.excludes_iff listed few]

/-- The answers of a table by the names of blocks. -/
theorem DispatchTable.Answers.named {table : DispatchTable}
    (answers : table.Answers blacklist rows blocks) (read : blocks.ReadFrom source)
    (listed : source.ListsBlocks lines)
    (few : (Block.unnamedName :: lines.map Row.blockName).dedup.length ≤ 65536) (u : Nat) :
    (¬rows.Introduces u ∨ blocks.name (blocks.blockOf u) ∈ blacklist ∨ maxCodepoint < u →
      table.categoryOf u = .other) ∧
    (rows.Introduces u → blocks.name (blocks.blockOf u) ∉ blacklist → u ≤ maxCodepoint →
      Assigns (rows.attributesOf u) (table.categoryOf u)) := by
  rw [← read.excludes_iff listed few]
  exact ⟨answers.leftOut u, answers.assigned u⟩

end

/-- Once the files are read only the names can be refused. -/
theorem RecordSet.ofSource_eq_error_iff (read : Readings.ofSource source = .ok readings)
    (fault : Fault) :
    ofSource source names = .error fault ↔ readings.blacklisted names = .error fault := by
  rw [ofSource, read]
  change (readings.blacklisted names >>= _) = _ ↔ _
  cases readings.blacklisted names <;> simp [Bind.bind, Except.bind, Pure.pure, Except.pure]

theorem RecordSet.mem_of_ofSource {rows : AttributeRows} {set : RecordSet}
    (read : Readings.ofSource source = .ok readings) (given : rows.Gives readings)
    (built : ofSource source names = .ok set) : set.blocks = readings.blocks ∧
      ∀ u, u ∈ set.records ↔ rows.Introduces u ∧ ¬set.blocks.Excludes names u := by
  obtain ⟨others, blocks, readToo, found, rfl⟩ := ofSource_eq_ok built
  obtain rfl := Except.ok.inj (read.symm.trans readToo)
  refine ⟨rfl, fun u => ?_⟩
  rw [Std.TreeMap.mem_iff_isSome_getElem?, Option.isSome_iff_exists]
  simp only [Readings.getElem?_records given found, exists_and_left, exists_eq, and_true]

/-- A list of names is refused exactly if one of them is not listed, and the first such name is
reported. Else the introduced codepoints whose block has a name of the list get no record. -/
theorem RecordSet.ofSource_leavesOut (source : Source) (sound : source.WellFormed)
    (names : List String) : ∃ lines rows, source.ListsBlocks lines ∧ rows.ReadFrom source ∧
      LeavesOut source names lines rows := by
  obtain ⟨readings, read⟩ := source.wellFormed_iff.mp sound
  obtain ⟨lines, listed, made⟩ := Readings.exists_listsBlocks read
  obtain ⟨rows, own, given, blocksRead⟩ := Readings.ofSource_gives read
  have first : ∀ fault, ofSource source names = .error fault ↔
      FirstOf (names.map (Refusal lines)) fault := by
    intro fault
    have fails := Readings.blacklisted_fails_each readings names fault
    simp only [made, unlisted_iff] at fails
    exact (ofSource_eq_error_iff read fault).trans fails
  have refused : (∃ reason, ofSource source names = .error (.invalidConfig reason)) ↔
      ∃ name ∈ names, Unlisted lines name := by
    constructor
    · rintro ⟨reason, wrong⟩
      obtain ⟨name, listed, unlisted, _⟩ := exists_of_firstOf_map ((first _).mp wrong)
      exact ⟨name, listed, unlisted⟩
    · rintro ⟨name, listed, unlisted⟩
      obtain ⟨fault, found⟩ := (exists_firstOf_iff (names.map (Refusal lines))).mpr
        ⟨_, List.mem_map_of_mem listed, _, unlisted, rfl⟩
      obtain ⟨refused, _, _, rfl⟩ := exists_of_firstOf_map found
      exact ⟨_, (first _).mpr found⟩
  refine ⟨lines, rows, listed, own, refused, first, fun set built => ?_, fun few set built => ?_⟩
  · exact (mem_of_ofSource read given built).2
  · intro u
    obtain ⟨same, mem⟩ := mem_of_ofSource read given built
    rw [mem, same, blocksRead.excludes_iff listed few]

/-- The data lines of the block file among the few lines. -/
def fewBlockRows : List Row :=
  [⟨1, ⟨0x0900, 0x097F⟩, ["Devanagari"]⟩, ⟨2, ⟨0x0E00, 0x0E7F⟩, ["Thai"]⟩]

theorem rows_fewBlocks : Source.fewLines.ListsBlocks fewBlockRows :=
  ⟨"0900..097F; Devanagari\n0E00..0E7F; Thai\n", rfl, rfl⟩

theorem Source.ListsBlocks.unique {lines others : List Row} (first : source.ListsBlocks lines)
    (second : source.ListsBlocks others) : lines = others := by
  obtain ⟨text, given, listed⟩ := first
  obtain ⟨_, givenToo, listedToo⟩ := second
  obtain rfl := Except.ok.inj (given.symm.trans givenToo)
  exact Except.ok.inj (listed.symm.trans listedToo)

theorem wellFormed_fewLines : Source.fewLines.WellFormed := by
  obtain ⟨readings, read, _⟩ : ∃ readings, Readings.ofSource .fewLines = .ok readings ∧
      true = true := exists_of_any (by decide +kernel)
  exact (Source.wellFormed_iff _).mpr ⟨readings, read⟩

/-- A misspelt name is refused, and behind it nothing is. -/
theorem RecordSet.ofSource_leavesOut_fewLines : Source.fewLines.WellFormed ∧
    ofSource .fewLines ["Thai", "Thia", "Lao"] =
      .error (.invalidConfig (.unlistedBlock "Thia")) ∧
    ∃ lines rows, Source.fewLines.ListsBlocks lines ∧ rows.ReadFrom .fewLines ∧
      LeavesOut .fewLines ["Thai", "Thia", "Lao"] lines rows := by
  obtain ⟨lines, rows, listed, read, leaves⟩ :=
    ofSource_leavesOut .fewLines wellFormed_fewLines ["Thai", "Thia", "Lao"]
  obtain rfl := rows_fewBlocks.unique listed
  refine ⟨wellFormed_fewLines, (leaves.first _).mpr ?_, _, _, listed, read, leaves⟩
  have thai : ¬Unlisted fewBlockRows "Thai" := by decide
  have thia : Unlisted fewBlockRows "Thia" := by decide
  exact ⟨[Refusal fewBlockRows "Thai"], Refusal fewBlockRows "Thia", [Refusal fewBlockRows "Lao"],
    rfl, List.forall_mem_singleton.mpr fun _ refused => thai refused.1, thia, rfl⟩

/-- Nothing lists the name of codepoints outside every block, but it can be left out. -/
theorem RecordSet.ofSource_unnamedBlock : Source.fewLines.ListsBlocks fewBlockRows ∧
    (∀ line ∈ fewBlockRows, line.blockName ≠ Block.unnamedName) ∧
    ∃ set, ofSource .fewLines [Block.unnamedName] = .ok set ∧
      set.blocks.name (set.blocks.blockOf 0x0640) = Block.unnamedName ∧ 0x0640 ∉ set.records := by
  obtain ⟨set, built, dropped⟩ : ∃ set, ofSource .fewLines [Block.unnamedName] = .ok set ∧
      decide (set.blocks.name (set.blocks.blockOf 0x0640) = Block.unnamedName ∧
        0x0640 ∉ set.records) = true := exists_of_any (by decide +kernel)
  obtain ⟨outside, absent⟩ := of_decide_eq_true dropped
  exact ⟨rows_fewBlocks, by decide, set, built, outside, absent⟩

end ShapingTables
