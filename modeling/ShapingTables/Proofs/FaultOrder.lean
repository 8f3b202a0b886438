import ShapingTables.Proofs.CategoryOfSource
import ShapingTables.Proofs.FirstFault

/-! Which fault a build of the category table reports. Files come first, in the order in
which they are read, then the blocks that are left out, the categories, the layout, and
last how much of the table is in use. -/
namespace ShapingTables

variable {α : Type}

/-- What is wrong with a file: there is none, or one of its lines is faulty. -/
def Source.FileCheck (source : Source) (file : SourceFile) (format : DataFile.Format)
    (unknown? : List String → Option String) (fault : Fault) : Prop :=
  source file = .error fault ∨ ∃ text found, source file = .ok text ∧
    DataFile.FirstFaulty format unknown? text found ∧ fault = file.located found

theorem Source.read_fails {source : Source} {file : SourceFile} {format : DataFile.Format}
    {unknown? : List String → Option String} {parse : String → Except (Nat × LineFault) α}
    (reports : ∀ text fault, parse text = .error fault ↔
      DataFile.FirstFaulty format unknown? text fault) :
    Fails (source.read file parse) [source.FileCheck file format unknown?] := by
  apply Fails.of_check
  intro fault
  rw [read, FileCheck]
  cases given : source file with
  | error missing => simp
  | ok text =>
    simp only [reduceCtorEq, false_or, Except.ok.injEq, exists_and_left, exists_eq_left', ← reports]
    cases parse text <;> simp [Except.mapError, @eq_comm _ fault]

/-- The files in the order in which they are read, each with what is asked of its values. -/
def Source.fileChecks (source : Source) : List (Fault → Prop) := [
  source.FileCheck .syllabicCategory .plain (DataFile.unknownAt 0 SyllabicCategory.ofUcdName?),
  source.FileCheck .syllabicOverlay Readings.syllabicOverlayFormat
    (DataFile.unknownAt 0 Readings.syllabicOverlayValue?),
  source.FileCheck .positionalCategory .plain
    (DataFile.unknownAt 0 PositionalCategory.ofUcdName?),
  source.FileCheck .positionalOverlay .plain
    (DataFile.unknownAt 0 Readings.positionalOverlayValue?),
  source.FileCheck .unicodeData Readings.databaseFormat
    (DataFile.unknownAt 1 GeneralCategory.ofUcdName?),
  source.FileCheck .arabicShaping Readings.databaseFormat
    (DataFile.unknownAt 1 JoiningType.ofUcdName?),
  source.FileCheck .blocks .plain fun _ => none]

theorem Source.values_fails {source : Source} {file : SourceFile} {format : DataFile.Format}
    {place : Nat} {valueOf? : String → Option α} :
    Fails (source.read file (DataFile.values format (place + 1) valueOf?))
      [source.FileCheck file format (DataFile.unknownAt place valueOf?)] :=
  read_fails (DataFile.values_eq_error_iff format place valueOf?)

theorem Source.blocks_fails {source : Source} :
    Fails (source.read .blocks BlockTable.ofText)
      [source.FileCheck .blocks .plain fun _ => none] :=
  read_fails fun text => Fails.map (DataFile.rows_eq_error_iff .plain text) _

theorem Readings.ofSource_fails (source : Source) : Fails (ofSource source) source.fileChecks := by
  rw [ofSource]
  exact .bind Source.values_fails fun _ _ => .bind Source.values_fails fun _ _ =>
    .bind Source.values_fails fun _ _ => .bind Source.values_fails fun _ _ =>
    .bind Source.values_fails fun _ _ => .bind Source.values_fails fun _ _ =>
    .bind Source.blocks_fails fun _ _ => .ok _

/-- The first name to be left out that the block table does not know. -/
def Source.BlacklistCheck (source : Source) (names : List String) (fault : Fault) : Prop :=
  ∃ blocks : BlockTable, blocks.ReadFrom source ∧
    FirstOf (names.map fun name fault =>
      blocks.find? name = none ∧ fault = .invalidConfig (.unlistedBlock name)) fault

/-- The names are looked up one after the other. -/
theorem Readings.blacklisted_fails_each (readings : Readings) (names : List String) :
    Fails (readings.blacklisted names) (names.map fun name fault =>
      readings.blocks.find? name = none ∧ fault = .invalidConfig (.unlistedBlock name)) := by
  rw [blacklisted]
  refine .mapM (fun name fault => ?_) names
  cases readings.blocks.find? name <;> simp [@eq_comm _ fault]

theorem Readings.blacklisted_fails {source : Source} {readings : Readings}
    (read : ofSource source = .ok readings) (names : List String) :
    Fails (readings.blacklisted names) [source.BlacklistCheck names] := by
  obtain ⟨_, _, _, own⟩ := ofSource_gives read
  apply Fails.of_check
  intro fault
  refine (blacklisted_fails_each readings names fault).trans ⟨fun found => ⟨_, own, found⟩, ?_⟩
  rintro ⟨blocks, same, found⟩
  exact own.unique same ▸ found

/-- The codepoint is introduced and its block is not left out. -/
def AttributeRows.Keeps (rows : AttributeRows) (blocks : BlockTable) (names : List String)
    (u : Nat) : Prop :=
  rows.Introduces u ∧ ¬blocks.Excludes names u

/-- The lowest codepoint that is kept and cannot be classified. -/
def Source.ClassCheck (source : Source) (names : List String) (fault : Fault) : Prop :=
  ∃ (rows : AttributeRows) (blocks : BlockTable) (u : Nat), rows.ReadFrom source ∧
    blocks.ReadFrom source ∧ rows.Keeps blocks names u ∧
    classify (rows.attributesOf u) = .error fault ∧
    ∀ v < u, rows.Keeps blocks names v →
      ∃ category, classify (rows.attributesOf v) = .ok category

namespace ClassifiedSet

theorem enter_eq_error_iff (entries : CodepointMap (Category × Block)) (entry : Nat × Record)
    (fault : Fault) :
    enter entries entry = .error fault ↔ classify entry.2.toAttributes = .error fault := by
  rw [enter]
  cases classify entry.2.toAttributes <;> simp [Except.map]

/-- Entering ascending records fails at the lowest one that cannot be classified. -/
theorem foldlM_enter_eq_error_iff {records : List (Nat × Record)}
    (ascend : records.Pairwise fun one other => one.1 < other.1)
    (start : CodepointMap (Category × Block)) (fault : Fault) :
    records.foldlM enter start = .error fault ↔ ∃ entry ∈ records,
      classify entry.2.toAttributes = .error fault ∧ ∀ other ∈ records, other.1 < entry.1 →
        ∃ category, classify other.2.toAttributes = .ok category := by
  induction records generalizing start with
  | nil =>
    constructor
    · rintro ⟨⟩
    · rintro ⟨_, member, _⟩
      contradiction
  | cons first rest ih =>
    obtain ⟨least, ascend⟩ := List.pairwise_cons.mp ascend
    rw [List.foldlM_cons]
    cases entered : enter start first with
    | error found =>
      have rejected := (enter_eq_error_iff _ _ _).mp entered
      constructor
      · rintro ⟨⟩
        refine ⟨first, List.mem_cons_self, rejected, fun other member below => ?_⟩
        rcases List.mem_cons.mp member with rfl | later
        · exact absurd below (Nat.lt_irrefl _)
        · exact absurd below (Nat.lt_asymm (least other later))
      · rintro ⟨entry, member, wrong, lowest⟩
        rcases List.mem_cons.mp member with rfl | later
        · rw [rejected] at wrong
          rw [Except.error.inj wrong]
          rfl
        · obtain ⟨category, accepted⟩ := lowest first List.mem_cons_self (least entry later)
          rw [rejected] at accepted
          contradiction
    | ok next =>
      obtain ⟨category, accepted, _⟩ := enter_eq_ok entered
      refine (ih ascend next).trans ⟨?_, ?_⟩
      · rintro ⟨entry, member, wrong, lowest⟩
        refine ⟨entry, List.mem_cons_of_mem _ member, wrong, fun other origin below => ?_⟩
        rcases List.mem_cons.mp origin with rfl | later
        · exact ⟨category, accepted⟩
        · exact lowest other later below
      · rintro ⟨entry, member, wrong, lowest⟩
        rcases List.mem_cons.mp member with rfl | later
        · rw [accepted] at wrong
          contradiction
        · exact ⟨entry, later, wrong,
            fun other origin => lowest other (List.mem_cons_of_mem _ origin)⟩

theorem ofRecords_fails {source : Source} {names : List String} {records : RecordSet}
    (read : RecordSet.ofSource source names = .ok records) :
    Fails (ofRecords records) [source.ClassCheck names] := by
  obtain ⟨readings, blocks, readReadings, found, rfl⟩ := RecordSet.ofSource_eq_ok read
  obtain ⟨rows, lines, given, own⟩ := Readings.ofSource_gives readReadings
  have recorded := Readings.getElem?_records given found
  have listed : ∀ u record, (u, record) ∈ (readings.records blocks).toList ↔
      rows.Keeps readings.blocks names u ∧
        record = ⟨rows.attributesOf u, readings.blocks.blockOf u⟩ := by
    intro u record
    rw [Std.TreeMap.mem_toList_iff_getElem?_eq_some, recorded, AttributeRows.Keeps]
  have ascend : (readings.records blocks).toList.Pairwise fun one other => one.1 < other.1 :=
    (readings.records blocks).ordered_keys_toList.imp Nat.compare_eq_lt.mp
  have first : ∀ fault, ofRecords ⟨readings.records blocks, readings.blocks⟩ = .error fault ↔
      (readings.records blocks).toList.foldlM enter ∅ = .error fault := by
    intro fault
    change ((readings.records blocks).toList.foldlM enter ∅ >>= fun entries =>
      .ok (⟨entries, readings.blocks⟩ : ClassifiedSet)) = .error fault ↔ _
    cases (readings.records blocks).toList.foldlM enter ∅ <;> simp [Bind.bind, Except.bind]
  generalize (readings.records blocks).toList = entries at listed ascend first
  apply Fails.of_check
  intro fault
  rw [first, foldlM_enter_eq_error_iff ascend]
  constructor
  · rintro ⟨⟨u, record⟩, member, wrong, lowest⟩
    obtain ⟨kept, rfl⟩ := (listed u record).mp member
    refine ⟨rows, readings.blocks, u, lines, own, kept, wrong, fun v below keptToo => ?_⟩
    have member := (listed v ⟨rows.attributesOf v, readings.blocks.blockOf v⟩).mpr ⟨keptToo, rfl⟩
    simpa only using lowest _ member below
  · rintro ⟨others, otherBlocks, u, sameLines, sameBlocks, kept, wrong, lowest⟩
    obtain rfl := lines.unique sameLines
    obtain rfl := own.unique sameBlocks
    have member := (listed u ⟨rows.attributesOf u, readings.blocks.blockOf u⟩).mpr ⟨kept, rfl⟩
    refine ⟨_, member, wrong, ?_⟩
    rintro ⟨v, record⟩ member below
    obtain ⟨keptToo, rfl⟩ := (listed v record).mp member
    exact lowest v below keptToo

/-- The entries are the codepoints that are kept, each with its category and its block. -/
def OfSource (set : ClassifiedSet) (source : Source) (names : List String) : Prop :=
  ∃ rows : AttributeRows, rows.ReadFrom source ∧ set.blocks.ReadFrom source ∧
    ∀ u category block, set.entries[u]? = some (category, block) ↔
      rows.Keeps set.blocks names u ∧ classify (rows.attributesOf u) = .ok category ∧
        block = set.blocks.blockOf u

theorem ofRecords_ofSource {source : Source} {names : List String} {records : RecordSet}
    (read : RecordSet.ofSource source names = .ok records) {set : ClassifiedSet}
    (classified : ofRecords records = .ok set) : set.OfSource source names := by
  obtain ⟨readings, blocks, readReadings, found, rfl⟩ := RecordSet.ofSource_eq_ok read
  obtain ⟨rows, lines, given, own⟩ := Readings.ofSource_gives readReadings
  have recorded := Readings.getElem?_records given found
  have entries := ofRecords_entries classified
  have blocksSame : set.blocks = readings.blocks := by
    obtain ⟨_, _, made⟩ := bind_eq_ok classified
    cases made
    rfl
  refine ⟨rows, lines, blocksSame ▸ own, fun u category block => ?_⟩
  rw [blocksSame]
  constructor
  · intro stored
    cases kept : (readings.records blocks)[u]? with
    | none =>
      rw [(entries u).2 kept] at stored
      contradiction
    | some record =>
      obtain ⟨keeps, rfl⟩ := (recorded u record).mp kept
      obtain ⟨own, accepted, held⟩ := (entries u).1 _ kept
      rw [held] at stored
      cases stored
      exact ⟨keeps, accepted, rfl⟩
  · rintro ⟨keeps, accepted, rfl⟩
    obtain ⟨own, acceptedToo, held⟩ := (entries u).1 _ ((recorded u _).mpr ⟨keeps, rfl⟩)
    rw [held, Except.ok.inj (accepted.symm.trans acceptedToo)]

/-- The table of a source does not depend on how its entries came about. -/
theorem OfSource.pack_eq {set other : ClassifiedSet} {source : Source} {names : List String}
    (first : set.OfSource source names) (second : other.OfSource source names) (layout : Layout) :
    DispatchTable.pack set layout = DispatchTable.pack other layout := by
  obtain ⟨rows, lines, own, entries⟩ := first
  obtain ⟨others, otherLines, otherOwn, otherEntries⟩ := second
  obtain rfl := lines.unique otherLines
  have blocks : set.blocks = other.blocks := own.unique otherOwn
  have same : ∀ u : Nat, set.entries[u]? = other.entries[u]? := by
    intro u
    apply Option.ext
    rintro ⟨category, block⟩
    rw [entries, otherEntries, blocks]
  have categories : set.categoryOf = other.categoryOf := by
    funext u
    rw [categoryOf, categoryOf, same]
  have runs : set.runs = other.runs := by
    rw [ClassifiedSet.runs, ClassifiedSet.runs,
      (Std.TreeMap.Equiv.of_forall_constGet?_eq same).toList_eq]
  rw [DispatchTable.pack, DispatchTable.pack, categories, runs, blocks]

end ClassifiedSet

def Layout.Check (layout : Layout) (fault : Fault) : Prop :=
  ∃ wrong, layout.fault? = some wrong ∧ fault = .invalidConfig (.layout wrong)

/-- Fewer than half of the entries of the table are in use. -/
def Source.SparseCheck (source : Source) (names : List String) (layout : Layout) (fault : Fault) :
    Prop :=
  ∃ set : ClassifiedSet, set.OfSource source names ∧
    2 * (DispatchTable.pack set layout).used < (DispatchTable.pack set layout).total ∧
    fault = .sparseTable (DispatchTable.pack set layout).used
      (DispatchTable.pack set layout).total

namespace DispatchTable

theorem ofSet_fails {source : Source} {names : List String} {set : ClassifiedSet}
    (own : set.OfSource source names) (layout : Layout) :
    Fails (ofSet set layout) [layout.Check, source.SparseCheck names layout] := by
  intro fault
  have sparse : source.SparseCheck names layout fault ↔
      2 * (pack set layout).used < (pack set layout).total ∧
        fault = .sparseTable (pack set layout).used (pack set layout).total := by
    constructor
    · rintro ⟨other, same, few, rfl⟩
      rw [own.pack_eq same]
      exact ⟨few, rfl⟩
    · exact fun few => ⟨set, own, few⟩
  rw [firstOf_cons, firstOf_cons, sparse, ofSet]
  cases checked : layout.fault? with
  | some wrong => simp [Layout.Check, checked, @eq_comm _ fault]
  | none =>
    by_cases few : 2 * (pack set layout).used < (pack set layout).total
    · simp [Layout.Check, checked, few, firstOf_nil, @eq_comm _ fault]
    · simp [Layout.Check, checked, few, firstOf_nil]

/-- Everything that can be wrong with a build of the category table, in order. -/
def checks (source : Source) (config : Config) : List (Fault → Prop) :=
  source.fileChecks ++ [source.BlacklistCheck config.blacklistedBlocks,
    source.ClassCheck config.blacklistedBlocks, config.layout.Check,
    source.SparseCheck config.blacklistedBlocks config.layout]

/-- A build fails exactly where one of the checks finds a fault, and the fault it reports is
that of the first such check: no later one ever hides it. -/
theorem ofSource_firstFault (source : Source) (config : Config) :
    ((∃ fault, ofSource source config = .error fault) ↔
      ∃ check ∈ checks source config, ∃ fault, check fault) ∧
    ∀ fault, ofSource source config = .error fault ↔ FirstOf (checks source config) fault := by
  have records : Fails (RecordSet.ofSource source config.blacklistedBlocks)
      (source.fileChecks ++ ([source.BlacklistCheck config.blacklistedBlocks] ++ [])) :=
    (Readings.ofSource_fails source).bind fun readings read =>
      (Readings.blacklisted_fails read _).bind fun _ _ => .ok _
  have built : Fails (ofSource source config) ((source.fileChecks ++
      ([source.BlacklistCheck config.blacklistedBlocks] ++ [])) ++
      ([source.ClassCheck config.blacklistedBlocks] ++
        [config.layout.Check, source.SparseCheck config.blacklistedBlocks config.layout])) :=
    records.bind fun _ read => (ClassifiedSet.ofRecords_fails read).bind fun _ classified =>
      ofSet_fails (ClassifiedSet.ofRecords_ofSource read classified) config.layout
  rw [List.append_assoc] at built
  have fails : Fails (ofSource source config) (checks source config) := built
  exact ⟨fails.exists_iff, fails⟩

end DispatchTable

end ShapingTables
