import Mathlib.Data.List.Nodup
import ShapingTables.Build
import ShapingTables.Proofs.Lookup
import ShapingTables.Proofs.MergedRecords

/-! From the data files to the category of a codepoint. The merged attributes of the
codepoint alone decide its category: neither the layout of the table nor a line that
covers other codepoints changes it. -/
namespace ShapingTables

open DataFile (Row covering lastValue?)

/-- One role alone holds after the syllabic corrections, and the category has its
position after the positional corrections. -/
structure Assigns (attributes : Attributes) (category : Category) : Prop where
  role : ∀ role, Role.holds (Correction.beforeRole attributes) role = true ↔ role = category.role
  position : Position.resolve category.role
    (Correction.afterRole (Correction.beforeRole attributes)) = .ok category.position

theorem Assigns.unique {attributes : Attributes} {one other : Category}
    (first : Assigns attributes one) (second : Assigns attributes other) : one = other := by
  have sameRole : one.role = other.role := (second.role _).mp ((first.role _).mpr rfl)
  have samePosition := first.position.symm.trans (sameRole ▸ second.position)
  cases one
  cases other
  simp_all

theorem Role.holds_iff_of_resolve {attributes : Attributes} {role : Role}
    (resolved : resolve attributes = .ok role) (candidate : Role) :
    holds attributes candidate = true ↔ candidate = role := by
  rw [resolve] at resolved
  split at resolved
  · rename_i only matched
    cases resolved
    have member : candidate ∈ matching all attributes ↔ candidate = role := by simp [matched]
    rw [matching, List.mem_filter] at member
    simpa [mem_all candidate] using member
  · contradiction

theorem assigns_of_classify {attributes : Attributes} {category : Category}
    (classified : classify attributes = .ok category) : Assigns attributes category := by
  rw [classify] at classified
  split at classified
  · contradiction
  · rename_i role resolved
    split at classified
    · contradiction
    · rename_i position placed
      cases classified
      exact ⟨Role.holds_iff_of_resolve resolved, placed⟩

namespace ClassifiedSet

/-- Classifies one record and enters its category. -/
def enter (entries : CodepointMap (Category × Block)) (entry : Nat × Record) :
    Except Fault (CodepointMap (Category × Block)) :=
  (classify entry.2.toAttributes).map fun category =>
    entries.insert entry.1 (category, entry.2.block)

theorem enter_eq_ok {entries last : CodepointMap (Category × Block)} {entry : Nat × Record}
    (entered : enter entries entry = .ok last) :
    ∃ category, classify entry.2.toAttributes = .ok category ∧
      last = entries.insert entry.1 (category, entry.2.block) := by
  rw [enter] at entered
  cases classified : classify entry.2.toAttributes with
  | error fault =>
    rw [classified] at entered
    contradiction
  | ok category =>
    rw [classified] at entered
    cases entered
    exact ⟨category, rfl, rfl⟩

/-- Entering records changes nothing for codepoints that are not among them. -/
theorem getElem?_enter_absent {records : List (Nat × Record)}
    {start last : CodepointMap (Category × Block)} (folded : records.foldlM enter start = .ok last)
    {u : Nat} (absent : u ∉ records.map (·.1)) : last[u]? = start[u]? := by
  induction records generalizing start with
  | nil =>
    cases folded
    rfl
  | cons entry rest ih =>
    rw [List.foldlM_cons] at folded
    obtain ⟨next, entered, folded⟩ := bind_eq_ok folded
    obtain ⟨category, _, rfl⟩ := enter_eq_ok entered
    simp only [List.map_cons, List.mem_cons, not_or] at absent
    rw [ih folded absent.2, Std.TreeMap.getElem?_insert]
    simp [Ne.symm absent.1]

theorem getElem?_enter {records : List (Nat × Record)}
    {start last : CodepointMap (Category × Block)} (folded : records.foldlM enter start = .ok last)
    (distinct : (records.map (·.1)).Nodup) {u : Nat} {record : Record}
    (member : (u, record) ∈ records) :
    ∃ category, classify record.toAttributes = .ok category ∧
      last[u]? = some (category, record.block) := by
  induction records generalizing start with
  | nil => contradiction
  | cons entry rest ih =>
    rw [List.foldlM_cons] at folded
    obtain ⟨next, entered, folded⟩ := bind_eq_ok folded
    obtain ⟨fresh, distinct⟩ := List.nodup_cons.mp distinct
    rcases List.mem_cons.mp member with rfl | later
    · obtain ⟨category, classified, rfl⟩ := enter_eq_ok entered
      refine ⟨category, classified, ?_⟩
      rw [getElem?_enter_absent folded fresh, Std.TreeMap.getElem?_insert_self]
    · exact ih folded distinct later

/-- The entries are the records, each with the category that its attributes assign. -/
theorem ofRecords_entries {records : RecordSet} {set : ClassifiedSet}
    (classified : ofRecords records = .ok set) (u : Nat) :
    (∀ record, records.records[u]? = some record → ∃ category,
      classify record.toAttributes = .ok category ∧
        set.entries[u]? = some (category, record.block)) ∧
    (records.records[u]? = none → set.entries[u]? = none) := by
  obtain ⟨entries, folded, made⟩ := bind_eq_ok classified
  cases made
  change records.records.toList.foldlM enter ∅ = .ok entries at folded
  constructor
  · intro record stored
    apply getElem?_enter folded
    · rw [Std.TreeMap.map_fst_toList_eq_keys]
      exact Std.TreeMap.nodup_keys
    · exact Std.TreeMap.mem_toList_iff_getElem?_eq_some.mpr stored
  · intro missing
    have absent : u ∉ records.records.toList.map (·.1) := by
      rw [Std.TreeMap.map_fst_toList_eq_keys, Std.TreeMap.mem_keys]
      simp [Std.TreeMap.mem_iff_isSome_getElem?, missing]
    rw [getElem?_enter_absent folded absent]
    simp

end ClassifiedSet

theorem Source.Lists.unique {source : Source} {file : SourceFile} {format : DataFile.Format}
    {index : Nat} {valueOf? : String → Option α} {rows others : List Row}
    (first : source.Lists file format index valueOf? rows)
    (second : source.Lists file format index valueOf? others) : rows = others := by
  obtain ⟨text, given, listed, _⟩ := first
  obtain ⟨_, again, listedAgain, _⟩ := second
  cases given.symm.trans again
  exact Except.ok.inj (listed.symm.trans listedAgain)

theorem Source.Lists.bound {source : Source} {file : SourceFile} {format : DataFile.Format}
    {index : Nat} {valueOf? : String → Option α} {rows : List Row}
    (lists : source.Lists file format index valueOf? rows) {row : Row} (member : row ∈ rows)
    {u : Nat} (held : row.range.contains u = true) : u ≤ maxCodepoint := by
  obtain ⟨text, _, listed, _⟩ := lists
  have bounds := DataFile.range_of_rows listed member
  exact Nat.le_trans (CodepointRange.contains_iff.mp held).2 bounds.2

theorem BlockTable.ReadFrom.unique {blocks others : BlockTable} {source : Source}
    (first : blocks.ReadFrom source) (second : others.ReadFrom source) : blocks = others := by
  obtain ⟨text, given, parsed⟩ := first
  obtain ⟨_, again, parsedAgain⟩ := second
  cases given.symm.trans again
  exact Except.ok.inj (parsed.symm.trans parsedAgain)

theorem Readings.syllabicOverrides_bound : ∀ entry ∈ syllabicOverrides,
    entry.1.last ≤ maxCodepoint := by
  decide

namespace DataFile

/-- The lines that cover the codepoint hold the same fields in both lists. -/
def SameAt (u : Nat) (rows others : List Row) : Prop :=
  (covering u rows).map (·.fields) = (covering u others).map (·.fields)

variable {u : Nat} {rows others : List Row}

theorem SameAt.covers_iff (same : SameAt u rows others) :
    (∃ row ∈ rows, row.range.contains u = true) ↔
      ∃ row ∈ others, row.range.contains u = true := by
  have lengths := congrArg List.length same
  simp only [List.length_map] at lengths
  have present : ∀ lines : List Row, (∃ row ∈ lines, row.range.contains u = true) ↔
      0 < (covering u lines).length := by
    intro lines
    simp [List.length_pos_iff_exists_mem, covering]
  rw [present, present, lengths]

theorem SameAt.lastValue?_eq (same : SameAt u rows others) (index : Nat)
    (valueOf? : String → Option α) :
    lastValue? index valueOf? rows u = lastValue? index valueOf? others u := by
  have last := congrArg List.getLast? same
  simp only [List.getLast?_map] at last
  have byFields : ∀ lines : List Row, lastValue? index valueOf? lines u =
      ((covering u lines).getLast?.map (·.fields)).bind fun fields =>
        Row.value? index valueOf? ⟨0, ⟨0, 0⟩, fields⟩ := by
    intro lines
    rw [lastValue?, Option.bind_map]
    rfl
  rw [byFields, byFields, last]

end DataFile

namespace AttributeRows

variable {rows others : AttributeRows} {source : Source} {u : Nat}

theorem ReadFrom.unique (first : rows.ReadFrom source) (second : others.ReadFrom source) :
    rows = others := by
  have syllabic := first.syllabic.unique second.syllabic
  have syllabicOverlay := first.syllabicOverlay.unique second.syllabicOverlay
  have positional := first.positional.unique second.positional
  have positionalOverlay := first.positionalOverlay.unique second.positionalOverlay
  have general := first.general.unique second.general
  have joining := first.joining.unique second.joining
  cases rows
  cases others
  simp_all

/-- Every introduced codepoint lies in the codespace. -/
theorem ReadFrom.bound (lines : rows.ReadFrom source) (introduced : rows.Introduces u) :
    u ≤ maxCodepoint := by
  rcases introduced with ⟨entry, member, held⟩ | ⟨row, member, held⟩
  · exact Nat.le_trans (CodepointRange.contains_iff.mp held).2
      (Readings.syllabicOverrides_bound entry member)
  · simp only [List.mem_append] at member
    rcases member with ((member | member) | member) | member
    · exact lines.syllabic.bound member held
    · exact lines.syllabicOverlay.bound member held
    · exact lines.positional.bound member held
    · exact lines.positionalOverlay.bound member held

/-- The lines of every file that cover the codepoint hold the same fields. -/
structure AgreeAt (rows others : AttributeRows) (u : Nat) : Prop where
  syllabic : DataFile.SameAt u rows.syllabic others.syllabic
  syllabicOverlay : DataFile.SameAt u rows.syllabicOverlay others.syllabicOverlay
  positional : DataFile.SameAt u rows.positional others.positional
  positionalOverlay : DataFile.SameAt u rows.positionalOverlay others.positionalOverlay
  general : DataFile.SameAt u rows.general others.general
  joining : DataFile.SameAt u rows.joining others.joining

theorem AgreeAt.refl (rows : AttributeRows) (u : Nat) : rows.AgreeAt rows u :=
  ⟨rfl, rfl, rfl, rfl, rfl, rfl⟩

theorem AgreeAt.introduces_iff (agree : rows.AgreeAt others u) :
    rows.Introduces u ↔ others.Introduces u := by
  simp only [Introduces, List.mem_append, or_and_right, exists_or, agree.syllabic.covers_iff,
    agree.syllabicOverlay.covers_iff, agree.positional.covers_iff,
    agree.positionalOverlay.covers_iff]

theorem AgreeAt.attributesOf_eq (agree : rows.AgreeAt others u) :
    rows.attributesOf u = others.attributesOf u := by
  simp only [attributesOf, agree.syllabic.lastValue?_eq, agree.syllabicOverlay.lastValue?_eq,
    agree.positional.lastValue?_eq, agree.positionalOverlay.lastValue?_eq,
    agree.general.lastValue?_eq, agree.joining.lastValue?_eq]

end AttributeRows

namespace DispatchTable

/-- The answers of a table in terms of rows and blocks. -/
structure Answers (table : DispatchTable) (blacklist : List String) (rows : AttributeRows)
    (blocks : BlockTable) : Prop where
  leftOut : ∀ u, ¬rows.Introduces u ∨ blocks.Excludes blacklist u ∨ maxCodepoint < u →
    table.categoryOf u = .other
  assigned : ∀ u, rows.Introduces u → ¬blocks.Excludes blacklist u → u ≤ maxCodepoint →
    Assigns (rows.attributesOf u) (table.categoryOf u)

/-- Two tables answer alike where their rows and their excluded blocks agree. -/
theorem Answers.categoryOf_eq {table other : DispatchTable} {blacklist names : List String}
    {rows others : AttributeRows} {blocks otherBlocks : BlockTable}
    (first : table.Answers blacklist rows blocks) (second : other.Answers names others otherBlocks)
    {u : Nat} (agree : rows.AgreeAt others u)
    (excluded : blocks.Excludes blacklist u ↔ otherBlocks.Excludes names u) :
    other.categoryOf u = table.categoryOf u := by
  by_cases listed : rows.Introduces u ∧ ¬blocks.Excludes blacklist u ∧ u ≤ maxCodepoint
  · obtain ⟨introduced, kept, bound⟩ := listed
    have one := first.assigned u introduced kept bound
    have two := second.assigned u (agree.introduces_iff.mp introduced)
      (fun out => kept (excluded.mpr out)) bound
    rw [← agree.attributesOf_eq] at two
    exact two.unique one
  · have out : ¬rows.Introduces u ∨ blocks.Excludes blacklist u ∨ maxCodepoint < u := by
      by_contra kept
      simp only [not_or, not_not, Nat.not_lt] at kept
      exact listed kept
    rw [first.leftOut u out]
    rw [agree.introduces_iff, excluded] at out
    exact second.leftOut u out

theorem exists_answers {source : Source} {config : Config} {table : DispatchTable}
    (built : ofSource source config = .ok table) :
    ∃ rows blocks, rows.ReadFrom source ∧ blocks.ReadFrom source ∧
      table.Answers config.blacklistedBlocks rows blocks := by
  rw [ofSource] at built
  obtain ⟨records, read, built⟩ := bind_eq_ok built
  obtain ⟨set, classified, packed⟩ := bind_eq_ok built
  obtain ⟨readings, blocks, readReadings, found, rfl⟩ := RecordSet.ofSource_eq_ok read
  obtain ⟨rows, lines, given, blocksRead⟩ := Readings.ofSource_gives readReadings
  obtain ⟨valid, rfl⟩ := ofSet_eq_ok packed
  have entries := ClassifiedSet.ofRecords_entries classified
  have recorded := Readings.getElem?_records given found
  -- Without a record there is no entry, so the entries lie in the codespace like the rows.
  have missing : ∀ u, ¬(rows.Introduces u ∧
      ¬readings.blocks.Excludes config.blacklistedBlocks u) → set.entries[u]? = none := by
    intro u out
    apply (entries u).2
    apply Option.eq_none_iff_forall_ne_some.mpr
    intro record stored
    exact out ((recorded u record).mp stored).1
  have inside : set.InCodespace := by
    intro u member
    by_contra beyond
    have out := missing u fun kept => beyond (lines.bound kept.1)
    rw [Std.TreeMap.mem_iff_isSome_getElem?, out] at member
    contradiction
  refine ⟨rows, readings.blocks, lines, blocksRead, ?_, ?_⟩
  · intro u out
    by_cases beyond : maxCodepoint < u
    · rw [categoryOf, if_pos beyond]
    · rw [categoryOf_pack inside valid (by omega), ClassifiedSet.categoryOf, missing u (by tauto)]
  · intro u introduced kept bound
    obtain ⟨category, assigned, stored⟩ :=
      (entries u).1 _ ((recorded u _).mpr ⟨⟨introduced, kept⟩, rfl⟩)
    rw [categoryOf_pack inside valid bound, ClassifiedSet.categoryOf, stored]
    exact assigns_of_classify assigned

/-- A table that is built of a source answers each codepoint from the lines that cover it
and the block that it lies in. Another layout answers alike, and so does the table of
another source for every codepoint of which both say the same. -/
theorem ofSource_answers (source : Source) (config : Config) (table : DispatchTable)
    (built : ofSource source config = .ok table) :
    ∃ rows blocks, rows.ReadFrom source ∧ blocks.ReadFrom source ∧
      table.Answers config.blacklistedBlocks rows blocks ∧
      (∀ layout other, ofSource source { config with layout } = .ok other →
        ∀ u, other.categoryOf u = table.categoryOf u) ∧
      ∀ otherSource otherConfig other others (otherBlocks : BlockTable),
        ofSource otherSource otherConfig = .ok other →
        others.ReadFrom otherSource → otherBlocks.ReadFrom otherSource →
        ∀ u, rows.AgreeAt others u → (blocks.Excludes config.blacklistedBlocks u ↔
          otherBlocks.Excludes otherConfig.blacklistedBlocks u) →
          other.categoryOf u = table.categoryOf u := by
  obtain ⟨rows, blocks, lines, blocksRead, answers⟩ := exists_answers built
  refine ⟨rows, blocks, lines, blocksRead, answers, ?_, ?_⟩
  · intro layout other otherBuilt u
    obtain ⟨_, _, otherLines, otherBlocksRead, otherAnswers⟩ := exists_answers otherBuilt
    cases lines.unique otherLines
    cases blocksRead.unique otherBlocksRead
    exact answers.categoryOf_eq otherAnswers (.refl rows u) Iff.rfl
  · intro otherSource otherConfig other others otherBlocks otherBuilt otherLines otherBlocksRead u
      agree excluded
    obtain ⟨_, _, found, foundBlocks, otherAnswers⟩ := exists_answers otherBuilt
    cases otherLines.unique found
    cases otherBlocksRead.unique foundBlocks
    exact answers.categoryOf_eq otherAnswers agree excluded

/-- The Thai block is left out, and nothing is filled in between the runs. -/
def fewLinesConfig : Config :=
  { Config.standard with blacklistedBlocks := ["Thai"], layout := ⟨1, 0, 12⟩ }

theorem ofSource_answers_fewLines : ∃ table rows blocks,
    ofSource .fewLines fewLinesConfig = .ok table ∧ rows.ReadFrom .fewLines ∧
      blocks.ReadFrom .fewLines ∧ table.Answers ["Thai"] rows blocks ∧
      table.categoryOf 0x0917 = ⟨.consonantFinalModifier, some .post⟩ ∧
      rows.Introduces 0x0917 ∧ ¬blocks.Excludes ["Thai"] 0x0917 := by
  obtain ⟨table, built, answered⟩ : ∃ table, ofSource .fewLines fewLinesConfig = .ok table ∧
      decide (table.categoryOf 0x0917 = ⟨.consonantFinalModifier, some .post⟩) = true :=
    exists_of_any (by decide +kernel)
  obtain ⟨rows, blocks, lines, blocksRead, answers, _⟩ := ofSource_answers _ _ _ built
  have category := of_decide_eq_true answered
  have listed : ¬(¬rows.Introduces 0x0917 ∨ blocks.Excludes ["Thai"] 0x0917 ∨
      maxCodepoint < 0x0917) := by
    intro out
    rw [answers.leftOut _ out] at category
    cases category
  simp only [not_or, not_not] at listed
  exact ⟨table, rows, blocks, built, lines, blocksRead, answers, category, listed.1, listed.2.1⟩

end DispatchTable

end ShapingTables
