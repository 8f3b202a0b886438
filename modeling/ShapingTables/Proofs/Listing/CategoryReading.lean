import ShapingTables.Proofs.Listing.CategoryText

/-! The generated category table against the table it was made from. Every number in
it is a word, the block names stay inside their comments, and the function that is
read from the text answers like the table. -/
namespace ShapingTables

theorem TableRow.labels_withLabels {labels : List (Nat × String)} {rows : List TableRow}
    {row : List String × TableRow} (member : row ∈ withLabels labels rows) :
    ∀ label ∈ row.1, label ∈ labels.map (·.2) := by
  induction rows generalizing labels with
  | nil => simp [withLabels] at member
  | cons first rest ih =>
    intro label held
    rcases List.mem_cons.mp member with rfl | member
    · obtain ⟨entry, origin, rfl⟩ := List.mem_map.mp held
      exact List.mem_map_of_mem (List.takeWhile_subset _ origin)
    · obtain ⟨entry, origin, rfl⟩ := List.mem_map.mp (ih member label held)
      exact List.mem_map_of_mem (List.dropWhile_subset _ origin)

theorem DispatchTable.names_blockStartsAfter (nameOf : Block → String) (previous : Block)
    (runs : List Run) {entry : Nat × String} (member : entry ∈ blockStartsAfter nameOf previous runs) :
    ∃ block, entry.2 = nameOf block := by
  induction runs generalizing previous with
  | nil => simp [blockStartsAfter] at member
  | cons run rest ih =>
    rw [blockStartsAfter] at member
    split at member
    · rcases List.mem_cons.mp member with rfl | member
      · exact ⟨run.block, rfl⟩
      · exact ih _ member
    · exact ih _ member

theorem BlockTable.name_cases (table : BlockTable) (block : Block) :
    table.name block ∈ table.names.names.toList ∨ table.name block = Block.unnamedName := by
  rw [name, NameTable.name?]
  cases found : table.names.names[block.id.toNat]? with
  | none => exact .inr rfl
  | some name => exact .inl (Array.mem_toList_iff.mpr (Array.mem_of_getElem? found))

namespace CategoryListing

open DispatchTable Generated

variable {set : ClassifiedSet} {layout : Layout}

theorem length_entriesOf (inside : set.InCodespace) (valid : layout.fault? = none) :
    (entriesOf set layout).length ≤ maxCodepoint + 1 := by
  have count := (ClassifiedSet.spans_ascending inside valid).length_le
    (ClassifiedSet.spans_inside inside valid) 0 (fun _ _ => Nat.zero_le _)
  rw [entriesOf, ← List.map_flatMap, List.length_map]
  exact count

theorem listed_page (inside : set.InCodespace) (valid : layout.fault? = none)
    {page : Nat × List CodepointRange} (member : page ∈ (ofTable (pack set layout)).pages) :
    page.1 ≤ maxCodepoint := by
  obtain ⟨⟨number, indices⟩, listed, rfl⟩ := List.mem_map.mp member
  have found := Std.TreeMap.mem_toList_iff_getElem?_eq_some.mp listed
  rw [pack_pages, getElem?_pagesFrom] at found
  split at found
  · contradiction
  · rename_i touched
    obtain ⟨index, member⟩ := List.exists_mem_of_ne_nil _ touched
    obtain ⟨_, region, found, touches⟩ := mem_touching.mp member
    have bounds := region_bounds inside valid (List.mem_of_getElem? found)
    have last := (CodepointRange.contains_iff.mp (CodepointRange.mem_toList.mp touches)).2
    have smaller : region.range.last >>> layout.pageBits ≤ region.range.last :=
      Nat.shiftRight_le _ _
    exact Nat.le_trans last (Nat.le_trans smaller bounds.2)

theorem lt_wordSize {codepoint : Nat} (inside : codepoint ≤ maxCodepoint + 1) :
    codepoint < wordSize := by
  simp only [maxCodepoint] at inside
  simp only [wordSize]
  omega

theorem fits_ofTable (inside : set.InCodespace) (valid : layout.fault? = none) :
    (ofTable (pack set layout)).Fits where
  bits := by
    have bounds := Layout.pageBits_bounds valid
    have same : (ofTable (pack set layout)).pageBits = layout.pageBits := rfl
    omega
  pages page member := lt_wordSize (Nat.le_succ_of_le (listed_page inside valid member))
  ranges page member range held := by
    obtain ⟨⟨number, indices⟩, _, rfl⟩ := List.mem_map.mp member
    obtain ⟨index, _, found⟩ := List.mem_filterMap.mp held
    obtain ⟨region, listed, rfl⟩ := Option.map_eq_some_iff.mp found
    have origin : region ∈ regionsOf set layout := by
      rw [← pack_regions]
      exact Array.mem_toList_iff.mpr (Array.mem_of_getElem? listed)
    obtain ⟨order, last⟩ := region_bounds inside valid origin
    exact ⟨lt_wordSize (by omega), lt_wordSize (by omega)⟩
  entries := by
    rw [entries_ofTable]
    exact lt_wordSize (length_entriesOf inside valid)

theorem plainLabels_ofTable (plain : ∀ name ∈ set.blocks.names.names.toList,
    Text.occursIn ['/', '*'] name.toList = false ∧ Text.occursIn ['*', '/'] name.toList = false) :
    PlainLabels (ofTable (pack set layout)).rows := by
  intro row member label held
  obtain ⟨entry, start, rfl⟩ := List.mem_map.mp (TableRow.labels_withLabels member label held)
  obtain ⟨block, named⟩ := names_blockStartsAfter _ _ _ start
  rw [named]
  rcases set.blocks.name_cases block with listed | unnamed
  · exact plain _ listed
  · rw [unnamed]
    decide

/-- The text generated from a table is read as a program whose lookup function gives,
for every word, the constant of the table's category. No place outside the array is
asked for, and no constant is defined twice. -/
theorem read?_text_ofSet (set : ClassifiedSet) (layout : Layout) (table : DispatchTable)
    (inside : ∀ codepoint ∈ set.entries, codepoint ≤ maxCodepoint)
    (plain : ∀ name ∈ set.blocks.names.names.toList,
      Text.occursIn ['/', '*'] name.toList = false ∧ Text.occursIn ['*', '/'] name.toList = false)
    (built : ofSet set layout = .ok table) :
    ∃ program, Program.read? (ofTable table).text = some program ∧
      (program.constants.map (·.1)).Nodup ∧
      ∀ u : UInt32,
        program.call "get_category" u = .ok (.constant (table.categoryOf u.toNat).name) := by
  obtain ⟨valid, rfl⟩ := ofSet_eq_ok built
  refine ⟨(ofTable (pack set layout)).program, read?_text _ (plainLabels_ofTable plain), ?_, ?_⟩
  · apply constants_nodup
    have distinct := firsts_nodup inside valid
    simpa [ofTable, pack_regions, List.map_map, Function.comp_def] using distinct
  · intro u
    exact call_program (fits_ofTable inside valid) (categoryOf?_ofTable inside valid u.toNat)

/-- Two stretches of one named block. -/
def namedStretches : ClassifiedSet :=
  (((ClassifiedSet.empty (BlockTable.empty.insert ⟨0x10, 0x3F⟩ "Basic").2).insert
    0x15 ⟨.base, none⟩ ⟨1⟩).insert 0x16 ⟨.halant, none⟩ ⟨1⟩).insert
      0x31 ⟨.vowel, some .post⟩ ⟨1⟩

theorem read?_text_namedStretches :
    (∀ codepoint ∈ namedStretches.entries, codepoint ≤ maxCodepoint) ∧
      namedStretches.blocks.names.names.toList = ["No_Block", "Basic"] ∧
      ofSet namedStretches ⟨2, 0, 4⟩ = .ok (pack namedStretches ⟨2, 0, 4⟩) ∧
      ∃ program, Program.read? (ofTable (pack namedStretches ⟨2, 0, 4⟩)).text = some program ∧
        (program.constants.map (·.1)).Nodup ∧
        program.call "get_category" 0x31 = .ok (.constant "VPst") ∧
        program.call "get_category" 0x14 = .ok (.constant "O") ∧
        program.call "get_category" 0x110000 = .ok (.constant "O") := by
  have inside : ∀ codepoint ∈ namedStretches.entries, codepoint ≤ maxCodepoint := by
    intro codepoint member
    simp only [namedStretches, ClassifiedSet.insert, ClassifiedSet.empty, Std.TreeMap.mem_insert,
      Nat.compare_eq_eq, Std.TreeMap.not_mem_emptyc, or_false] at member
    simp only [maxCodepoint]
    omega
  have names : namedStretches.blocks.names.names.toList = ["No_Block", "Basic"] := rfl
  have plain : ∀ name ∈ namedStretches.blocks.names.names.toList,
      Text.occursIn ['/', '*'] name.toList = false ∧
        Text.occursIn ['*', '/'] name.toList = false := by
    rw [names]
    decide
  have built : ofSet namedStretches ⟨2, 0, 4⟩ = .ok (pack namedStretches ⟨2, 0, 4⟩) := rfl
  obtain ⟨program, read, distinct, answers⟩ := read?_text_ofSet _ _ _ inside plain built
  refine ⟨inside, names, built, program, read, distinct, ?_, ?_, ?_⟩
  all_goals
    rw [answers]
    rfl

end CategoryListing

end ShapingTables
