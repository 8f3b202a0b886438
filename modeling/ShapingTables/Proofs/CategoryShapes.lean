import ShapingTables.Proofs.CategoryOfSource

/-! The shapes of categories. A role that is split by position always comes with one of the
positions it is split into, and every other role comes with none. Neither the gaps that a
table fills nor a lookup outside it adds a category of another shape. -/
namespace ShapingTables

/-- The positions that a role is split into. -/
def Role.positions : Role → List Position
  | .consonantFinal | .consonantFinalModifier => [.above, .below, .post]
  | .consonantMedial | .vowel | .vowelModifier => [.above, .below, .post, .pre]
  | .consonantModifier | .symbolModifier => [.above, .below]
  | _ => []

/-- A category has a position exactly if its role is split, and then one of its role's. -/
def Category.Shaped (category : Category) : Prop :=
  match category.position with
  | some position => position ∈ category.role.positions
  | none => category.role.positions = []

theorem Category.other_shaped : Category.other.Shaped := rfl

/-- The positions that a refinement can choose from. -/
def Refinement.positions : Refinement → List Position
  | .positioned table => table.map (·.1)
  | .unpositioned | .stray => []

theorem Refinement.positions_ofRole (role : Role) : (ofRole role).positions = role.positions := by
  cases role <;> rfl

theorem PositionTable.mem_of_mem_matching {table : PositionTable} {positional : PositionalCategory}
    {position : Position} (member : position ∈ table.matching positional) :
    position ∈ table.map (·.1) := by
  obtain ⟨row, listed, rfl⟩ := List.mem_map.mp member
  exact List.mem_map_of_mem (List.mem_filter.mp listed).1

theorem Position.shaped_of_resolve {role : Role} {attributes : Attributes}
    {position : Option Position} (resolved : resolve role attributes = .ok position) :
    Category.Shaped ⟨role, position⟩ := by
  have choices := Refinement.positions_ofRole role
  rw [resolve] at resolved
  cases refined : Refinement.ofRole role with
  | positioned table =>
    simp only [refined] at resolved choices
    split at resolved
    · rename_i chosen only
      cases resolved
      have member : chosen ∈ table.matching attributes.positional := by simp [only]
      have listed := PositionTable.mem_of_mem_matching member
      rw [Refinement.positions] at choices
      rwa [choices] at listed
    · contradiction
  | unpositioned =>
    simp only [refined] at resolved choices
    cases resolved
    exact choices.symm
  | stray =>
    simp only [refined] at resolved choices
    split at resolved
    · cases resolved
      exact choices.symm
    · contradiction

theorem Assigns.shaped {attributes : Attributes} {category : Category}
    (assigns : Assigns attributes category) : category.Shaped :=
  Position.shaped_of_resolve assigns.position

theorem ClassifiedSet.categoryOf_shaped {records : RecordSet} {set : ClassifiedSet}
    (classified : ofRecords records = .ok set) (u : Nat) : (set.categoryOf u).Shaped := by
  obtain ⟨recorded, unrecorded⟩ := ofRecords_entries classified u
  rw [categoryOf]
  cases stored : records.records[u]? with
  | none =>
    rw [unrecorded stored]
    exact Category.other_shaped
  | some record =>
    obtain ⟨category, assigned, entry⟩ := recorded record stored
    rw [entry]
    exact (assigns_of_classify assigned).shaped

namespace DispatchTable

/-- The array holds nothing but categories of the set. -/
theorem exists_of_mem_entries {set : ClassifiedSet} {layout : Layout} {category : Category}
    (member : category ∈ (pack set layout).entries) : ∃ u, set.categoryOf u = category := by
  rw [← Array.mem_toList_iff, pack_entries, entriesOf, List.mem_flatMap] at member
  obtain ⟨span, _, listed⟩ := member
  obtain ⟨u, _, same⟩ := List.mem_map.mp listed
  exact ⟨u, same⟩

/-- A lookup finds an entry of the array or falls back on `other`. -/
theorem categoryOf_cases (table : DispatchTable) (u : Nat) :
    table.categoryOf u = .other ∨ table.categoryOf u ∈ table.entries := by
  rw [categoryOf]
  split
  · exact .inl rfl
  · split
    · rename_i region _
      cases entry : table.entries[u - region.range.first + region.offset]? with
      | none => exact .inl rfl
      | some category => exact .inr (Array.mem_of_getElem? entry)
    · exact .inl rfl

theorem entries_shaped {source : Source} {config : Config} {table : DispatchTable}
    (built : ofSource source config = .ok table) : ∀ category ∈ table.entries, category.Shaped := by
  rw [ofSource] at built
  obtain ⟨records, _, built⟩ := bind_eq_ok built
  obtain ⟨set, classified, packed⟩ := bind_eq_ok built
  obtain ⟨_, rfl⟩ := ofSet_eq_ok packed
  intro category member
  obtain ⟨u, rfl⟩ := exists_of_mem_entries member
  exact ClassifiedSet.categoryOf_shaped classified u

end DispatchTable

/-- What a record is classified as has the only role that holds of it, and the shape of that
role. Every entry of a table that is built and every answer of the table has the shape of its
role, too. -/
theorem Category.shaped_throughout :
    (∀ attributes category, classify attributes = .ok category →
      (∀ role, Role.holds (Correction.beforeRole attributes) role = true ↔
        role = category.role) ∧ category.Shaped) ∧
    ∀ source config table, DispatchTable.ofSource source config = .ok table →
      (∀ category ∈ table.entries, category.Shaped) ∧ ∀ u, (table.categoryOf u).Shaped := by
  constructor
  · intro attributes category classified
    have assigns := assigns_of_classify classified
    exact ⟨assigns.role, assigns.shaped⟩
  · intro source config table built
    have entries := DispatchTable.entries_shaped built
    refine ⟨entries, fun u => ?_⟩
    rcases table.categoryOf_cases u with absent | listed
    · rw [absent]
      exact other_shaped
    · exact entries _ listed

/-- U+1BF2, which the files list as a killer on the right and shaping needs as a nukta below. -/
def Attributes.batakKiller : Attributes := ⟨0x1BF2, .pureKiller, .right, .spacingMark, .unlisted⟩

theorem Category.shaped_throughout_fewLines :
    classify .batakKiller = .ok ⟨.consonantModifier, some .below⟩ ∧
      (∀ role, Role.holds (Correction.beforeRole .batakKiller) role = true ↔
        role = .consonantModifier) ∧
      ∃ table, DispatchTable.ofSource .fewLines DispatchTable.fewLinesConfig = .ok table ∧
        ⟨.consonantFinalModifier, some .post⟩ ∈ table.entries ∧
        (∀ category ∈ table.entries, category.Shaped) ∧ ∀ u, (table.categoryOf u).Shaped := by
  have classified : classify .batakKiller = .ok ⟨.consonantModifier, some .below⟩ := by decide
  obtain ⟨table, built, listed⟩ : ∃ table,
      DispatchTable.ofSource .fewLines DispatchTable.fewLinesConfig = .ok table ∧
      decide (⟨.consonantFinalModifier, some .post⟩ ∈ table.entries) = true :=
    exists_of_any (by decide +kernel)
  obtain ⟨records, builds⟩ := shaped_throughout
  exact ⟨classified, (records _ _ classified).1, table, built, of_decide_eq_true listed,
    builds _ _ _ built⟩

end ShapingTables
