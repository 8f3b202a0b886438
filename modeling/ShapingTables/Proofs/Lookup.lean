import ShapingTables.DispatchTable
import ShapingTables.Proofs.Regions

/-! Looking a codepoint up in a packed table. The pages list for each page the
regions that touch it, so the search on a page finds the region that a search of
all regions finds; the array then holds the category of the set. -/
namespace ShapingTables.DispatchTable

/-- The indices of the regions that touch a page, counted from `index`. -/
def touching (pageBits page index : Nat) : List Region → List Nat
  | [] => []
  | region :: rest =>
    if page ∈ region.pages pageBits then index :: touching pageBits page (index + 1) rest
    else touching pageBits page (index + 1) rest

theorem mem_touching {pageBits page start index : Nat} {regions : List Region} :
    index ∈ touching pageBits page start regions ↔ start ≤ index ∧
      ∃ region, regions[index - start]? = some region ∧ page ∈ region.pages pageBits := by
  induction regions generalizing start with
  | nil => simp [touching]
  | cons region rest ih =>
    have split : index ∈ touching pageBits page start (region :: rest) ↔
        (index = start ∧ page ∈ region.pages pageBits) ∨
          index ∈ touching pageBits page (start + 1) rest := by
      rw [touching]
      split <;> simp_all
    rw [split, ih]
    rcases Nat.lt_trichotomy index start with below | same | above
    · constructor
      · rintro (⟨same, _⟩ | ⟨above, _⟩) <;> omega
      · rintro ⟨above, _⟩
        omega
    · subst same
      simp only [true_and, Nat.not_succ_le_self, false_and, or_false, Nat.le_refl, Nat.sub_self,
        List.getElem?_cons_zero, Option.some.injEq, exists_eq_left']
    · obtain ⟨steps, rfl⟩ := Nat.exists_eq_add_of_lt above
      have next : start + steps + 1 - start = steps + 1 := by omega
      have after : start + steps + 1 - (start + 1) = steps := by omega
      rw [next, after, List.getElem?_cons_succ]
      constructor
      · rintro (⟨same, _⟩ | ⟨_, found⟩)
        · omega
        · exact ⟨by omega, found⟩
      · exact fun ⟨_, found⟩ => .inr ⟨by omega, found⟩

theorem touching_ascend (pageBits page start : Nat) (regions : List Region) :
    (touching pageBits page start regions).Pairwise (· < ·) := by
  induction regions generalizing start with
  | nil => exact .nil
  | cons region rest ih =>
    rw [touching]
    split
    · refine List.pairwise_cons.mpr ⟨fun index later => ?_, ih (start + 1)⟩
      exact (mem_touching.mp later).1
    · exact ih (start + 1)

theorem getElem?_addToPages (index : Nat) (added : List Nat) (pages : Std.TreeMap Nat (List Nat))
    (distinct : added.Nodup) (page : Nat) :
    (added.foldl (addToPage index) pages)[page]? =
      if page ∈ added then some (index :: pages.getD page []) else pages[page]? := by
  induction added generalizing pages with
  | nil => simp
  | cons first rest ih =>
    obtain ⟨fresh, distinct⟩ := List.nodup_cons.mp distinct
    rw [List.foldl_cons, ih _ distinct]
    by_cases later : page ∈ rest
    · have other : first ≠ page := fun same => fresh (same ▸ later)
      simp [later, addToPage, Std.TreeMap.getD_insert, other]
    · by_cases same : first = page
      · subst same
        simp [later, addToPage]
      · simp [later, addToPage, Std.TreeMap.getElem?_insert, same, Ne.symm same]

theorem pages_nodup (region : Region) (pageBits : Nat) : (region.pages pageBits).Nodup :=
  List.nodup_range'

/-- A page is listed exactly if a region touches it. -/
theorem getElem?_pagesFrom (pageBits index : Nat) (regions : List Region) (page : Nat) :
    (pagesFrom pageBits index regions)[page]? =
      if touching pageBits page index regions = [] then none
      else some (touching pageBits page index regions) := by
  induction regions generalizing index with
  | nil => simp [pagesFrom, touching]
  | cons region rest ih =>
    rw [pagesFrom, getElem?_addToPages _ _ _ (pages_nodup region pageBits), touching]
    split
    · rw [Std.TreeMap.getD_eq_getD_getElem?, ih]
      split <;> simp_all
    · exact ih (index + 1)

theorem getD_pagesFrom (pageBits index : Nat) (regions : List Region) (page : Nat) :
    (pagesFrom pageBits index regions).getD page [] = touching pageBits page index regions := by
  rw [Std.TreeMap.getD_eq_getD_getElem?, getElem?_pagesFrom]
  split
  · simp [*]
  · rfl

/-- A region touches the page of each of its codepoints. -/
theorem mem_pages {region : Region} {codepoint : Nat} (pageBits : Nat)
    (held : region.range.contains codepoint = true) :
    codepoint >>> pageBits ∈ region.pages pageBits := by
  have bounds := CodepointRange.contains_iff.mp held
  have order := Nat.le_trans bounds.1 bounds.2
  exact (Region.mem_pages_iff order pageBits _).mpr ⟨codepoint, held, rfl⟩

/-- Searching the regions of a codepoint's page is searching all regions. -/
theorem findSome?_touching (pageBits codepoint : Nat) (front regions : List Region) :
    ((touching pageBits (codepoint >>> pageBits) front.length regions).findSome? fun index =>
        ((front ++ regions)[index]?).filter fun region => region.range.contains codepoint) =
      regions.find? fun region => region.range.contains codepoint := by
  induction regions generalizing front with
  | nil => rfl
  | cons region rest ih =>
    have later := ih (front ++ [region])
    rw [List.append_assoc, List.singleton_append, List.length_append, List.length_singleton] at later
    rw [touching, List.find?_cons]
    cases held : region.range.contains codepoint with
    | true =>
      rw [if_pos (mem_pages pageBits held), List.findSome?_cons]
      simp [Option.filter_some, held]
    | false =>
      split
      · rw [List.findSome?_cons]
        simpa [Option.filter_some, held] using later
      · exact later

/-- What the array of a packed table is made of. -/
def entriesOf (set : ClassifiedSet) (layout : Layout) : List Category :=
  (set.spans layout).flatMap fun span => span.toList.map set.categoryOf

def regionsOf (set : ClassifiedSet) (layout : Layout) : List Region :=
  Region.place 0 (set.spans layout)

def ranges (table : DispatchTable) : List CodepointRange := table.regions.toList.map (·.range)

variable {set : ClassifiedSet} {layout : Layout}

theorem pack_regions : (pack set layout).regions.toList = regionsOf set layout := rfl

theorem pack_entries : (pack set layout).entries.toList = entriesOf set layout := rfl

theorem pack_pages : (pack set layout).pages =
    pagesFrom layout.pageBits 0 (regionsOf set layout) := rfl

theorem ranges_pack : (pack set layout).ranges = set.spans layout :=
  Region.map_range_place 0 (set.spans layout)

theorem regionOf?_pack (codepoint : Nat) : (pack set layout).regionOf? codepoint =
    (regionsOf set layout).find? fun region => region.range.contains codepoint := by
  have found := findSome?_touching layout.pageBits codepoint [] (regionsOf set layout)
  rw [List.length_nil, List.nil_append, ← getD_pagesFrom] at found
  rw [← found, regionOf?]
  simp [pack, regionsOf, ClassifiedSet.spans]

/-- The array holds the category of each codepoint of each region. -/
theorem getElem?_entriesOf {region : Region} (member : region ∈ regionsOf set layout)
    {codepoint : Nat} (held : region.range.contains codepoint = true) :
    (entriesOf set layout)[codepoint - region.range.first + region.offset]? =
      some (set.categoryOf codepoint) :=
  Region.getElem?_place set.categoryOf (set.spans layout) [] region member codepoint held

theorem mem_spans {region : Region} (member : region ∈ regionsOf set layout) :
    region.range ∈ set.spans layout := by
  rw [← Region.map_range_place 0 (set.spans layout)]
  exact List.mem_map_of_mem member

theorem exists_region {codepoint : Nat}
    (covered : CodepointRange.Covers (set.spans layout) codepoint) :
    ∃ region ∈ regionsOf set layout, region.range.contains codepoint = true := by
  obtain ⟨span, member, held⟩ := covered
  rw [← Region.map_range_place 0 (set.spans layout)] at member
  obtain ⟨region, origin, rfl⟩ := List.mem_map.mp member
  exact ⟨region, origin, held⟩

theorem region_bounds (inside : set.InCodespace) (valid : layout.fault? = none)
    {region : Region} (member : region ∈ regionsOf set layout) :
    region.range.first ≤ region.range.last ∧ region.range.last ≤ maxCodepoint :=
  ⟨(ClassifiedSet.spans_ascending inside valid).nonempty _ (mem_spans member),
    ClassifiedSet.spans_inside inside valid _ (mem_spans member)⟩

/-- Outside every region the set has no category but `other`. -/
theorem categoryOf_uncovered (inside : set.InCodespace) (valid : layout.fault? = none)
    {codepoint : Nat} (outside : ∀ region ∈ regionsOf set layout,
      region.range.contains codepoint ≠ true) : set.categoryOf codepoint = .other := by
  apply Classical.byContradiction
  intro kept
  obtain ⟨region, member, held⟩ := exists_region (ClassifiedSet.covers_spans inside valid kept)
  exact outside region member held

/-- The packed table answers every codepoint of the codespace like the set. -/
theorem categoryOf_pack (inside : set.InCodespace) (valid : layout.fault? = none)
    {codepoint : Nat} (bound : codepoint ≤ maxCodepoint) :
    (pack set layout).categoryOf codepoint = set.categoryOf codepoint := by
  rw [categoryOf, if_neg (by omega), regionOf?_pack]
  split
  · rename_i region found
    have held : region.range.contains codepoint = true := by simpa using List.find?_some found
    have entry := getElem?_entriesOf (List.mem_of_find?_eq_some found) held
    rw [← pack_entries, Array.getElem?_toList] at entry
    rw [entry, Option.getD_some]
  · rename_i absent
    exact (categoryOf_uncovered inside valid (List.find?_eq_none.mp absent)).symm

theorem ofSet_eq_ok {table : DispatchTable} (built : ofSet set layout = .ok table) :
    layout.fault? = none ∧ table = pack set layout := by
  simp only [ofSet] at built
  split at built
  · contradiction
  · rename_i valid
    split at built
    · contradiction
    · exact ⟨valid, (Except.ok.inj built).symm⟩

/-- Whatever the layout, a table answers each codepoint with the category that
the set has for it, and `other` where the set has none or the codespace ends. -/
theorem categoryOf_ofSet (set : ClassifiedSet) (layout : Layout) (table : DispatchTable)
    (inside : ∀ codepoint ∈ set.entries, codepoint ≤ maxCodepoint)
    (built : ofSet set layout = .ok table) (codepoint : Nat) :
    (∀ category block, set.entries[codepoint]? = some (category, block) →
      table.categoryOf codepoint = category) ∧
    (codepoint ∉ set.entries ∨ maxCodepoint < codepoint →
      table.categoryOf codepoint = .other) := by
  obtain ⟨valid, rfl⟩ := ofSet_eq_ok built
  have beyond : maxCodepoint < codepoint → (pack set layout).categoryOf codepoint = .other := by
    intro beyond
    rw [categoryOf, if_pos beyond]
  constructor
  · intro category block entry
    have member : codepoint ∈ set.entries := by
      rw [Std.TreeMap.mem_iff_isSome_getElem?, entry]; rfl
    rw [categoryOf_pack inside valid (inside codepoint member), ClassifiedSet.categoryOf, entry]
  · rintro (absent | high)
    · by_cases high : maxCodepoint < codepoint
      · exact beyond high
      · rw [categoryOf_pack inside valid (by omega), ClassifiedSet.categoryOf,
          Std.TreeMap.getElem?_eq_none absent]
    · exact beyond high

/-- Codepoints in two regions on two pages, the first region wider than its runs. -/
def twoStretches : ClassifiedSet :=
  ((((ClassifiedSet.empty .empty).insert 0x15 ⟨.base, none⟩ .unnamed).insert
    0x16 ⟨.base, none⟩ .unnamed).insert 0x17 ⟨.halant, none⟩ .unnamed).insert
      0x31 ⟨.vowel, some .post⟩ .unnamed

theorem categoryOf_twoStretches :
    (∀ codepoint ∈ twoStretches.entries, codepoint ≤ maxCodepoint) ∧
      ofSet twoStretches ⟨2, 0, 4⟩ = .ok (pack twoStretches ⟨2, 0, 4⟩) ∧
      (pack twoStretches ⟨2, 0, 4⟩).categoryOf 0x31 = ⟨.vowel, some .post⟩ ∧
      (pack twoStretches ⟨2, 0, 4⟩).categoryOf 0x14 = .other := by
  have inside : ∀ codepoint ∈ twoStretches.entries, codepoint ≤ maxCodepoint := by
    intro codepoint member
    simp only [twoStretches, ClassifiedSet.insert, ClassifiedSet.empty, Std.TreeMap.mem_insert,
      Nat.compare_eq_eq, Std.TreeMap.not_mem_emptyc, or_false] at member
    simp only [maxCodepoint]
    omega
  have built : ofSet twoStretches ⟨2, 0, 4⟩ = .ok (pack twoStretches ⟨2, 0, 4⟩) := rfl
  have absent : 0x14 ∉ twoStretches.entries := by decide
  exact ⟨inside, built, (categoryOf_ofSet _ _ _ inside built 0x31).1 _ .unnamed rfl,
    (categoryOf_ofSet _ _ _ inside built 0x14).2 (.inl absent)⟩

end ShapingTables.DispatchTable
