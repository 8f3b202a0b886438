import Mathlib.Data.List.Nodup
import ShapingTables.Proofs.Generated.Program
import ShapingTables.Proofs.Listing.TableEntries
import ShapingTables.Proofs.Numerals

/-! The program of a category listing and its answers. The function looks the page of
its argument up, tests the ranges of the page in turn and leaves with an entry of the
table; every name it uses is defined once. -/
namespace ShapingTables.CategoryListing

open Generated

def tableName : String := "USE_TABLE"

def functionName : String := "get_category"

/-- The entry of the table for an argument inside a range. -/
def rangeEntry (range : CodepointRange) : Expression :=
  .item (.name tableName)
    (.binary .plus
      (.binary .minus (.cast (.name "u") "usize") (.number range.first))
      (.name (offsetName range.first)))

def rangeTest (range : CodepointRange) : Expression :=
  .when
    (.method (.binary .through (.number range.first) (.number range.last)) "contains"
      (.borrow (.name "u")))
    (.block [.discard (.giveBack (rangeEntry range))])

def pageArm (page : Nat × List CodepointRange) : Arm :=
  .mk (.number page.1) (.block (page.2.map rangeTest))

def otherArm : Arm := .mk .anything (.block [])

def pageNumber (listing : CategoryListing) : Expression :=
  .binary .shiftRight (.name "u") (.number listing.pageBits)

def selection (listing : CategoryListing) : Expression :=
  .select listing.pageNumber (listing.pages.map pageArm ++ [otherArm])

def lookupBody (listing : CategoryListing) : Expression :=
  .block [listing.selection, .name Category.other.name]

def tableConstant (categories : List Category) : String × Expression :=
  (tableName, .borrow (.list (categories.map fun category => .name category.name)))

def offsetConstant (offset : Nat × Nat) : String × Expression :=
  (offsetName offset.1, .number offset.2)

def program (listing : CategoryListing) : Program where
  constants := tableConstant listing.entries :: listing.offsets.map offsetConstant
  functions := [⟨functionName, "u", listing.lookupBody⟩]

theorem offsetName_injective : Function.Injective offsetName := by
  intro one other same
  have digits : Text.hex4 one = Text.hex4 other := by
    have lists := congrArg String.toList same
    rw [offsetName, offsetName, String.toList_append, String.toList_append] at lists
    exact String.toList_injective (List.append_cancel_left lists)
  exact Text.hex_injective digits

theorem underscore_offsetName (first : Nat) : '_' ∈ (offsetName first).toList := by
  rw [offsetName, String.toList_append]
  exact List.mem_append_left _ (by decide)

theorem offsetName_ne_tableName (first : Nat) : offsetName first ≠ tableName := by
  intro same
  have lists := congrArg (fun name => name.toList.take 5) same
  rw [offsetName, String.toList_append] at lists
  exact absurd lists (by simp [tableName])

/-- The names of categories have no underscore and more than the parameter's letter. -/
theorem category_name (category : Category) :
    '_' ∉ category.name.toList ∧ category.name ≠ "u" := by
  obtain ⟨role, position⟩ := category
  cases role <;> cases position with
  | none => decide
  | some position => cases position <;> decide

theorem lookup_map_key {key : Nat → String} (injective : Function.Injective key)
    (entries : List (Nat × α)) (first : Nat) :
    (entries.map fun entry => (key entry.1, entry.2)).lookup (key first) =
      entries.lookup first := by
  induction entries with
  | nil => rfl
  | cons entry rest ih =>
    rw [List.map_cons, List.lookup_cons, List.lookup_cons, ih]
    by_cases same : first = entry.1
    · rw [same, beq_self_eq_true, beq_self_eq_true]
    · have apart : key first ≠ key entry.1 := fun equal => same (injective equal)
      rw [beq_false_of_ne same, beq_false_of_ne apart]

variable (listing : CategoryListing)

theorem lookup_category (category : Category) :
    listing.program.constants.lookup category.name = none := by
  apply List.lookup_eq_none_iff.mpr
  intro constant member
  have plain := (category_name category).1
  rcases List.mem_cons.mp member with rfl | member
  · have other : category.name ≠ tableName := by
      intro same
      rw [same] at plain
      exact plain (by decide)
    simpa [tableConstant] using other
  · obtain ⟨offset, _, rfl⟩ := List.mem_map.mp member
    have other : category.name ≠ offsetName offset.1 := by
      intro same
      rw [same] at plain
      exact plain (underscore_offsetName offset.1)
    simpa [offsetConstant] using other

theorem outside_category (category : Category) :
    listing.program.outside category.name = .ok (.constant category.name) := by
  rw [Program.outside, lookup_category]

theorem lookup_offset (first : Nat) : listing.program.constants.lookup (offsetName first) =
    (listing.offsets.lookup first).map Expression.number := by
  have apart : (offsetName first == tableName) = false := by
    simpa using offsetName_ne_tableName first
  rw [program, tableConstant, List.lookup_cons, apart, ← lookup_map_snd,
    ← lookup_map_key offsetName_injective, List.map_map]
  rfl

/-- What a name stands for where the function is called. -/
def names (u : Nat) : String → Outcome := listing.program.inside "u" (.number u)

theorem names_parameter (u : Nat) : listing.names u "u" = .ok (.number u) := rfl

theorem names_category (u : Nat) (category : Category) :
    listing.names u category.name = .ok (.constant category.name) := by
  rw [names, Program.inside, if_neg (category_name category).2, lookup_category]

theorem evalItems_categories (categories : List Category) :
    evalItems listing.program.outside (categories.map fun category => .name category.name) =
      .ok (categories.map fun category => .constant category.name) := by
  induction categories with
  | nil => rfl
  | cons category rest ih =>
    exact evalItems_cons (listing.outside_category category) ih

theorem names_table (u : Nat) : listing.names u tableName =
    .ok (.list (listing.entries.map fun category => .constant category.name)) := by
  have found : listing.program.constants.lookup tableName =
      some (tableConstant listing.entries).2 := by
    rw [program, tableConstant, List.lookup_cons]
    rfl
  rw [names, Program.inside, if_neg (by decide), found, tableConstant]
  exact congrArg (Except.map Value.list) (listing.evalItems_categories listing.entries)

theorem names_offset (u : Nat) {first offset : Nat} (found : listing.offsets.lookup first = some offset)
    (small : offset < wordSize) : listing.names u (offsetName first) = .ok (.number offset) := by
  have other : offsetName first ≠ "u" := by
    intro same
    have member := underscore_offsetName first
    rw [same] at member
    exact absurd member (by decide)
  rw [names, Program.inside, if_neg other, lookup_offset, found]
  exact eval_number small

/-- Every number of the listing and every place in its table is a word. -/
structure Fits : Prop where
  bits : listing.pageBits < 32
  pages : ∀ page ∈ listing.pages, page.1 < wordSize
  ranges : ∀ page ∈ listing.pages, ∀ range ∈ page.2,
    range.first < wordSize ∧ range.last < wordSize
  entries : listing.entries.length < wordSize

variable {listing} {u : Nat}

/-- Inside a range the entry is given back. -/
theorem eval_rangeEntry {range : CodepointRange} {offset : Nat} {category : Category}
    (first : range.first < wordSize) (held : range.contains u = true)
    (size : listing.entries.length < wordSize)
    (found : listing.offsets.lookup range.first = some offset)
    (entry : listing.entries[u - range.first + offset]? = some category) :
    (rangeEntry range).eval (listing.names u) = .ok (.constant category.name) := by
  have bounds := CodepointRange.contains_iff.mp held
  have inside := (List.getElem?_eq_some_iff.mp entry).1
  have argument : (Expression.cast (.name "u") "usize").eval (listing.names u) =
      .ok (.number u) := eval_cast "usize" (eval_name (listing.names_parameter u))
  have difference := (eval_binary .minus argument (eval_number first)).trans (if_pos bounds.1)
  have offsetValue := eval_name (listing.names_offset u found (by omega))
  have place := (eval_binary .plus difference offsetValue).trans (if_pos (by omega))
  refine (eval_item (eval_name (listing.names_table u)) place).trans ?_
  rw [Value.item, List.getElem?_map, entry]
  rfl

theorem eval_rangeHeld {range : CodepointRange} (first : range.first < wordSize)
    (last : range.last < wordSize) : (Expression.method
      (.binary .through (.number range.first) (.number range.last)) "contains"
        (.borrow (.name "u"))).eval (listing.names u) = .ok (.truth (range.contains u)) :=
  eval_method "contains" (eval_binary .through (eval_number first) (eval_number last))
    (eval_name (listing.names_parameter u))

theorem eval_rangeTest_outside {range : CodepointRange} (first : range.first < wordSize)
    (last : range.last < wordSize) (apart : range.contains u = false) :
    (rangeTest range).eval (listing.names u) = .ok .nothing :=
  eval_whenFalse (apart ▸ eval_rangeHeld first last)

theorem eval_rangeTest_inside {range : CodepointRange} {value : Value}
    (first : range.first < wordSize) (last : range.last < wordSize)
    (held : range.contains u = true)
    (entry : (rangeEntry range).eval (listing.names u) = .ok value) :
    (rangeTest range).eval (listing.names u) = .error (.givenBack value) :=
  (eval_whenTrue (held ▸ eval_rangeHeld first last)).trans
    (evalStatements_stop .nothing (eval_discard (eval_giveBack entry)))

theorem evalStatements_outside {ranges : List CodepointRange}
    (small : ∀ range ∈ ranges, range.first < wordSize ∧ range.last < wordSize)
    (missed : ranges.find? (·.contains u) = none) :
    evalStatements (listing.names u) .nothing (ranges.map rangeTest) = .ok .nothing := by
  induction ranges with
  | nil => rfl
  | cons range rest ih =>
    obtain ⟨⟨first, last⟩, later⟩ := List.forall_mem_cons.mp small
    rw [List.find?_cons] at missed
    cases held : range.contains u with
    | true => simp [held] at missed
    | false =>
      rw [held] at missed
      exact (evalStatements_next _ (eval_rangeTest_outside first last held)).trans (ih later missed)

/-- The first range that holds the argument decides. -/
theorem evalStatements_inside {ranges : List CodepointRange} {range : CodepointRange}
    {value : Value} (small : ∀ range ∈ ranges, range.first < wordSize ∧ range.last < wordSize)
    (found : ranges.find? (·.contains u) = some range)
    (entry : (rangeEntry range).eval (listing.names u) = .ok value) :
    evalStatements (listing.names u) .nothing (ranges.map rangeTest) =
      .error (.givenBack value) := by
  induction ranges with
  | nil => simp at found
  | cons head rest ih =>
    obtain ⟨⟨first, last⟩, later⟩ := List.forall_mem_cons.mp small
    rw [List.find?_cons] at found
    cases held : head.contains u with
    | true =>
      rw [held] at found
      obtain rfl := Option.some.inj found
      exact evalStatements_stop _ (eval_rangeTest_inside first last held entry)
    | false =>
      rw [held] at found
      exact (evalStatements_next _ (eval_rangeTest_outside first last held)).trans (ih later found)

/-- The arm of a page runs the tests of its ranges; every other page has none. -/
theorem evalArms_pages {pages : List (Nat × List CodepointRange)} {page : Nat}
    (small : ∀ entry ∈ pages, entry.1 < wordSize) :
    evalArms (listing.names u) (.number page) (pages.map pageArm ++ [otherArm]) =
      evalStatements (listing.names u) .nothing (((pages.lookup page).getD []).map rangeTest) := by
  induction pages with
  | nil => rfl
  | cons entry rest ih =>
    obtain ⟨numbered, later⟩ := List.forall_mem_cons.mp small
    have fits : (Pattern.number entry.1).fits (.number page) = .ok (page == entry.1) :=
      if_pos numbered
    rw [List.lookup_cons]
    cases same : page == entry.1 with
    | false => exact (evalArms_misses _ (same ▸ fits)).trans (ih later)
    | true => exact evalArms_fits _ (same ▸ fits)

theorem small_ranges (fits : listing.Fits) (page : Nat) :
    ∀ range ∈ (listing.pages.lookup page).getD [], range.first < wordSize ∧ range.last < wordSize := by
  cases found : listing.pages.lookup page with
  | none => simp
  | some ranges =>
    obtain ⟨before, after, split, _⟩ := List.lookup_eq_some_iff.mp found
    exact fits.ranges (page, ranges) (by simp [split])

theorem eval_selection (fits : listing.Fits) : listing.selection.eval (listing.names u) =
    evalStatements (listing.names u) .nothing
      (((listing.pages.lookup (u >>> listing.pageBits)).getD []).map rangeTest) := by
  have bits : listing.pageBits < wordSize := Nat.lt_trans fits.bits (by decide)
  have argument := eval_name (listing.names_parameter u)
  have page := (eval_binary .shiftRight argument (eval_number bits)).trans (if_pos fits.bits)
  exact (eval_select page).trans (evalArms_pages fits.pages)

/-- The function answers what the listing answers. -/
theorem call_program (fits : listing.Fits) {word : UInt32} {category : Category}
    (answer : listing.categoryOf? word.toNat = some category) :
    listing.program.call functionName word = .ok (.constant category.name) := by
  have called : listing.program.call functionName word =
      answerOf (listing.lookupBody.eval (listing.names word.toNat)) := rfl
  have small := small_ranges fits (word.toNat >>> listing.pageBits)
  have selected := eval_selection (u := word.toNat) fits
  rw [called]
  rw [categoryOf?] at answer
  cases found : ((listing.pages.lookup (word.toNat >>> listing.pageBits)).getD []).find?
      (·.contains word.toNat) with
  | none =>
    rw [found] at answer
    obtain rfl := Option.some.inj answer
    rw [evalStatements_outside small found] at selected
    have body : listing.lookupBody.eval (listing.names word.toNat) =
        .ok (.constant Category.other.name) :=
      (evalStatements_next _ selected).trans
        (evalStatements_next _ (eval_name (listing.names_category word.toNat .other)))
    rw [body]
    rfl
  | some range =>
    rw [found] at answer
    obtain ⟨offset, start, entry⟩ := Option.bind_eq_some_iff.mp answer
    have held : range.contains word.toNat = true := by simpa using List.find?_some found
    have first := (small range (List.mem_of_find?_eq_some found)).1
    have value := eval_rangeEntry first held fits.entries start entry
    rw [evalStatements_inside small found value] at selected
    have body : listing.lookupBody.eval (listing.names word.toNat) =
        .error (.givenBack (.constant category.name)) := evalStatements_stop _ selected
    rw [body]
    rfl

/-- No constant is defined twice where no two regions start at one codepoint. -/
theorem constants_nodup (distinct : (listing.offsets.map (·.1)).Nodup) :
    (listing.program.constants.map (·.1)).Nodup := by
  have offsets : (listing.offsets.map offsetConstant).map (·.1) =
      (listing.offsets.map (·.1)).map offsetName := by
    rw [List.map_map, List.map_map]
    rfl
  rw [program, List.map_cons, offsets]
  refine List.nodup_cons.mpr ⟨?_, List.Nodup.map offsetName_injective distinct⟩
  intro member
  obtain ⟨first, _, same⟩ := List.mem_map.mp member
  exact offsetName_ne_tableName first same

end ShapingTables.CategoryListing
