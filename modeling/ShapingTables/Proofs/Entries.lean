import Mathlib.Data.List.Basic

/-! Lists of entries under keys, and what is found in them. -/
namespace ShapingTables

theorem lookup_eq_some_iff [BEq κ] [LawfulBEq κ] {entries : List (κ × α)}
    (distinct : (entries.map (·.1)).Nodup) (key : κ) (value : α) :
    entries.lookup key = some value ↔ (key, value) ∈ entries := by
  induction entries with
  | nil => simp
  | cons entry rest ih =>
    obtain ⟨label, held⟩ := entry
    obtain ⟨fresh, distinct⟩ := List.nodup_cons.mp distinct
    rw [List.lookup_cons]
    by_cases same : key = label
    · subst same
      have absent : (key, value) ∉ rest := fun member =>
        fresh (List.mem_map.mpr ⟨_, member, rfl⟩)
      simp [absent, eq_comm]
    · have other : (key == label) = false := by simpa using same
      rw [other, ih distinct]
      simp [same]

theorem lookup_map_snd [BEq κ] (change : α → β) (entries : List (κ × α)) (key : κ) :
    (entries.map fun entry => (entry.1, change entry.2)).lookup key =
      (entries.lookup key).map change := by
  induction entries with
  | nil => rfl
  | cons entry rest ih =>
    rw [List.map_cons, List.lookup_cons, List.lookup_cons]
    split <;> simp [ih]

theorem find?_filterMap_eq (view : α → Option β) (test : β → Bool) (entries : List α) :
    (entries.filterMap view).find? test = entries.findSome? fun entry => (view entry).filter test := by
  induction entries with
  | nil => rfl
  | cons entry rest ih =>
    rw [List.filterMap_cons, List.findSome?_cons]
    cases view entry with
    | none => exact ih
    | some value =>
      rw [Option.filter_some]
      cases held : test value with
      | true => simp [held]
      | false => simpa [held] using ih

end ShapingTables
