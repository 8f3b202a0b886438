import Std.Data.TreeMap

/-! Distinct names in the order in which they were first used. A name is found by its
place and a place by its name; `placeOf_eq` keeps the two directions in step. -/
namespace ShapingTables

theorem idxOf?_concat {names : List String} {name : String} (isNew : name ∉ names)
    (other : String) :
    (names ++ [name]).idxOf? other =
      if name = other then some names.length else names.idxOf? other := by
  rw [List.idxOf?, List.findIdx?_append, ← List.idxOf?]
  by_cases same : name = other
  · subst same
    simp [List.idxOf?_eq_none_iff.2 isNew]
  · simp [same]

structure NameTable where
  names : Array String
  placeOf : Std.TreeMap String Nat
  placeOf_eq : ∀ name, placeOf[name]? = names.toList.idxOf? name

namespace NameTable

def size (table : NameTable) : Nat := table.names.size

def name? (table : NameTable) (place : Nat) : Option String := table.names[place]?

def place? (table : NameTable) (name : String) : Option Nat := table.placeOf[name]?

def empty : NameTable := ⟨#[], ∅, by simp⟩

@[simp] theorem place?_empty (name : String) : empty.place? name = none := by
  simp [empty, place?]

/-- A new name behind all others. -/
def push (table : NameTable) (name : String) (isNew : table.place? name = none) : NameTable :=
  let place := table.size
  { names := table.names.push name
    placeOf := table.placeOf.insert name place
    placeOf_eq := fun other => by
      have absent : name ∉ table.names.toList := by
        rwa [← List.idxOf?_eq_none_iff, ← table.placeOf_eq]
      rw [Array.toList_push, idxOf?_concat absent, Std.TreeMap.getElem?_insert, table.placeOf_eq]
      simp [place, size] }

theorem place?_eq (table : NameTable) (name : String) :
    table.place? name = table.names.toList.idxOf? name :=
  table.placeOf_eq name

theorem place?_push (table : NameTable) (name : String) (isNew : table.place? name = none)
    (other : String) :
    (table.push name isNew).place? other =
      if name = other then some table.size else table.place? other := by
  simp [place?, push, size, Std.TreeMap.getElem?_insert]

theorem name?_push (table : NameTable) {name : String} (isNew : table.place? name = none)
    (place : Nat) :
    (table.push name isNew).name? place =
      if place = table.size then some name else table.name? place := by
  rw [name?, push, Array.getElem?_push]
  rfl

theorem toList_push (table : NameTable) {name : String} (isNew : table.place? name = none) :
    (table.push name isNew).names.toList = table.names.toList ++ [name] :=
  Array.toList_push

theorem place?_eq_none_iff (table : NameTable) (name : String) :
    table.place? name = none ↔ name ∉ table.names.toList := by
  rw [place?_eq, List.idxOf?_eq_none_iff]

theorem name?_eq_some_of_place? {table : NameTable} {name : String} {place : Nat}
    (known : table.place? name = some place) : table.name? place = some name := by
  obtain ⟨inside, here, _⟩ := List.idxOf?_eq_some_iff.mp (place?_eq table name ▸ known)
  rw [name?, ← Array.getElem?_toList, List.getElem?_eq_getElem inside, here]

end NameTable

end ShapingTables
