import Mathlib.Data.List.Induction
import ShapingTables.CodepointMap
import ShapingTables.Source

/-! The data lines of a text and what they say of a codepoint. Where several lines
cover a codepoint the last of them decides, and a map that is filled range by range
comes to the same. -/
namespace ShapingTables

theorem bind_eq_ok {first : Except ε α} {next : α → Except ε β} {last : β}
    (run : first >>= next = .ok last) : ∃ value, first = .ok value ∧ next value = .ok last := by
  cases first with
  | error fault => contradiction
  | ok value => exact ⟨value, rfl, run⟩

theorem map_eq_ok {f : α → β} {result : Except ε α} {last : β}
    (mapped : result.map f = .ok last) : ∃ value, result = .ok value ∧ f value = last := by
  cases result with
  | error fault => contradiction
  | ok value => exact ⟨value, rfl, Except.ok.inj mapped⟩

theorem exists_of_any {result : Except ε α} {test : α → Bool}
    (passed : result.toOption.any test = true) :
    ∃ value, result = .ok value ∧ test value = true := by
  cases result with
  | error fault => contradiction
  | ok value => exact ⟨value, rfl, passed⟩

theorem mapM_cons_eq_ok {f : α → Except ε β} {head : α} {rest : List α} {values : List β}
    (mapped : (head :: rest).mapM f = .ok values) :
    ∃ first others, f head = .ok first ∧ rest.mapM f = .ok others ∧ values = first :: others := by
  rw [List.mapM_cons] at mapped
  obtain ⟨first, start, mapped⟩ := bind_eq_ok mapped
  obtain ⟨others, later, mapped⟩ := bind_eq_ok mapped
  cases mapped
  exact ⟨first, others, start, later, rfl⟩

theorem Source.read_eq_ok {source : Source} {file : SourceFile}
    {parse : String → Except (Nat × LineFault) α} {value : α}
    (read : source.read file parse = .ok value) :
    ∃ text, source file = .ok text ∧ parse text = .ok value := by
  rw [Source.read] at read
  cases given : source file with
  | error fault =>
    rw [given] at read
    contradiction
  | ok text =>
    simp only [given] at read
    refine ⟨text, rfl, ?_⟩
    cases parsed : parse text with
    | error fault =>
      rw [parsed] at read
      contradiction
    | ok found =>
      rw [parsed] at read
      cases read
      rfl

namespace CodepointMap

/-- The value of the last range that contains a codepoint. -/
def lastAt? (entries : List (CodepointRange × α)) (u : Nat) : Option α :=
  ((entries.filter (·.1.contains u)).getLast?).map (·.2)

theorem lastAt?_append (front rest : List (CodepointRange × α)) (u : Nat) :
    lastAt? (front ++ rest) u = (lastAt? rest u).or (lastAt? front u) := by
  simp only [lastAt?, List.filter_append, List.getLast?_append]
  cases (rest.filter (·.1.contains u)).getLast? <;> rfl

/-- Of overlapping ranges the last one counts. -/
theorem getElem?_ofEntries (entries : List (CodepointRange × α)) (u : Nat) :
    (ofEntries entries)[u]? = lastAt? entries u := by
  induction entries using List.reverseRecOn with
  | nil => simp [ofEntries, lastAt?]
  | append_singleton entries entry ih =>
    rw [ofEntries, List.foldl_append, ← ofEntries, List.foldl_cons, List.foldl_nil, getElem?_fill,
      ih, lastAt?_append]
    cases held : entry.1.contains u <;> simp [lastAt?, held]

/-- Where ranges do not overlap the only one that contains a codepoint counts. -/
theorem lastAt?_of_disjoint {entries : List (CodepointRange × α)}
    (disjoint : entries.Pairwise fun one other =>
      one.1.last < other.1.first ∨ other.1.last < one.1.first)
    {entry : CodepointRange × α} (member : entry ∈ entries) {u : Nat}
    (held : entry.1.contains u = true) : lastAt? entries u = some entry.2 := by
  induction entries with
  | nil => contradiction
  | cons head rest ih =>
    obtain ⟨apart, disjoint⟩ := List.pairwise_cons.mp disjoint
    rw [← List.singleton_append, lastAt?_append]
    rcases List.mem_cons.mp member with rfl | later
    · have alone : lastAt? rest u = none := by
        rw [lastAt?, Option.map_eq_none_iff, List.getLast?_eq_none_iff, List.filter_eq_nil_iff]
        intro other otherMember
        have separate := apart other otherMember
        simp only [CodepointRange.contains, Bool.and_eq_true, decide_eq_true_eq] at held ⊢
        omega
      rw [alone]
      simp [lastAt?, held]
    · rw [ih disjoint later]
      rfl

theorem lastAt?_isSome (entries : List (CodepointRange × α)) (u : Nat) :
    (lastAt? entries u).isSome = true ↔ ∃ entry ∈ entries, entry.1.contains u = true := by
  rw [lastAt?, Option.isSome_map, List.getLast?_isSome, ne_eq, List.filter_eq_nil_iff]
  simp

end CodepointMap

namespace DataFile

/-- What a row has in one of its fields. -/
def Row.value? (index : Nat) (valueOf? : String → Option α) (row : Row) : Option α :=
  valueOf? ((row.field? index).getD "")

/-- The rows that cover a codepoint. -/
def covering (u : Nat) (rows : List Row) : List Row := rows.filter (·.range.contains u)

/-- What the last of the rows that cover a codepoint says of it. -/
def lastValue? (index : Nat) (valueOf? : String → Option α) (rows : List Row) (u : Nat) :
    Option α :=
  ((covering u rows).getLast?).bind (Row.value? index valueOf?)

/-- Each entry has the range of its row and what the row has in a field. -/
def ValuesOf (index : Nat) (valueOf? : String → Option α) (rows : List Row)
    (entries : List (CodepointRange × α)) : Prop :=
  entries.map (fun entry => (entry.1, some entry.2)) =
    rows.map fun row => (row.range, row.value? index valueOf?)

/-- Reading values is reading rows and then a field of each. -/
theorem values_eq_ok {format : Format} {index : Nat} {valueOf? : String → Option α} {text : String}
    {entries : List (CodepointRange × α)}
    (read : values format index valueOf? text = .ok entries) :
    ∃ lines, rows format text = .ok lines ∧ ValuesOf index valueOf? lines entries := by
  rw [values] at read
  simp only [rows]
  generalize items format text = found at read ⊢
  induction found generalizing entries with
  | nil =>
    cases read
    exact ⟨[], rfl, rfl⟩
  | cons item rest ih =>
    obtain ⟨entry, later, first, others, rfl⟩ := mapM_cons_eq_ok read
    obtain ⟨lines, listed, same⟩ := ih others
    cases item with
    | error fault => contradiction
    | ok row =>
      refine ⟨row :: lines, ?_, ?_⟩
      · rw [List.mapM_cons, listed]
        rfl
      · simp only at first
        split at first
        · rename_i value known
          cases first
          rw [ValuesOf] at same ⊢
          simp only [List.map_cons, same, Row.value?, known]
        · contradiction

namespace ValuesOf

variable {index : Nat} {valueOf? : String → Option α} {rows : List Row}
  {entries : List (CodepointRange × α)} (same : ValuesOf index valueOf? rows entries)
include same

theorem known {row : Row} (member : row ∈ rows) : (row.value? index valueOf?).isSome = true := by
  have pair : (row.range, row.value? index valueOf?) ∈
      entries.map fun entry => (entry.1, some entry.2) :=
    same ▸ List.mem_map.mpr ⟨row, member, rfl⟩
  obtain ⟨entry, _, equal⟩ := List.mem_map.mp pair
  simp [← (Prod.mk.inj equal).2]

/-- The entries of a file and its rows say the same of a codepoint. -/
theorem lastAt?_eq (u : Nat) :
    CodepointMap.lastAt? entries u = lastValue? index valueOf? rows u := by
  have last := congrArg (fun pairs => ((pairs.filter (·.1.contains u)).getLast?).bind (·.2)) same
  simp only [List.filter_map, List.getLast?_map, Option.bind_map] at last
  rw [CodepointMap.lastAt?, lastValue?, Option.map_eq_bind]
  exact last

theorem covers_iff (u : Nat) :
    (∃ entry ∈ entries, entry.1.contains u = true) ↔ ∃ row ∈ rows, row.range.contains u = true := by
  have ranges := congrArg (fun pairs => pairs.map (·.1)) same
  simp only [List.map_map, Function.comp_def] at ranges
  have either : (∃ range ∈ entries.map (·.1), range.contains u = true) ↔
      ∃ range ∈ rows.map (·.range), range.contains u = true := by rw [ranges]
  simpa using either

end ValuesOf

theorem mem_rows {format : Format} {text : String} {lines : List Row}
    (read : rows format text = .ok lines) (row : Row) :
    row ∈ lines ↔ .ok row ∈ items format text := by
  rw [rows] at read
  generalize items format text = found at read ⊢
  induction found generalizing lines with
  | nil =>
    cases read
    simp
  | cons item rest ih =>
    obtain ⟨first, others, here, later, rfl⟩ := mapM_cons_eq_ok read
    obtain rfl : item = .ok first := here
    simp [ih later]

/-- Every item is what one of the lines gives. -/
theorem mem_itemsFrom {least line : Nat} {texts : List (List Char)} {item : Item} :
    item ∈ itemsFrom least line texts ↔ ∃ place text, texts[place]? = some text ∧
      item? least (line + place) text = some item := by
  induction texts generalizing line with
  | nil => simp [itemsFrom]
  | cons head rest ih =>
    have shifted : (∃ place text, (head :: rest)[place]? = some text ∧
          item? least (line + place) text = some item) ↔
        item? least line head = some item ∨ item ∈ itemsFrom least (line + 1) rest := by
      rw [ih]
      constructor
      · rintro ⟨place, text, found, gives⟩
        cases place with
        | zero =>
          obtain rfl : head = text := by simpa using found
          exact .inl gives
        | succ place =>
          refine .inr ⟨place, text, by simpa using found, ?_⟩
          rwa [Nat.add_assoc, Nat.add_comm 1]
      · rintro (gives | ⟨place, text, found, gives⟩)
        · exact ⟨0, head, rfl, gives⟩
        · refine ⟨place + 1, text, by simpa using found, ?_⟩
          rwa [Nat.add_assoc, Nat.add_comm 1] at gives
    rw [shifted, itemsFrom]
    split
    · rename_i first gives
      simp [gives, @eq_comm _ item]
    · rename_i gives
      simp [gives]

/-- The range of a row lies in the codespace. -/
theorem range_of_item? {least line : Nat} {text : List Char} {row : Row}
    (gives : item? least line text = some (.ok row)) :
    row.range.first ≤ row.range.last ∧ row.range.last ≤ maxCodepoint := by
  simp only [item?] at gives
  split at gives
  · contradiction
  · simp only [Option.some.injEq, rowOf] at gives
    split at gives
    · contradiction
    · split at gives
      · rename_i range read
        cases gives
        have bounds := (Option.filter_eq_some_iff.mp read).2
        simpa using bounds
      · contradiction

theorem range_of_rows {format : Format} {text : String} {lines : List Row}
    (read : rows format text = .ok lines) {row : Row} (member : row ∈ lines) :
    row.range.first ≤ row.range.last ∧ row.range.last ≤ maxCodepoint := by
  obtain ⟨place, line, _, gives⟩ := mem_itemsFrom.mp ((mem_rows read row).mp member)
  exact range_of_item? gives

/-- A line as it is read, given the lines before it, where rows below a marker may be
commented out. -/
def lineBelow (marker : List Char) (earlier : List (List Char)) (line : List Char) : List Char :=
  if earlier.any (Text.occursIn marker) then uncomment line else line

theorem getElem?_uncommentBelow (marker : List Char) (texts : List (List Char)) (place : Nat) :
    (uncommentBelow marker texts)[place]? =
      texts[place]?.map (lineBelow marker (texts.take place)) := by
  induction texts generalizing place with
  | nil => simp [uncommentBelow]
  | cons head rest ih =>
    rw [uncommentBelow]
    cases place with
    | zero => simp [lineBelow]
    | succ place =>
      cases marks : Text.occursIn marker head with
      | true =>
        have below : lineBelow marker (head :: rest.take place) = uncomment := by
          funext line
          simp [lineBelow, marks]
        simp [below]
      | false =>
        have above : lineBelow marker (head :: rest.take place) =
            lineBelow marker (rest.take place) := by
          funext line
          simp [lineBelow, marks]
        simp [above, ih]

/-- The rows of a text in which rows below a marker may be commented out. -/
theorem mem_rows_marked {least : Nat} {marker text : String} {lines : List Row}
    (read : rows ⟨least, some marker⟩ text = .ok lines) (row : Row) :
    row ∈ lines ↔ ∃ place line, (Text.lines text.toList)[place]? = some line ∧
      item? (max least 1) (1 + place)
        (lineBelow marker.toList ((Text.lines text.toList).take place) line) = some (.ok row) := by
  rw [mem_rows read, items, mem_itemsFrom]
  simp only [Format.lines, getElem?_uncommentBelow, Option.map_eq_some_iff]
  constructor
  · rintro ⟨place, _, ⟨line, found, rfl⟩, gives⟩
    exact ⟨place, line, found, gives⟩
  · rintro ⟨place, line, found, gives⟩
    exact ⟨place, _, ⟨line, found, rfl⟩, gives⟩

end DataFile

end ShapingTables
