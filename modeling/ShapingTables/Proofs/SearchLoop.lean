import ShapingTables.Prohibition.Search
import ShapingTables.Proofs.DataLines
import ShapingTables.Proofs.DottedCircles

/-! The search of a buffer as a loop over its places. What has been put out at a place and what is
still to come behind it make up the rewritten buffer; each turn keeps this and comes further, so
the loop ends at the end of the buffer and no place is outside it. -/
namespace ShapingTables.GlyphBuffer

/-- The glyphs of a buffer with a circle in front of each run. -/
def rewritten (run? : List Nat → Option Nat) (glyphs : List Glyph) : List Glyph :=
  insertCircles glyphs (runMarks run? 0 (glyphs.map (·.codepoint)))

def anyRun (run? : List Nat → Option Nat) (glyphs : List Glyph) : Bool :=
  (runMarks run? 0 (glyphs.map (·.codepoint))).contains true

/-- The glyphs of a run that has begun before are copied. -/
theorem insertCircles_skip (run? : List Nat → Option Nat) (skip : Nat) (glyphs : List Glyph) :
    insertCircles glyphs (runMarks run? skip (glyphs.map (·.codepoint))) =
      glyphs.take skip ++ rewritten run? (glyphs.drop skip) := by
  induction glyphs generalizing skip with
  | nil => cases skip <;> rfl
  | cons glyph rest ih =>
    cases skip with
    | zero => rfl
    | succ skip =>
      rw [List.map_cons, runMarks, insertCircles_cons, ih]
      rfl

section

variable {run? : List Nat → Option Nat} {glyph : Glyph} {rest : List Glyph}

theorem rewritten_run {length : Nat}
    (matched : run? ((glyph :: rest).map (·.codepoint)) = some (length + 1)) :
    rewritten run? (glyph :: rest) = ⟨dottedCircle, glyph.cluster, false⟩ ::
      ((glyph :: rest).take (length + 1) ++ rewritten run? ((glyph :: rest).drop (length + 1))) := by
  rw [List.map_cons] at matched
  rw [rewritten, List.map_cons, runMarks, matched]
  simp only [Nat.add_sub_cancel, insertCircles_cons, insertCircles_skip]
  rfl

theorem anyRun_run {length : Nat}
    (matched : run? ((glyph :: rest).map (·.codepoint)) = some length) :
    anyRun run? (glyph :: rest) = true := by
  rw [List.map_cons] at matched
  simp [anyRun, runMarks, matched]

theorem rewritten_none (unmatched : run? ((glyph :: rest).map (·.codepoint)) = none) :
    rewritten run? (glyph :: rest) = glyph :: rewritten run? rest := by
  rw [List.map_cons] at unmatched
  rw [rewritten, List.map_cons, runMarks, unmatched]
  simp only [insertCircles_cons]
  rfl

theorem anyRun_none (unmatched : run? ((glyph :: rest).map (·.codepoint)) = none) :
    anyRun run? (glyph :: rest) = anyRun run? rest := by
  rw [List.map_cons] at unmatched
  simp [anyRun, runMarks, unmatched]

end

theorem anyRun_never (glyphs : List Glyph) : anyRun (fun _ => none) glyphs = false := by
  induction glyphs with
  | nil => rfl
  | cons glyph rest ih => rw [anyRun_none rfl, ih]

/-- A buffer without runs stays as it is. -/
theorem rewritten_of_anyRun {run? : List Nat → Option Nat} {glyphs : List Glyph}
    (none : anyRun run? glyphs = false) : rewritten run? glyphs = glyphs := by
  induction glyphs with
  | nil => rfl
  | cons glyph rest ih =>
    cases matched : run? ((glyph :: rest).map (·.codepoint)) with
    | some length =>
      rw [anyRun_run matched] at none
      contradiction
    | none =>
      rw [anyRun_none matched] at none
      rw [rewritten_none matched, ih none]

theorem between_eq_ok {items part : List α} {start stop : Nat} :
    between items start stop = .ok part ↔
      (start ≤ stop ∧ stop ≤ items.length) ∧ (items.drop start).take (stop - start) = part := by
  rw [between]
  split <;> simp_all

theorem itemAt_eq_ok {items : List α} {place : Nat} {item : α} :
    itemAt items place = .ok item ↔ items[place]? = some item := by
  rw [itemAt]
  cases items[place]? <;> simp

/-- Every run that is found has a length and ends inside the codepoints. -/
def Bounded (run? : List Nat → Option Nat) : Prop :=
  ∀ codepoints length, run? codepoints = some length → 1 ≤ length ∧ length ≤ codepoints.length

namespace Search

/-- The part of the answer in front of the place. As long as there is no run it is not copied. -/
def front (buffer : GlyphBuffer) (search : Search) : List Glyph :=
  if search.fixed then search.output else buffer.glyphs.take search.place

/-- The search has come to its place. -/
structure Reached (run? : List Nat → Option Nat) (buffer : GlyphBuffer) (search : Search) :
    Prop where
  inside : search.place ≤ buffer.glyphs.length
  closed : search.fixed = false → search.output = []
  glyphs : search.front buffer ++ rewritten run? (buffer.glyphs.drop search.place) =
    rewritten run? buffer.glyphs
  any : (search.fixed || anyRun run? (buffer.glyphs.drop search.place)) =
    anyRun run? buffer.glyphs

variable {run? : List Nat → Option Nat} {buffer : GlyphBuffer} {search : Search}

theorem reached_start (run? : List Nat → Option Nat) (buffer : GlyphBuffer) :
    Reached run? buffer start :=
  ⟨Nat.zero_le _, fun _ => rfl, rfl, rfl⟩

theorem Reached.opened (reached : Reached run? buffer search) :
    search.opened buffer = .ok (search.front buffer) := by
  rw [Search.opened, front]
  cases fixed : search.fixed with
  | true => rfl
  | false =>
    have passed : between buffer.glyphs 0 search.place = .ok (buffer.glyphs.take search.place) :=
      between_eq_ok.mpr ⟨⟨Nat.zero_le _, reached.inside⟩, rfl⟩
    simp [passed, reached.closed fixed, Except.map]

/-- A run is put out behind its circle, and the search goes on behind the run. -/
theorem Reached.found (reached : Reached run? buffer search) {glyph : Glyph} {rest : List Glyph}
    (split : buffer.glyphs.drop search.place = glyph :: rest) {length : Nat}
    (matched : run? ((glyph :: rest).map (·.codepoint)) = some (length + 1))
    (fits : length ≤ rest.length) :
    ∃ next, search.found buffer (length + 1) = .ok next ∧
      next.place = search.place + (length + 1) ∧ Reached run? buffer next := by
  have present : buffer.glyphs[search.place]? = some glyph := by
    rw [← List.head?_drop, split, List.head?_cons]
  have size := congrArg List.length split
  rw [List.length_drop, List.length_cons] at size
  have ends : search.place + (length + 1) ≤ buffer.glyphs.length := by omega
  have run : between buffer.glyphs search.place (search.place + (length + 1)) =
      .ok ((glyph :: rest).take (length + 1)) :=
    between_eq_ok.mpr ⟨⟨Nat.le_add_right .., ends⟩, by rw [split, Nat.add_sub_cancel_left]⟩
  refine ⟨⟨search.place + (length + 1), search.front buffer ++
    [⟨dottedCircle, glyph.cluster, false⟩] ++ (glyph :: rest).take (length + 1), true⟩, ?_, rfl,
    ends, nofun, ?_, ?_⟩
  · rw [Search.found, reached.opened, itemAt_eq_ok.mpr present, run]
    rfl
  · have later : buffer.glyphs.drop (search.place + (length + 1)) =
        (glyph :: rest).drop (length + 1) := by rw [← split, List.drop_drop]
    rw [← reached.glyphs, split, rewritten_run matched]
    simp [front, later]
  · rw [← reached.any, split, anyRun_run matched, Bool.or_true]
    rfl

/-- Where no run begins the search goes on behind the glyph. -/
theorem Reached.passed (reached : Reached run? buffer search) {glyph : Glyph} {rest : List Glyph}
    (split : buffer.glyphs.drop search.place = glyph :: rest)
    (unmatched : run? ((glyph :: rest).map (·.codepoint)) = none) :
    ∃ next, search.passed buffer = .ok next ∧ next.place = search.place + 1 ∧
      Reached run? buffer next := by
  have present : buffer.glyphs[search.place]? = some glyph := by
    rw [← List.head?_drop, split, List.head?_cons]
  have size := congrArg List.length split
  rw [List.length_drop, List.length_cons] at size
  have ends : search.place + 1 ≤ buffer.glyphs.length := by omega
  have later : buffer.glyphs.drop (search.place + 1) = rest := by
    rw [← List.drop_drop, split, List.drop_one, List.tail_cons]
  obtain ⟨_, closed, glyphs, any⟩ := reached
  rw [split, rewritten_none unmatched] at glyphs
  rw [split, anyRun_none unmatched] at any
  rw [Search.passed]
  cases fixed : search.fixed with
  | true =>
    refine ⟨⟨search.place + 1, search.output ++ [glyph], true⟩, ?_, rfl, ends, nofun, ?_, ?_⟩
    · rw [itemAt_eq_ok.mpr present]
      rfl
    · rw [← glyphs]
      simp [front, fixed, later]
    · rw [← any, later, fixed]
  | false =>
    refine ⟨⟨search.place + 1, search.output, false⟩, rfl, rfl, ends, fun _ => closed fixed, ?_, ?_⟩
    · have longer : buffer.glyphs.take (search.place + 1) =
          buffer.glyphs.take search.place ++ [glyph] := by
        rw [List.take_add_one, present, Option.toList_some]
      rw [← glyphs]
      simp [front, fixed, later, longer]
    · rw [← any, later, fixed]

/-- As long as there is a glyph a turn comes to a later place. -/
theorem Reached.turn (bounded : Bounded run?) (reached : Reached run? buffer search)
    (below : search.place < buffer.glyphs.length) :
    ∃ next, search.turn run? buffer = .ok next ∧ search.place < next.place ∧
      Reached run? buffer next := by
  have split := List.drop_eq_getElem_cons below
  have behind : between buffer.codepoints search.place buffer.codepoints.length =
      .ok ((buffer.glyphs[search.place] :: buffer.glyphs.drop (search.place + 1)).map
        (·.codepoint)) := by
    rw [between_eq_ok, ← split, codepoints, List.length_map]
    refine ⟨⟨reached.inside, Nat.le_refl _⟩, ?_⟩
    rw [← List.map_drop, List.take_of_length_le (by simp)]
  rw [Search.turn, behind]
  simp only [Bind.bind, Except.bind]
  cases matched : run? ((buffer.glyphs[search.place] :: buffer.glyphs.drop (search.place + 1)).map
      (·.codepoint)) with
  | some length =>
    obtain ⟨positive, fits⟩ := bounded _ _ matched
    obtain ⟨less, rfl⟩ := Nat.exists_eq_add_of_le' positive
    rw [List.length_map, List.length_cons] at fits
    obtain ⟨next, found, place, later⟩ := reached.found split matched (by omega)
    exact ⟨next, found, by omega, later⟩
  | none =>
    obtain ⟨next, passed, place, later⟩ := reached.passed split matched
    exact ⟨next, passed, by omega, later⟩

/-- One unit of fuel for each glyph that is left and one for the end are enough. -/
theorem Reached.loop (bounded : Bounded run?) {fuel : Nat} (reached : Reached run? buffer search)
    (enough : buffer.glyphs.length - search.place < fuel) :
    ∃ last, search.loop run? buffer fuel = .ok last ∧ last.place = buffer.glyphs.length ∧
      Reached run? buffer last := by
  induction fuel generalizing search with
  | zero => omega
  | succ fuel ih =>
    rw [Search.loop]
    rcases Nat.eq_or_lt_of_le reached.inside with done | below
    · rw [if_neg (by omega)]
      exact ⟨search, rfl, done, reached⟩
    · obtain ⟨next, turned, forward, later⟩ := reached.turn bounded below
      rw [if_pos below, turned]
      exact ih later (by omega)

end Search

section

variable {run? : List Nat → Option Nat} {fuel : Nat}

/-- A search rewrites the buffer, whatever bounded runs it looks for. -/
theorem search_eq (bounded : Bounded run?) {buffer : GlyphBuffer}
    (enough : buffer.glyphs.length < fuel) :
    buffer.search run? fuel = .ok (if buffer.withoutDottedCircles then (buffer, false)
      else ({ buffer with glyphs := rewritten run? buffer.glyphs }, anyRun run? buffer.glyphs)) := by
  rw [search]
  split
  · rfl
  · obtain ⟨last, looped, place, reached⟩ :=
      (Search.reached_start run? buffer).loop bounded (Nat.lt_of_le_of_lt (Nat.sub_le ..) enough)
    obtain ⟨_, _, glyphs, any⟩ := reached
    rw [place, List.drop_length] at glyphs any
    have front : last.front buffer = rewritten run? buffer.glyphs := by
      rw [← glyphs]
      exact (List.append_nil _).symm
    have fixed : last.fixed = anyRun run? buffer.glyphs := by
      rw [← any]
      exact (Bool.or_false _).symm
    rw [looped, ← fixed]
    cases found : last.fixed with
    | true =>
      rw [← front, Search.front, if_pos found]
      simp [Except.map, found]
    | false =>
      rw [rewritten_of_anyRun (fixed ▸ found)]
      simp [Except.map, found]

end

section

variable {trie : SequenceTrie} {stored : List (List Nat)}

theorem bounded_of_records (records : trie.Records stored) : Bounded trie.matchLength? := by
  intro codepoints length matched
  have here := (sequenceAt_iff records codepoints 0 length).mpr matched
  have bounds := sequenceAt_bounds records here
  rwa [Nat.zero_add] at bounds

/-- The loop ends with what the marks of the runs say, and no place is outside the buffer. -/
theorem search_eq_fix (records : trie.Records stored) {buffer : GlyphBuffer} {fuel : Nat}
    (enough : buffer.glyphs.length < fuel) :
    buffer.search trie.matchLength? fuel = .ok (buffer.fix trie) := by
  rw [search_eq (bounded_of_records records) enough, fix]
  rfl

/-- After any history of insertions a trie can be searched with. -/
theorem search_afterAttempts (script : String) (attempts : List (List Nat)) {buffer : GlyphBuffer}
    {fuel : Nat} (enough : buffer.glyphs.length < fuel) :
    buffer.search (SequenceTrie.afterAttempts script attempts).1.matchLength? fuel =
      .ok (buffer.fix (SequenceTrie.afterAttempts script attempts).1) :=
  search_eq_fix (SequenceTrie.afterAttempts_records script attempts) enough

end

end ShapingTables.GlyphBuffer
