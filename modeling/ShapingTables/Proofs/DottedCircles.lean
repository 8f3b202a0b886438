import ShapingTables.Prohibition.Buffer
import ShapingTables.Proofs.StoredSequences

/-! Where dotted circles go. The runs of a buffer are found by a search that goes
on behind each run, in terms of the stored sequences alone; the rewritten buffer
is the original one with a circle in front of each run and nothing else changed. -/
namespace ShapingTables.GlyphBuffer

/-- A stored sequence of this length stands at a place of the codepoints. -/
def SequenceAt (stored : List (List Nat)) (codepoints : List Nat) (start length : Nat) : Prop :=
  ∃ sequence ∈ stored, sequence <+: codepoints.drop start ∧ sequence.length = length

/-- The starts and lengths of the runs from a position on. Each run is the first
that starts there, and the next one is looked for behind its last codepoint. -/
inductive Runs (stored : List (List Nat)) (codepoints : List Nat) : Nat → List (Nat × Nat) → Prop
  | done : (∀ start length, position ≤ start → ¬SequenceAt stored codepoints start length) →
      Runs stored codepoints position []
  | run : position ≤ start →
      (∀ earlier length, position ≤ earlier → earlier < start →
        ¬SequenceAt stored codepoints earlier length) →
      SequenceAt stored codepoints start length →
      Runs stored codepoints (start + length) later →
      Runs stored codepoints position ((start, length) :: later)

/-- The glyphs with a circle in front of each of the places. A circle belongs to
the cluster of the glyph behind it. -/
def withCircles (starts : List Nat) (glyphs : List Glyph) : List Glyph :=
  glyphs.zipIdx.flatMap fun (glyph, index) =>
    if index ∈ starts then [⟨dottedCircle, glyph.cluster, false⟩, glyph] else [glyph]

theorem insertCircles_cons (glyph : Glyph) (glyphs : List Glyph) (marked : Bool)
    (marks : List Bool) : insertCircles (glyph :: glyphs) (marked :: marks) =
      (if marked then [⟨dottedCircle, glyph.cluster, false⟩, glyph] else [glyph]) ++
        insertCircles glyphs marks := by
  simp [insertCircles]

/-- Circles by marks and circles by places agree where the marks say which places. -/
theorem insertCircles_range (starts : List Nat) (glyphs : List Glyph) (position : Nat) :
    insertCircles glyphs
        ((List.range' position glyphs.length).map fun place => decide (place ∈ starts)) =
      (glyphs.zipIdx position).flatMap fun (glyph, index) =>
        if index ∈ starts then [⟨dottedCircle, glyph.cluster, false⟩, glyph] else [glyph] := by
  induction glyphs generalizing position with
  | nil => rfl
  | cons glyph glyphs ih =>
    rw [List.length_cons, List.range'_succ, List.map_cons, insertCircles_cons, ih,
      List.zipIdx_cons, List.flatMap_cons]
    simp

/-- The runs that the marks stand for, with their lengths. -/
def runsFrom (matchLength? : List Nat → Option Nat) : Nat → Nat → List Nat → List (Nat × Nat)
  | _, _, [] => []
  | position, skip + 1, _ :: rest => runsFrom matchLength? (position + 1) skip rest
  | position, 0, codepoint :: rest =>
    match matchLength? (codepoint :: rest) with
    | some length => (position, length) :: runsFrom matchLength? (position + 1) (length - 1) rest
    | none => runsFrom matchLength? (position + 1) 0 rest

theorem runsFrom_starts (matchLength? : List Nat → Option Nat) (position skip : Nat)
    (codepoints : List Nat) :
    ∀ run ∈ runsFrom matchLength? position skip codepoints, position + skip ≤ run.1 := by
  induction codepoints generalizing position skip with
  | nil => simp [runsFrom]
  | cons codepoint rest ih =>
    intro run member
    cases skip with
    | succ skip =>
      have := ih (position + 1) skip run member
      omega
    | zero =>
      rw [runsFrom] at member
      split at member
      · rcases List.mem_cons.mp member with rfl | member
        · exact Nat.le_refl _
        · have := ih _ _ run member
          omega
      · have := ih _ _ run member
        omega

/-- The marks are set exactly at the starts of the runs. -/
theorem runMarks_eq (matchLength? : List Nat → Option Nat) (position skip : Nat)
    (codepoints : List Nat) : runMarks matchLength? skip codepoints =
      (List.range' position codepoints.length).map fun place =>
        decide (place ∈ (runsFrom matchLength? position skip codepoints).map (·.1)) := by
  induction codepoints generalizing position skip with
  | nil => cases skip <;> rfl
  | cons codepoint rest ih =>
    have fresh : ∀ skip, position ∉
        (runsFrom matchLength? (position + 1) skip rest).map (·.1) := by
      intro skip member
      obtain ⟨run, origin, same⟩ := List.mem_map.mp member
      have := runsFrom_starts matchLength? (position + 1) skip rest run origin
      omega
    rw [List.length_cons, List.range'_succ, List.map_cons]
    cases skip with
    | succ skip =>
      rw [runMarks, runsFrom, ih (position + 1) skip, decide_eq_false (fresh skip)]
    | zero =>
      rw [runMarks, runsFrom]
      cases matchLength? (codepoint :: rest) with
      | some length =>
        simp only [List.map_cons, List.mem_cons, true_or, decide_true, ih (position + 1) (length - 1)]
        refine congrArg (true :: ·) (List.map_congr_left fun place member => ?_)
        have := (List.mem_range'_1.mp member).1
        simp [show place ≠ position by omega]
      | none => simp only [ih (position + 1) 0, decide_eq_false (fresh 0)]

theorem contains_runMarks (matchLength? : List Nat → Option Nat) (position skip : Nat)
    (codepoints : List Nat) : (runMarks matchLength? skip codepoints).contains true = true ↔
      runsFrom matchLength? position skip codepoints ≠ [] := by
  induction codepoints generalizing position skip with
  | nil => cases skip <;> simp [runMarks, runsFrom]
  | cons codepoint rest ih =>
    cases skip with
    | succ skip => simpa [runMarks, runsFrom] using ih (position + 1) skip
    | zero =>
      rw [runMarks, runsFrom]
      cases matchLength? (codepoint :: rest) with
      | some length => simp
      | none => simpa using ih (position + 1) 0

section

variable {trie : SequenceTrie} {stored : List (List Nat)} (records : trie.Records stored)
include records

/-- A match in the rest of the codepoints is a stored sequence at that place. -/
theorem sequenceAt_iff (codepoints : List Nat) (start length : Nat) :
    SequenceAt stored codepoints start length ↔
      trie.matchLength? (codepoints.drop start) = some length :=
  (SequenceTrie.matchLength?_records records (codepoints.drop start) length).symm

/-- No run is empty, and none reaches beyond the buffer. -/
theorem sequenceAt_bounds {codepoints : List Nat} {start length : Nat}
    (here : SequenceAt stored codepoints start length) :
    1 ≤ length ∧ start + length ≤ codepoints.length := by
  obtain ⟨sequence, member, begins, rfl⟩ := here
  have full : sequence ≠ [] := fun empty => records.nonempty (empty ▸ member)
  have long := List.length_pos_iff.mpr full
  have fits := begins.length_le
  rw [List.length_drop] at fits
  omega

theorem sequenceAt_unique {codepoints : List Nat} {start length other : Nat}
    (one : SequenceAt stored codepoints start length)
    (two : SequenceAt stored codepoints start other) : length = other := by
  rw [sequenceAt_iff records] at one two
  exact Option.some.inj (one.symm.trans two)

theorem runs_unique {codepoints : List Nat} {position : Nat} {one other : List (Nat × Nat)}
    (first : Runs stored codepoints position one)
    (second : Runs stored codepoints position other) : one = other := by
  induction first generalizing other with
  | done none =>
    cases second with
    | done _ => rfl
    | run after _ here _ => exact absurd here (none _ _ after)
  | @run position start length later after least here _ ih =>
    cases second with
    | done none => exact absurd here (none _ _ after)
    | @run _ begin size rest afterToo leastToo hereToo restToo =>
      have start_eq : start = begin := by
        rcases Nat.lt_trichotomy start begin with before | same | behind
        · exact absurd here (leastToo _ _ after before)
        · exact same
        · exact absurd hereToo (least _ _ afterToo behind)
      subst start_eq
      have length_eq := sequenceAt_unique records here hereToo
      subst length_eq
      rw [ih restToo]

omit records in
/-- Moving the position over a place at which no run starts changes nothing. -/
theorem runs_step {codepoints : List Nat} {position : Nat} {runs : List (Nat × Nat)}
    (none : ∀ length, ¬SequenceAt stored codepoints position length)
    (rest : Runs stored codepoints (position + 1) runs) : Runs stored codepoints position runs := by
  cases rest with
  | done absent =>
    refine .done fun start length after => ?_
    rcases Nat.eq_or_lt_of_le after with rfl | before
    · exact none length
    · exact absent start length before
  | run after least here later =>
    refine .run (by omega) (fun earlier length from_ before => ?_) here later
    rcases Nat.eq_or_lt_of_le from_ with rfl | behind
    · exact none length
    · exact least earlier length behind before

/-- The search of the library finds the runs. -/
theorem runsFrom_runs (codepoints : List Nat) (position skip : Nat) (rest : List Nat)
    (split : codepoints.drop position = rest) (fits : skip ≤ rest.length) :
    Runs stored codepoints (position + skip) (runsFrom trie.matchLength? position skip rest) := by
  induction rest generalizing position skip with
  | nil =>
    refine .done fun start length after here => ?_
    have bounds := sequenceAt_bounds records here
    have size := congrArg List.length split
    rw [List.length_drop, List.length_nil] at size
    omega
  | cons codepoint rest ih =>
    have next : codepoints.drop (position + 1) = rest := by
      rw [← List.drop_drop, split, List.drop_one, List.tail_cons]
    cases skip with
    | succ skip =>
      have later := ih (position + 1) skip next (by simpa using fits)
      rwa [Nat.add_right_comm] at later
    | zero =>
      rw [runsFrom, ← split]
      split
      · rename_i length matched
        have here := (sequenceAt_iff records codepoints position length).mpr matched
        have bounds := sequenceAt_bounds records here
        have size := congrArg List.length split
        rw [List.length_drop, List.length_cons] at size
        have later := ih (position + 1) (length - 1) next (by omega)
        rw [show position + 1 + (length - 1) = position + length by omega] at later
        exact .run (Nat.le_refl _) (fun earlier _ from_ before => by omega) here later
      · rename_i unmatched
        apply runs_step
        · intro length here
          rw [Nat.add_zero, sequenceAt_iff records, unmatched] at here
          contradiction
        · exact ih (position + 1) 0 next (Nat.zero_le _)

omit records in
theorem sequenceAt_of_runs {codepoints : List Nat} {position : Nat} {runs : List (Nat × Nat)}
    (found : Runs stored codepoints position runs) :
    ∀ run ∈ runs, SequenceAt stored codepoints run.1 run.2 := by
  induction found with
  | done _ => simp
  | run _ _ here _ ih =>
    intro run member
    rcases List.mem_cons.mp member with rfl | member
    · exact here
    · exact ih run member

omit records in
theorem runs_ne_nil {codepoints : List Nat} {runs : List (Nat × Nat)}
    (found : Runs stored codepoints 0 runs) :
    runs ≠ [] ↔ ∃ sequence ∈ stored, sequence <:+: codepoints := by
  constructor
  · intro some
    cases found with
    | done _ => contradiction
    | run _ _ here _ =>
      obtain ⟨sequence, member, begins, _⟩ := here
      exact ⟨sequence, member, begins.isInfix.trans (List.drop_suffix _ _).isInfix⟩
  · rintro ⟨sequence, member, front, back, rfl⟩ none
    subst none
    cases found with
    | done absent =>
      refine absent front.length sequence.length (Nat.zero_le _) ⟨sequence, member, ?_, rfl⟩
      rw [List.append_assoc, List.drop_left]
      exact List.prefix_append _ _

end

theorem fix_glyphs (trie : SequenceTrie) (buffer : GlyphBuffer)
    (circles : buffer.withoutDottedCircles = false) :
    (buffer.fix trie).1 = ⟨withCircles ((runsFrom trie.matchLength? 0 0 buffer.codepoints).map (·.1))
      buffer.glyphs, false⟩ := by
  have length : buffer.codepoints.length = buffer.glyphs.length := List.length_map ..
  rw [fix, if_neg (by simp [circles]), runMarks_eq trie.matchLength? 0 0, length]
  simp only [insertCircles_range, circles, withCircles]

theorem fix_answer (trie : SequenceTrie) (buffer : GlyphBuffer)
    (circles : buffer.withoutDottedCircles = false) :
    (buffer.fix trie).2 = true ↔ runsFrom trie.matchLength? 0 0 buffer.codepoints ≠ [] := by
  rw [fix, if_neg (by simp [circles])]
  exact contains_runMarks trie.matchLength? 0 0 buffer.codepoints

theorem withCircles_nil (glyphs : List Glyph) : withCircles [] glyphs = glyphs := by
  simp only [withCircles, List.not_mem_nil, if_false]
  rw [← List.map_eq_flatMap, List.zipIdx_map_fst]

/-- What rewriting a buffer comes to: nothing if circles are not wanted, and
otherwise a circle in front of each run of stored sequences and nowhere else. -/
structure Rewritten (stored : List (List Nat)) (buffer : GlyphBuffer)
    (result : GlyphBuffer × Bool) : Prop where
  kept : buffer.withoutDottedCircles = true → result = (buffer, false)
  fixed : buffer.withoutDottedCircles = false → ∃ runs : List (Nat × Nat),
    (∀ other, Runs stored buffer.codepoints 0 other ↔ other = runs) ∧
    (∀ run ∈ runs, 1 ≤ run.2 ∧ run.1 + run.2 ≤ buffer.glyphs.length) ∧
    result.1.glyphs = withCircles (runs.map (·.1)) buffer.glyphs ∧
    (result.2 = true ↔ runs ≠ []) ∧
    (result.2 = true ↔ ∃ sequence ∈ stored, sequence <:+: buffer.codepoints) ∧
    (result.2 = false → result.1 = buffer)
  flag : result.1.withoutDottedCircles = buffer.withoutDottedCircles

/-- After any history of insertions the trie rewrites a buffer by its stored sequences. -/
theorem fix_rewritten (script : String) (attempts : List (List Nat)) (buffer : GlyphBuffer) :
    Rewritten (SequenceTrie.afterAttempts script attempts).2 buffer
      (buffer.fix (SequenceTrie.afterAttempts script attempts).1) := by
  have records := SequenceTrie.afterAttempts_records script attempts
  generalize (SequenceTrie.afterAttempts script attempts).1 = trie at records ⊢
  have length : buffer.codepoints.length = buffer.glyphs.length := List.length_map ..
  refine ⟨?_, ?_, ?_⟩
  · intro kept
    rw [fix, if_pos kept]
  · intro circles
    have found := runsFrom_runs records buffer.codepoints 0 0 buffer.codepoints rfl (Nat.zero_le _)
    have answer := fix_answer trie buffer circles
    refine ⟨_, ?_, ?_, ?_, answer, answer.trans (runs_ne_nil found), ?_⟩
    · intro other
      constructor
      · exact fun runs => runs_unique records runs found
      · rintro rfl
        exact found
    · intro run member
      exact length ▸ sequenceAt_bounds records (sequenceAt_of_runs found run member)
    · rw [fix_glyphs trie buffer circles]
    · intro unfixed
      have none : runsFrom trie.matchLength? 0 0 buffer.codepoints = [] := by
        apply Classical.byContradiction
        intro some
        rw [answer.mpr some] at unfixed
        contradiction
      rw [fix_glyphs trie buffer circles, none, List.map_nil, withCircles_nil, ← circles]
  · cases circles : buffer.withoutDottedCircles with
    | true => rw [fix, if_pos circles, circles]
    | false => rw [fix_glyphs trie buffer circles]

end ShapingTables.GlyphBuffer
