import ShapingTables.Proofs.Generated.Reader
import ShapingTables.Proofs.Generated.Rewriting
import ShapingTables.Proofs.MatcherOrder
import ShapingTables.Proofs.SearchLoop

/-! The program that rewrites a buffer does what the search of the library does. Each kind of
statement has a rule without fuel; turn by turn the variables of the program hold what the search
has come to, so both put out the same and both end. -/
namespace ShapingTables.BufferProgram

open GlyphBuffer (Search between itemAt between_eq_ok itemAt_eq_ok Bounded)
open Text (Outline)

/-- With enough fuel a statement comes to an outcome. -/
def Ends (run? : List Nat → Option Nat) (statement : Statement) (state : State)
    (outcome : Outcome) : Prop :=
  ∃ least, ∀ fuel, least ≤ fuel → exec run? fuel statement state = outcome

/-- With enough fuel statements one after the other come to an outcome. -/
def AllEnd (run? : List Nat → Option Nat) (statements : List Statement) (state : State)
    (outcome : Outcome) : Prop :=
  ∃ least, ∀ fuel, least ≤ fuel → execAll run? fuel statements state = outcome

section

variable {run? : List Nat → Option Nat} {state next : State} {outcome : Outcome}
  {statement : Statement} {statements body : List Statement}

/-- A statement without others inside it needs one unit. -/
theorem Ends.once (step : ∀ fuel, exec run? (fuel + 1) statement state = outcome) :
    Ends run? statement state outcome := by
  refine ⟨1, fun fuel enough => ?_⟩
  obtain ⟨less, rfl⟩ := Nat.exists_eq_add_of_le' enough
  exact step less

theorem AllEnd.nil (run? : List Nat → Option Nat) (state : State) :
    AllEnd run? [] state (.going state) := by
  refine ⟨1, fun fuel enough => ?_⟩
  obtain ⟨less, rfl⟩ := Nat.exists_eq_add_of_le' enough
  rw [execAll]

theorem AllEnd.cons (first : Ends run? statement state (.going next))
    (rest : AllEnd run? statements next outcome) :
    AllEnd run? (statement :: statements) state outcome := by
  obtain ⟨least, ends⟩ := first
  obtain ⟨leastRest, endsRest⟩ := rest
  refine ⟨max least leastRest + 1, fun fuel enough => ?_⟩
  obtain ⟨less, rfl⟩ := Nat.exists_eq_add_of_le' (Nat.le_trans (Nat.le_add_left 1 _) enough)
  rw [execAll, ends less (by omega)]
  exact endsRest less (by omega)

/-- An answer leaves the statements behind it alone. -/
theorem AllEnd.answered {value : Bool} {buffer : GlyphBuffer}
    (first : Ends run? statement state (.answered value buffer)) (rest : List Statement) :
    AllEnd run? (statement :: rest) state (.answered value buffer) := by
  obtain ⟨least, ends⟩ := first
  refine ⟨least + 1, fun fuel enough => ?_⟩
  obtain ⟨less, rfl⟩ := Nat.exists_eq_add_of_le' (Nat.le_trans (Nat.le_add_left 1 _) enough)
  rw [execAll, ends less (by omega)]

theorem AllEnd.within (ends : AllEnd run? body state outcome)
    (step : ∀ fuel, exec run? (fuel + 1) statement next = execAll run? fuel body state) :
    Ends run? statement next outcome := by
  obtain ⟨least, all⟩ := ends
  refine ⟨least + 1, fun fuel enough => ?_⟩
  obtain ⟨less, rfl⟩ := Nat.exists_eq_add_of_le' (Nat.le_trans (Nat.le_add_left 1 _) enough)
  rw [step]
  exact all less (by omega)

variable {test : Test} {low high place : Number} {found otherwise : List Statement}
  {length : String}

theorem Ends.whenTrue (holds : test.eval state = true) (ends : AllEnd run? body state outcome) :
    Ends run? (.when test body) state outcome :=
  ends.within fun _ => if_pos holds

theorem Ends.whenFalse (fails : test.eval state = false) :
    Ends run? (.when test body) state (.going state) :=
  .once fun _ => if_neg (Bool.eq_false_iff.mp fails)

theorem Ends.whileDone (done : high.eval state ≤ low.eval state) :
    Ends run? (.whileBelow low high body) state (.going state) :=
  .once fun _ => if_neg (Nat.not_lt.mpr done)

theorem Ends.whileStep (below : low.eval state < high.eval state)
    (first : AllEnd run? body state (.going next))
    (rest : Ends run? (.whileBelow low high body) next outcome) :
    Ends run? (.whileBelow low high body) state outcome := by
  obtain ⟨least, ends⟩ := first
  obtain ⟨leastRest, endsRest⟩ := rest
  refine ⟨max least leastRest + 1, fun fuel enough => ?_⟩
  obtain ⟨less, rfl⟩ := Nat.exists_eq_add_of_le' (Nat.le_trans (Nat.le_add_left 1 _) enough)
  refine (if_pos below).trans ?_
  rw [ends less (by omega)]
  exact endsRest less (by omega)

theorem Ends.matchFound {value : Nat} (inside : place.eval state ≤ state.codepoints.length)
    (matched : run? (state.codepoints.drop (place.eval state)) = some value)
    (ends : AllEnd run? found (state.setNumber length value) outcome) :
    Ends run? (.matchRun place length found otherwise) state outcome :=
  ends.within fun _ => (if_neg (Nat.not_lt.mpr inside)).trans (by rw [matched])

theorem Ends.matchNone (inside : place.eval state ≤ state.codepoints.length)
    (unmatched : run? (state.codepoints.drop (place.eval state)) = none)
    (ends : AllEnd run? otherwise state outcome) :
    Ends run? (.matchRun place length found otherwise) state outcome :=
  ends.within fun _ => (if_neg (Nat.not_lt.mpr inside)).trans (by rw [unmatched])

end

/-- Opens the output with the glyphs that have been passed, unless it is open. -/
def opening : Statement :=
  .when (.negation "fixed") [
    .reserve (.plus .codepointCount (.literal 1)),
    .copyFront (.variable "i"),
    .raiseFlag "fixed"]

/-- What is done at the start of a run. -/
def foundTurn : List Statement := [
  opening,
  .putCircle (.variable "i"),
  .copyBetween (.variable "i") (.plus (.variable "i") (.variable "len")),
  .increase "i" (.variable "len")]

def passedTurn : List Statement := [
  .when (.variable "fixed") [.copyGlyph (.variable "i")],
  .increase "i" (.literal 1)]

def turn : List Statement := [.matchRun (.variable "i") "len" foundTurn passedTurn]

def loop : Statement := .whileBelow (.variable "i") .codepointCount turn

/-- The program has come as far as a search of the buffer. -/
structure Mirrors (buffer : GlyphBuffer) (search : Search) (state : State) : Prop where
  held : state.buffer = buffer
  codepoints : state.codepoints = buffer.codepoints
  place : state.numbers "i" = search.place
  output : state.output = search.output
  fixed : state.flags "fixed" = search.fixed

section

variable {run? : List Nat → Option Nat} {buffer : GlyphBuffer} {search next : Search}
  {state : State}

theorem Ends.copy {statement : Statement} {part : List Glyph} {start stop : Nat}
    (copied : between state.buffer.glyphs start stop = .ok part)
    (step : ∀ fuel, exec run? (fuel + 1) statement state = state.copy start stop) :
    Ends run? statement state (.going (state.append part)) := by
  obtain ⟨inside, rfl⟩ := between_eq_ok.mp copied
  exact .once fun fuel => by rw [step, State.copy, if_pos inside]

theorem Ends.glyph {statement : Statement} {glyph : Glyph} {place : Nat}
    (put : Glyph → List Glyph) (present : itemAt state.buffer.glyphs place = .ok glyph)
    (step : ∀ fuel, exec run? (fuel + 1) statement state =
      state.withGlyph place fun glyph => .going (state.append (put glyph))) :
    Ends run? statement state (.going (state.append (put glyph))) :=
  .once fun fuel => by rw [step, State.withGlyph, itemAt_eq_ok.mp present]

/-- Raising a flag that is raised changes nothing. -/
theorem State.setFlag_self {name : String} (raised : state.flags name = true) :
    state.setFlag name true = state := by
  have same : (fun other => if other = name then true else state.flags other) = state.flags := by
    funext other
    split
    · rename_i equal
      rw [equal, raised]
    · rfl
  rw [setFlag, same]

theorem Mirrors.opening (mirrors : Mirrors buffer search state) {front : List Glyph}
    (opened : search.opened buffer = .ok front) :
    Ends run? opening state (.going ({ state with output := front }.setFlag "fixed" true)) := by
  obtain ⟨rfl, _, place, output, fixed⟩ := mirrors
  rw [Search.opened] at opened
  cases found : search.fixed with
  | true =>
    rw [if_pos found] at opened
    cases opened
    rw [found] at fixed
    have same : { state with output := search.output }.setFlag "fixed" true = state := by
      rw [← output]
      exact State.setFlag_self fixed
    rw [same]
    exact .whenFalse (by simp [Test.eval, fixed])
  | false =>
    rw [if_neg (by simp [found])] at opened
    obtain ⟨passed, copied, rfl⟩ := map_eq_ok opened
    rw [← place] at copied
    have copies : Ends run? (.copyFront (.variable "i")) state (.going (state.append passed)) :=
      .copy copied fun _ => rfl
    rw [found] at fixed
    refine .whenTrue (by simp [Test.eval, fixed]) ?_
    rw [← output]
    exact .cons (.once fun _ => rfl) (.cons copies (.cons (.once fun _ => rfl) (.nil ..)))

/-- At the start of a run the program puts out what the search puts out. -/
theorem Mirrors.found (mirrors : Mirrors buffer search state) {length : Nat}
    (found : search.found buffer length = .ok next) :
    ∃ after, AllEnd run? foundTurn (state.setNumber "len" length) (.going after) ∧
      Mirrors buffer next after := by
  obtain ⟨front, passed, found⟩ := bind_eq_ok found
  obtain ⟨glyph, present, found⟩ := bind_eq_ok found
  obtain ⟨run, copied, found⟩ := bind_eq_ok found
  cases found
  let bound := state.setNumber "len" length
  have mirrorsBound : Mirrors buffer search bound :=
    ⟨mirrors.held, mirrors.codepoints, mirrors.place, mirrors.output, mirrors.fixed⟩
  let opened := { bound with output := front }.setFlag "fixed" true
  have opens : Ends run? BufferProgram.opening bound (.going opened) := mirrorsBound.opening passed
  obtain ⟨rfl, codepoints, place, _, _⟩ := mirrors
  rw [← place] at present copied
  let circled := opened.append [⟨dottedCircle, glyph.cluster, false⟩]
  have circles : Ends run? (.putCircle (.variable "i")) opened (.going circled) :=
    .glyph (fun glyph => [⟨dottedCircle, glyph.cluster, false⟩]) present fun _ => rfl
  have copies : Ends run? (.copyBetween (.variable "i") (.plus (.variable "i") (.variable "len")))
      circled (.going (circled.append run)) :=
    .copy copied fun _ => rfl
  refine ⟨(circled.append run).setNumber "i" (state.numbers "i" + length), ?_, rfl, codepoints,
    congrArg (· + length) place, rfl, rfl⟩
  exact .cons opens (.cons circles (.cons copies (.cons (.once fun _ => rfl) (.nil ..))))

theorem Mirrors.passed (mirrors : Mirrors buffer search state)
    (passed : search.passed buffer = .ok next) :
    ∃ after, AllEnd run? passedTurn state (.going after) ∧ Mirrors buffer next after := by
  obtain ⟨rfl, codepoints, place, output, fixed⟩ := mirrors
  rw [Search.passed] at passed
  cases opened : search.fixed with
  | true =>
    rw [if_pos opened] at passed
    obtain ⟨glyph, present, rfl⟩ := map_eq_ok passed
    rw [← place] at present
    rw [opened] at fixed
    have copies : Ends run? (.copyGlyph (.variable "i")) state (.going (state.append [glyph])) :=
      .glyph ([·]) present fun _ => rfl
    refine ⟨(state.append [glyph]).setNumber "i" (state.numbers "i" + 1), ?_, rfl, codepoints,
      congrArg (· + 1) place, congrArg (· ++ [glyph]) output, fixed⟩
    exact .cons (.whenTrue fixed (.cons copies (.nil ..))) (.cons (.once fun _ => rfl) (.nil ..))
  | false =>
    rw [if_neg (by simp [opened])] at passed
    cases passed
    rw [opened] at fixed
    refine ⟨state.setNumber "i" (state.numbers "i" + 1), ?_, rfl, codepoints,
      congrArg (· + 1) place, output, fixed⟩
    exact .cons (.whenFalse fixed) (.cons (.once fun _ => rfl) (.nil ..))

theorem Mirrors.turn (mirrors : Mirrors buffer search state)
    (turned : search.turn run? buffer = .ok next) :
    ∃ after, AllEnd run? turn state (.going after) ∧ Mirrors buffer next after := by
  obtain ⟨rest, behind, turned⟩ := bind_eq_ok turned
  obtain ⟨⟨inside, _⟩, all⟩ := between_eq_ok.mp behind
  rw [List.take_of_length_le (by simp)] at all
  have place : (Number.variable "i").eval state = search.place := mirrors.place
  have within : (Number.variable "i").eval state ≤ state.codepoints.length := by
    rwa [place, mirrors.codepoints]
  have here : state.codepoints.drop ((Number.variable "i").eval state) = rest := by
    rw [place, mirrors.codepoints, all]
  cases matched : run? rest with
  | some length =>
    rw [matched] at turned
    obtain ⟨after, ends, later⟩ := mirrors.found turned
    exact ⟨after, .cons (.matchFound within (here ▸ matched) ends) (.nil ..), later⟩
  | none =>
    rw [matched] at turned
    obtain ⟨after, ends, later⟩ := mirrors.passed turned
    exact ⟨after, .cons (.matchNone within (here ▸ matched) ends) (.nil ..), later⟩

/-- Where the search ends the loop of the program ends, as far as the search has come. -/
theorem Mirrors.loop (mirrors : Mirrors buffer search state) {fuel : Nat}
    (looped : search.loop run? buffer fuel = .ok next) :
    ∃ last, Ends run? loop state (.going last) ∧ Mirrors buffer next last := by
  induction fuel generalizing search state with
  | zero => contradiction
  | succ fuel ih =>
    have low : (Number.variable "i").eval state = search.place := mirrors.place
    have high : Number.codepointCount.eval state = buffer.glyphs.length := by
      rw [Number.eval, mirrors.codepoints, GlyphBuffer.codepoints, List.length_map]
    rw [Search.loop] at looped
    split at looped
    · rename_i below
      obtain ⟨further, turned, looped⟩ := bind_eq_ok looped
      obtain ⟨after, ends, later⟩ := mirrors.turn turned
      obtain ⟨last, others, done⟩ := ih later looped
      exact ⟨last, .whileStep (by rwa [low, high]) ends others, done⟩
    · rename_i behind
      cases looped
      exact ⟨state, .whileDone (by rw [low, high]; exact Nat.le_of_not_lt behind), mirrors⟩

/-- Where a search ends the program answers what it answers. -/
theorem withoutBlanks_run {fuel : Nat} {result : GlyphBuffer × Bool}
    (searched : buffer.search run? fuel = .ok result) :
    ∃ least, ∀ fuel, least ≤ fuel →
      scanAndFix.withoutBlanks.run run? fuel buffer = .answered result.2 result.1 := by
  rw [GlyphBuffer.search] at searched
  cases circles : buffer.withoutDottedCircles with
  | true =>
    rw [if_pos circles] at searched
    cases searched
    have opted : Test.eval (.start buffer) .withoutDottedCircles = true := circles
    have ends : AllEnd run? scanAndFix.withoutBlanks.body (.start buffer)
        (.answered false buffer) :=
      .answered (.whenTrue opted (.answered (.once fun _ => rfl) [])) _
    obtain ⟨least, ends⟩ := ends
    refine ⟨least, fun fuel enough => ?_⟩
    rw [Function.run, ends fuel enough]
  | false =>
    rw [if_neg (by simp [circles])] at searched
    obtain ⟨found, looped, answer⟩ := map_eq_ok searched
    have unopted : Test.eval (.start buffer) .withoutDottedCircles = false := circles
    let ready := (({ State.start buffer with codepoints := buffer.codepoints }.setFlag
      "fixed" false).setNumber "i" 0)
    have starts : Mirrors buffer .start ready := ⟨rfl, rfl, rfl, rfl, rfl⟩
    obtain ⟨last, loops, mirrors⟩ := starts.loop looped
    obtain ⟨held, _, _, output, fixed⟩ := mirrors
    have ends : ∃ state, AllEnd run? scanAndFix.withoutBlanks.body (.start buffer) (.going state) ∧
        state.flags "fixed" = result.2 ∧ state.buffer = result.1 := by
      cases opened : found.fixed with
      | true =>
        rw [if_pos opened] at answer
        rw [opened] at fixed
        refine ⟨{ last with buffer := { last.buffer with glyphs := last.output } }, ?_,
          answer ▸ fixed, by rw [← answer, held, output]⟩
        refine .cons (.whenFalse unopted) (.cons (.once fun _ => rfl) (.cons (.once fun _ => rfl)
          (.cons (.once fun _ => rfl) (.cons (.once fun _ => rfl) (.cons loops (.cons ?_
            (.nil ..)))))))
        exact .whenTrue fixed (.cons (.once fun _ => rfl) (.nil ..))
      | false =>
        rw [if_neg (by simp [opened])] at answer
        rw [opened] at fixed
        refine ⟨last, ?_, answer ▸ fixed, answer ▸ held⟩
        refine .cons (.whenFalse unopted) (.cons (.once fun _ => rfl) (.cons (.once fun _ => rfl)
          (.cons (.once fun _ => rfl) (.cons (.once fun _ => rfl) (.cons loops (.cons ?_
            (.nil ..)))))))
        exact .whenFalse fixed
    obtain ⟨state, ⟨least, ends⟩, answer, held⟩ := ends
    refine ⟨least, fun fuel enough => ?_⟩
    rw [Function.run, ends fuel enough, ← answer, ← held]
    rfl

end

section

variable {scripts : ScriptTable} {sequences : List ProhibitedSequence}
  {matchers : ScriptMatchers}

/-- What the matchers find at the start of codepoints of a script. -/
def matcherRun? (matchers : ScriptMatchers) (script : String) (codepoints : List Nat) :
    Option Nat :=
  (matchers.find? script).bind (·.matchLength? codepoints)

/-- A trie of built matchers holds the sequences of its script. -/
theorem find?_records (built : ScriptMatchers.ofSequences scripts sequences = .ok matchers)
    {script : String} {trie : SequenceTrie} (found : matchers.find? script = some trie) :
    trie.Records (ProhibitedSequence.ofScript scripts script sequences) := by
  rw [← ScriptMatchers.ofSequencesIn_id] at built
  obtain ⟨tries, settled, rfl⟩ := ScriptMatchers.ofSequencesIn_eq_ok built
  obtain ⟨member, rfl⟩ := (ScriptMatchers.find?_sorted settled.toGrouped script trie).mp found
  exact settled.records trie member

/-- Searching for the runs of a script's matcher does what built matchers do. A script without a
matcher has no runs. -/
theorem search_matcherRun? (built : ScriptMatchers.ofSequences scripts sequences = .ok matchers)
    (script : String) {buffer : GlyphBuffer} {fuel : Nat} (enough : buffer.glyphs.length < fuel) :
    buffer.search (matcherRun? matchers script) fuel = .ok (matchers.fix script buffer) := by
  rw [ScriptMatchers.fix]
  cases found : matchers.find? script with
  | some trie =>
    have same : matcherRun? matchers script = trie.matchLength? := by
      funext codepoints
      rw [matcherRun?, found, Option.bind_some]
    rw [same]
    exact GlyphBuffer.search_eq_fix (find?_records built found) enough
  | none =>
    have never : matcherRun? matchers script = fun _ => none := by
      funext codepoints
      rw [matcherRun?, found, Option.bind_none]
    have bounded : Bounded fun _ => none := fun _ _ matched => by contradiction
    have absent := GlyphBuffer.anyRun_never buffer.glyphs
    rw [never, GlyphBuffer.search_eq bounded enough, GlyphBuffer.rewritten_of_anyRun absent, absent,
      ite_self]

/-- The text of the program comes last in every listing. -/
theorem exists_listing (listing : MatcherListing) :
    ∃ front, listing.text = front ++ Outline.text [scanAndFix.outline] := by
  have last : listing.outlines.getLast? = some scanAndFix.outline := by
    rw [MatcherListing.outlines, List.getLast?_append]
    rfl
  obtain ⟨front, outlines⟩ := List.getLast?_eq_some_iff.mp last
  rw [MatcherListing.text, outlines, Generated.text_append]
  exact ⟨_, rfl⟩

/-- The text of the program is read as a function that does to every buffer what built matchers
do, provided that its runs are theirs. It always ends with an answer, so the loop comes to an end
and no place is outside the buffer. -/
theorem scanAndFix_fix (built : ScriptMatchers.ofSequences scripts sequences = .ok matchers)
    (script : String) (run? : List Nat → Option Nat)
    (same : ∀ codepoints, run? codepoints =
      (matchers.find? script).bind (·.matchLength? codepoints)) :
    ∃ front function,
      (MatcherListing.ofMatchers matchers).text = front ++ Outline.text [scanAndFix.outline] ∧
      Function.read? (Outline.text [scanAndFix.outline]) = some function ∧
      ∀ buffer, ∃ least, ∀ fuel, least ≤ fuel → function.run run? fuel buffer =
        .answered (matchers.fix script buffer).2 (matchers.fix script buffer).1 := by
  obtain rfl : run? = matcherRun? matchers script := funext same
  obtain ⟨front, listed⟩ := exists_listing (.ofMatchers matchers)
  refine ⟨front, _, listed, read?_scanAndFix, fun buffer => ?_⟩
  exact withoutBlanks_run (search_matcherRun? built script (Nat.lt_succ_self _))

end

open ScriptMatchers (twoScripts)

/-- Sequences that share their first codepoint. -/
def vowelSequences : List ProhibitedSequence := [⟨1, [0x0905, 0x0946]⟩, ⟨2, [0x0905, 0x0945]⟩]

def vowelMatchers : ScriptMatchers :=
  ⟨[⟨"Devanagari", some (.branch (.cons 0x0905
    (.branch (.cons 0x0945 (.chain []) (.cons 0x0946 (.chain []) .nil))) .nil))⟩]⟩

theorem ofSequences_vowelSequences :
    ScriptMatchers.ofSequences twoScripts vowelSequences = .ok vowelMatchers := by
  have tries : vowelSequences.foldlM (ScriptMatchers.add twoScripts) [] =
      .ok vowelMatchers.tries := rfl
  rw [ScriptMatchers.ofSequences, tries]
  simp [Except.map, vowelMatchers]

theorem scanAndFix_fix_vowelSequences :
    ScriptMatchers.ofSequences twoScripts vowelSequences = .ok vowelMatchers ∧
      ∃ function, Function.read? (Outline.text [scanAndFix.outline]) = some function ∧
        ∃ least, ∀ fuel, least ≤ fuel → function.run (matcherRun? vowelMatchers "Devanagari") fuel
          (.ofCodepoints [0x0915, 0x0905, 0x0946]) = .answered true ⟨[⟨0x0915, 0, false⟩,
            ⟨dottedCircle, 1, false⟩, ⟨0x0905, 1, false⟩, ⟨0x0946, 2, false⟩], false⟩ := by
  obtain ⟨_, function, _, read, runs⟩ := scanAndFix_fix ofSequences_vowelSequences "Devanagari"
    (matcherRun? vowelMatchers "Devanagari") fun _ => rfl
  exact ⟨ofSequences_vowelSequences, function, read, runs _⟩

end ShapingTables.BufferProgram
