import ShapingTables.Prohibition.Buffer
import ShapingTables.Text.Outline

/-! The generated matchers come with a loop over a glyph buffer. Here is the small
imperative language in which it is written, its text, and what it does. Running a program
takes fuel, one unit for each statement; an index outside a list ends the run with a fault
of its own. -/
namespace ShapingTables.BufferProgram

open Text (Outline)

inductive Number where
  | literal (value : Nat)
  | variable (name : String)
  | codepointCount
  | plus (left right : Number)
  deriving DecidableEq, Repr

inductive Test where
  | variable (name : String)
  | negation (name : String)
  | withoutDottedCircles
  deriving DecidableEq, Repr

inductive Statement where
  | blank
  | returnFalse
  | declareCodepoints
  | declareOutput
  | declareFlag (name : String)
  | declareNumber (name : String)
  | raiseFlag (name : String)
  | increase (name : String) (amount : Number)
  /-- Room for so many glyphs, which changes nothing else. -/
  | reserve (count : Number)
  /-- Copies the glyphs in front of a place to the output. -/
  | copyFront (stop : Number)
  | copyBetween (start stop : Number)
  | copyGlyph (place : Number)
  /-- Puts a dotted circle into the output, in the cluster of the glyph at a place. -/
  | putCircle (place : Number)
  | replaceGlyphs
  | when (test : Test) (body : List Statement)
  | whileBelow (low high : Number) (body : List Statement)
  /-- Looks for a run at a place and binds its length. -/
  | matchRun (place : Number) (length : String) (found otherwise : List Statement)

/-- The statements of a function and the flag that it answers at its end. -/
structure Function where
  body : List Statement
  answer : String

def Number.text : Number → String
  | .literal value => toString value
  | .variable name => name
  | .codepointCount => "codepoints.len()"
  | .plus left right => left.text ++ " + " ++ right.text

def Test.text : Test → String
  | .variable name => name
  | .negation name => "!" ++ name
  | .withoutDottedCircles => "buffer.do_not_insert_dotted_circle"

mutual

def Statement.outline : Statement → Outline
  | .blank => .line ""
  | .returnFalse => .line "return false;"
  | .declareCodepoints =>
    .line "let codepoints: Vec<u32> = buffer.glyphs.iter().map(|g| g.glyph).collect();"
  | .declareOutput => .line "let mut out: Vec<GlyphRecord> = Vec::new();"
  | .declareFlag name => .line ("let mut " ++ name ++ " = false;")
  | .declareNumber name => .line ("let mut " ++ name ++ " = 0;")
  | .raiseFlag name => .line (name ++ " = true;")
  | .increase name amount => .line (name ++ " += " ++ amount.text ++ ";")
  | .reserve count => .line ("out.reserve(" ++ count.text ++ ");")
  | .copyFront stop =>
    .line ("out.extend_from_slice(&buffer.glyphs[.." ++ stop.text ++ "]);")
  | .copyBetween start stop =>
    .line ("out.extend_from_slice(&buffer.glyphs[" ++ start.text ++ ".." ++ stop.text ++ "]);")
  | .copyGlyph place => .line ("out.push(buffer.glyphs[" ++ place.text ++ "]);")
  | .putCircle place => .block "out.push(GlyphRecord" [
      .line "glyph: DOTTED_CIRCLE,",
      .line ("cluster: buffer.glyphs[" ++ place.text ++ "].cluster,"),
      .line "continuation: false,"] ");"
  | .replaceGlyphs => .line "buffer.glyphs = out;"
  | .when test body => .block ("if " ++ test.text) (outlinesOf body) ""
  | .whileBelow low high body =>
    .block ("while " ++ low.text ++ " < " ++ high.text) (outlinesOf body) ""
  | .matchRun place length found otherwise =>
    .block ("match prohibited_run(script, &codepoints[" ++ place.text ++ "..])") [
      .block ("Some(" ++ length ++ ") =>") (outlinesOf found) "",
      .block "None =>" (outlinesOf otherwise) ""] ""

def outlinesOf : List Statement → List Outline
  | [] => []
  | statement :: rest => statement.outline :: outlinesOf rest

end

def Function.outline (function : Function) : Outline :=
  .block "pub fn scan_and_fix(buffer: &mut GlyphBuffer, script: &str) -> bool"
    (outlinesOf function.body ++ [.line function.answer]) ""

structure State where
  buffer : GlyphBuffer
  codepoints : List Nat
  output : List Glyph
  numbers : String → Nat
  flags : String → Bool

def State.start (buffer : GlyphBuffer) : State where
  buffer := buffer
  codepoints := []
  output := []
  numbers _ := 0
  flags _ := false

def State.setNumber (state : State) (name : String) (value : Nat) : State :=
  { state with numbers := fun other => if other = name then value else state.numbers other }

def State.setFlag (state : State) (name : String) (value : Bool) : State :=
  { state with flags := fun other => if other = name then value else state.flags other }

def State.append (state : State) (glyphs : List Glyph) : State :=
  { state with output := state.output ++ glyphs }

inductive Outcome where
  | going (state : State)
  | answered (value : Bool) (buffer : GlyphBuffer)
  | outOfBounds
  | outOfFuel

def Number.eval (state : State) : Number → Nat
  | .literal value => value
  | .variable name => state.numbers name
  | .codepointCount => state.codepoints.length
  | .plus left right => left.eval state + right.eval state

def Test.eval (state : State) : Test → Bool
  | .variable name => state.flags name
  | .negation name => !state.flags name
  | .withoutDottedCircles => state.buffer.withoutDottedCircles

/-- The glyphs between two places, which must be in order and inside the buffer. -/
def State.copy (state : State) (start stop : Nat) : Outcome :=
  if start ≤ stop ∧ stop ≤ state.buffer.glyphs.length then
    .going (state.append ((state.buffer.glyphs.drop start).take (stop - start)))
  else .outOfBounds

/-- Goes on with a glyph of the buffer, which must be there. -/
def State.withGlyph (state : State) (place : Nat) (next : Glyph → Outcome) : Outcome :=
  match state.buffer.glyphs[place]? with
  | some glyph => next glyph
  | none => .outOfBounds

mutual

def exec (run? : List Nat → Option Nat) : Nat → Statement → State → Outcome
  | 0, _, _ => .outOfFuel
  | fuel + 1, statement, state =>
    match statement with
    | .blank | .reserve _ => .going state
    | .returnFalse => .answered false state.buffer
    | .declareCodepoints => .going { state with codepoints := state.buffer.codepoints }
    | .declareOutput => .going { state with output := [] }
    | .declareFlag name => .going (state.setFlag name false)
    | .declareNumber name => .going (state.setNumber name 0)
    | .raiseFlag name => .going (state.setFlag name true)
    | .increase name amount =>
      .going (state.setNumber name (state.numbers name + amount.eval state))
    | .copyFront stop => state.copy 0 (stop.eval state)
    | .copyBetween start stop => state.copy (start.eval state) (stop.eval state)
    | .copyGlyph place =>
      state.withGlyph (place.eval state) fun glyph => .going (state.append [glyph])
    | .putCircle place =>
      state.withGlyph (place.eval state) fun glyph =>
        .going (state.append [⟨dottedCircle, glyph.cluster, false⟩])
    | .replaceGlyphs =>
      .going { state with buffer := { state.buffer with glyphs := state.output } }
    | .when test body => if test.eval state then execAll run? fuel body state else .going state
    | .whileBelow low high body =>
      if low.eval state < high.eval state then
        match execAll run? fuel body state with
        | .going next => exec run? fuel (.whileBelow low high body) next
        | outcome => outcome
      else .going state
    | .matchRun place length found otherwise =>
      if state.codepoints.length < place.eval state then .outOfBounds
      else
        match run? (state.codepoints.drop (place.eval state)) with
        | some value => execAll run? fuel found (state.setNumber length value)
        | none => execAll run? fuel otherwise state

def execAll (run? : List Nat → Option Nat) : Nat → List Statement → State → Outcome
  | 0, _, _ => .outOfFuel
  | _ + 1, [], state => .going state
  | fuel + 1, statement :: rest, state =>
    match exec run? fuel statement state with
    | .going next => execAll run? fuel rest next
    | outcome => outcome

end

/-- Runs a function on a buffer, given what is found at the start of codepoints. -/
def Function.run (function : Function) (run? : List Nat → Option Nat) (fuel : Nat)
    (buffer : GlyphBuffer) : Outcome :=
  match execAll run? fuel function.body (.start buffer) with
  | .going state => .answered (state.flags function.answer) state.buffer
  | outcome => outcome

/-- The output is built only once a run has been found, and the search goes on
behind the run. -/
def scanAndFix : Function where
  body := [
    .when .withoutDottedCircles [.returnFalse],
    .blank,
    .declareCodepoints,
    .declareOutput,
    .declareFlag "fixed",
    .declareNumber "i",
    .whileBelow (.variable "i") .codepointCount [
      .matchRun (.variable "i") "len" [
        .when (.negation "fixed") [
          .reserve (.plus .codepointCount (.literal 1)),
          .copyFront (.variable "i"),
          .raiseFlag "fixed"],
        .putCircle (.variable "i"),
        .copyBetween (.variable "i") (.plus (.variable "i") (.variable "len")),
        .increase "i" (.variable "len")] [
        .when (.variable "fixed") [.copyGlyph (.variable "i")],
        .increase "i" (.literal 1)]],
    .blank,
    .when (.variable "fixed") [.replaceGlyphs]]
  answer := "fixed"

end ShapingTables.BufferProgram
