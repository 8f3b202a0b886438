import ShapingTables.Proofs.Generated.Matching
import ShapingTables.Proofs.Generated.Rewriting

/-! Reading a whole file of matchers: the dotted circle, one function for each script, the
function that selects among them, and the program that rewrites a buffer. A function is known
by its name, so a file is only of use if no two of its functions have one name. -/
namespace ShapingTables.Generated

open BufferProgram (Parser)
open BufferProgram.Parser (expect name literal)

structure MatcherFile where
  /-- The codepoint of the dotted circle. -/
  circle : Nat
  functions : List (String × Matching)
  /-- For each script that is listed the name of the function to call. -/
  cases : List (String × String)
  rewriting : BufferProgram.Function

namespace MatcherFile

/-- No two functions have one name. -/
def Distinct (file : MatcherFile) : Prop := (file.functions.map (·.1)).Nodup

instance (file : MatcherFile) : Decidable file.Distinct := inferInstanceAs (Decidable (List.Nodup _))

/-- What the selection answers. The first case that fits the script decides, and without one
there is no run. Where two functions have one name the file means nothing at all. -/
def prohibitedRun (file : MatcherFile) (script : String) (glyphs : List Nat) :
    Except Trap (Option Nat) :=
  if file.Distinct then
    match file.cases.lookup script with
    | none => .ok none
    | some called =>
      match file.functions.lookup called with
      | some body => body.eval glyphs
      | none => .error .unknown
  else .error .unknown

def useTokens : List Token := [
  .keyword .use, .name "super", .symbol .doubleColon, .name "buffer", .symbol .doubleColon,
  .symbol .openCurly, .name "GlyphBuffer", .symbol .comma, .name "GlyphRecord",
  .symbol .closeCurly, .symbol .semicolon]

/-- What stands in front of the codepoint of the dotted circle. -/
def circleTokens : List Token := [
  .keyword .exported, .keyword .constant, .name "DOTTED_CIRCLE", .symbol .colon, .name "u32",
  .symbol .equals]

/-- The last parameter of a function and what the function gives. -/
def glyphsTokens : List Token := [
  .name "glyphs", .symbol .colon, .symbol .ampersand, .symbol .openSquare, .name "u32",
  .symbol .closeSquare, .symbol .closeRound, .symbol .gives, .name "Option", .symbol .less,
  .name "usize", .symbol .greater, .symbol .openCurly]

def selectionTokens : List Token :=
  [.keyword .exported, .keyword .function, .name "prohibited_run", .symbol .openRound,
    .name "script", .symbol .colon, .symbol .ampersand, .name "str", .symbol .comma] ++
  glyphsTokens ++ [.keyword .select, .name "script", .symbol .openCurly]

/-- How a case gives its answer. -/
def callTokens : List Token := [
  .symbol .openRound, .name "glyphs", .symbol .closeRound, .symbol .comma]

/-- The end of the selection. -/
def otherwiseTokens : List Token := [
  .keyword .anything, .symbol .arrow, .name "None", .symbol .comma, .symbol .closeCurly,
  .symbol .closeCurly]

def text : Parser String
  | .text value :: rest => some (value, rest)
  | _ => none

/-- An expression that measures glyphs, and the brace behind it. -/
def body (reader : Matching.Reader) : Parser Matching
  | [] => none
  | token :: rest =>
    match Matching.step reader token with
    | some next => body next rest
    | none =>
      if token = .symbol .closeCurly then (Matching.finish reader).map (·, rest) else none

def function : Parser (String × Matching) := do
  expect [.keyword .function]
  let called ← name
  expect (.symbol .openRound :: glyphsTokens)
  let measured ← body ⟨.expression, []⟩
  return (called, measured)

def case : Parser (String × String) := do
  let script ← text
  expect [.symbol .arrow]
  let called ← name
  expect callTokens
  return (script, called)

/-- As often as a parser succeeds, at most so many times. -/
def many (parser : Parser α) : Nat → Parser (List α)
  | 0, found => some ([], found)
  | fuel + 1, found =>
    match parser found with
    | some (first, rest) =>
      (many parser fuel rest).map fun (others, rest) => (first :: others, rest)
    | none => some ([], found)

/-- The file up to the program that rewrites a buffer. -/
def selection (fuel : Nat) :
    Parser (Nat × List (String × Matching) × List (String × String)) := do
  expect (useTokens ++ circleTokens)
  let circle ← literal
  expect [.symbol .semicolon]
  let functions ← many function fuel
  expect selectionTokens
  let cases ← many case fuel
  expect otherwiseTokens
  return (circle, functions, cases)

def parse? (found : List Token) : Option MatcherFile := do
  let ((circle, functions, cases), rest) ← selection found.length found
  let rewriting ← Parser.read? rest
  return ⟨circle, functions, cases, rewriting⟩

/-- The file of a whole text. -/
def read? (text : String) : Option MatcherFile := parse? (tokens text.toList)

/-- A parser takes certain tokens from the front, whatever follows them. -/
def Takes (parser : Parser α) (found : List Token) (value : α) : Prop :=
  ∀ rest, parser (found ++ rest) = some (value, rest)

theorem bind_eq {parser : Parser α} {found rest : List Token} {value : α}
    (done : parser found = some (value, rest)) (next : α → Parser β) :
    (parser >>= next) found = next value rest := by
  simp [bind, StateT.bind, done]

theorem Takes.bind {parser : Parser α} {next : α → Parser β} {found others : List Token}
    {value : α} {last : β} (first : Takes parser found value)
    (second : Takes (next value) others last) : Takes (parser >>= next) (found ++ others) last := by
  intro rest
  rw [List.append_assoc, bind_eq (first _), second]

/-- A last step only changes the value. -/
theorem Takes.give {parser : Parser α} {found : List Token} {value : α}
    (taken : Takes parser found value) (change : α → β) :
    Takes (parser >>= fun last => pure (change last)) found (change value) := by
  intro rest
  rw [bind_eq (taken rest)]
  rfl

theorem takes_expect (certain : List Token) : Takes (expect certain) certain () := by
  intro rest
  have dropped : (certain ++ rest).dropPrefix? certain = some rest :=
    List.dropPrefix?_eq_some_iff.mpr ⟨certain, rfl, beq_self_eq_true certain⟩
  rw [expect, dropped]
  rfl

theorem takes_literal (value : Nat) : Takes literal [.number value] value := fun _ => rfl

theorem takes_text (value : String) : Takes text [.text value] value := fun _ => rfl

theorem takes_name {called : String} (free : called ∉ Parser.reserved) :
    Takes name [.name called] called := by
  intro rest
  rw [List.singleton_append, name, if_neg free]

theorem body_leads {found : List Token} {before after : Matching.Reader}
    (leads : Matching.Leads found before after) (rest : List Token) :
    body before (found ++ rest) = body after rest := by
  induction found generalizing before with
  | nil =>
    cases leads
    rfl
  | cons token found ih =>
    rw [Matching.Leads, List.foldlM_cons] at leads
    obtain ⟨next, step, leads⟩ := Option.bind_eq_some_iff.mp leads
    rw [List.cons_append, body, step]
    exact ih leads

theorem takes_body {found : List Token} {whole : Matching}
    (leads : Matching.Leads found ⟨.expression, []⟩ ⟨.behind whole, []⟩) :
    Takes (body ⟨.expression, []⟩) (found ++ [.symbol .closeCurly]) whole := by
  intro rest
  rw [List.append_assoc, body_leads leads]
  rfl

/-- The tokens of items one after the other, where no further item follows. -/
theorem many_flatMap {parser : Parser α} {tokensOf : ι → List Token} {valueOf : ι → α}
    {items : List ι} (each : ∀ item ∈ items, Takes parser (tokensOf item) (valueOf item))
    {rest : List Token} (ends : parser rest = none) {fuel : Nat} (enough : items.length ≤ fuel) :
    many parser fuel (items.flatMap tokensOf ++ rest) = some (items.map valueOf, rest) := by
  induction items generalizing fuel with
  | nil =>
    cases fuel with
    | zero => rfl
    | succ fuel =>
      rw [List.flatMap_nil, List.nil_append, many]
      simp only [ends]
      rfl
  | cons item items ih =>
    obtain ⟨first, later⟩ := List.forall_mem_cons.mp each
    obtain ⟨less, rfl⟩ := Nat.exists_eq_add_of_le' (Nat.le_trans (Nat.le_add_left 1 _) enough)
    rw [List.length_cons, Nat.add_le_add_iff_right] at enough
    rw [List.flatMap_cons, List.append_assoc, many]
    simp only [first _, ih later enough]
    rfl

theorem length_le_flatMap {tokensOf : ι → List Token} {items : List ι}
    (each : ∀ item ∈ items, tokensOf item ≠ []) :
    items.length ≤ (items.flatMap tokensOf).length := by
  induction items with
  | nil => exact Nat.le_refl 0
  | cons item items ih =>
    obtain ⟨first, later⟩ := List.forall_mem_cons.mp each
    have one := List.length_pos_iff.mpr first
    have others := ih later
    rw [List.flatMap_cons, List.length_append, List.length_cons]
    omega

def functionTokens (called : String) (inside : List Token) : List Token :=
  [.keyword .function] ++ ([.name called] ++ (.symbol .openRound :: glyphsTokens ++
    (inside ++ [.symbol .closeCurly])))

def caseTokens (entry : String × String) : List Token :=
  [.text entry.1] ++ ([.symbol .arrow] ++ ([.name entry.2] ++ callTokens))

theorem takes_function {called : String} (free : called ∉ Parser.reserved) {inside : List Token}
    {whole : Matching} (leads : Matching.Leads inside ⟨.expression, []⟩ ⟨.behind whole, []⟩) :
    Takes function (functionTokens called inside) (called, whole) := by
  have closed := (takes_body leads).give fun measured => (called, measured)
  exact (takes_expect _).bind ((takes_name free).bind ((takes_expect _).bind closed))

theorem takes_case {entry : String × String} (free : entry.2 ∉ Parser.reserved) :
    Takes case (caseTokens entry) entry := by
  have closed := (takes_expect callTokens).give fun _ => entry
  exact (takes_text _).bind ((takes_expect _).bind ((takes_name free).bind closed))

/-- The tokens of a file whose functions, cases and program have these tokens. -/
def fileTokens (circle : Nat) (functions cases last : List Token) : List Token :=
  useTokens ++ circleTokens ++ ([.number circle] ++ ([.symbol .semicolon] ++ (functions ++
    (selectionTokens ++ (cases ++ (otherwiseTokens ++ last))))))

section

variable {tokensOf : ι → List Token} {valueOf : ι → String × Matching} {items : List ι}
  (functions : ∀ item ∈ items, tokensOf item ≠ [] ∧ Takes function (tokensOf item) (valueOf item))
  {entries : List (String × String)} (cases : ∀ entry ∈ entries, entry.2 ∉ Parser.reserved)
include functions cases

theorem selection_fileTokens (circle : Nat) (last : List Token) {fuel : Nat}
    (enough : items.length + entries.length ≤ fuel) :
    selection fuel (fileTokens circle (items.flatMap tokensOf) (entries.flatMap caseTokens) last) =
      some ((circle, items.map valueOf, entries), last) := by
  have manyFunctions : many function fuel (items.flatMap tokensOf ++ (selectionTokens ++
      (entries.flatMap caseTokens ++ (otherwiseTokens ++ last)))) =
      some (items.map valueOf, selectionTokens ++ (entries.flatMap caseTokens ++
        (otherwiseTokens ++ last))) :=
    many_flatMap (fun item member => (functions item member).2) rfl (by omega)
  have manyCases : many case fuel (entries.flatMap caseTokens ++ (otherwiseTokens ++ last)) =
      some (entries.map id, otherwiseTokens ++ last) :=
    many_flatMap (fun entry member => takes_case (cases entry member)) rfl (by omega)
  rw [fileTokens, selection, bind_eq (takes_expect _ _), bind_eq (takes_literal _ _),
    bind_eq (takes_expect _ _), bind_eq manyFunctions, bind_eq (takes_expect _ _),
    bind_eq manyCases, bind_eq (takes_expect _ _), List.map_id]
  rfl

theorem parse?_fileTokens (circle : Nat) {last : List Token} {rewriting : BufferProgram.Function}
    (read : Parser.read? last = some rewriting) :
    parse? (fileTokens circle (items.flatMap tokensOf) (entries.flatMap caseTokens) last) =
      some ⟨circle, items.map valueOf, entries, rewriting⟩ := by
  have first := length_le_flatMap fun item member => (functions item member).1
  have second : entries.length ≤ (entries.flatMap caseTokens).length :=
    length_le_flatMap fun _ _ => List.cons_ne_nil _ _
  have enough : items.length + entries.length ≤ (fileTokens circle (items.flatMap tokensOf)
      (entries.flatMap caseTokens) last).length := by
    simp only [fileTokens, List.length_append]
    omega
  rw [parse?, selection_fileTokens functions cases circle last enough]
  simp [read]

end

end MatcherFile

end ShapingTables.Generated
