import ShapingTables.Proofs.Generated.Program
import ShapingTables.Proofs.Generated.Token
import ShapingTables.Text.Outline

/-! Reading a generated file. The reader takes one token at a time and keeps what is
still open in a list of frames, so a piece of the file leads from one reader to the
next whatever stands around it. Types and attributes are passed over. -/
namespace ShapingTables.Generated

/-- A part of the file that is still open. -/
inductive Frame where
  | constant (name : String)
  | function (name parameter : String)
  | group
  | list (items : List Expression)
  | place (list : Expression)
  | argument (receiver : Expression) (method : String)
  | borrow
  | binary (operator : Operator) (left : Expression)
  | giveBack
  | test
  | when (test : Expression)
  | subject
  | arms (subject : Expression) (arms : List Arm)
  | arm (pattern : Pattern)
  | block (statements : List Expression)

/-- What must come next. -/
inductive Focus where
  | item
  /-- Everything up to a symbol, and then something else. -/
  | skip (stop : Symbol) (next : Focus)
  | constantName
  | functionName
  | parameters (function : String)
  | parameter (function : String)
  /-- An operand, a statement, or the end of a list or block. -/
  | operand
  | operator (left : Expression)
  | type (operand : Expression)
  | method (receiver : Expression)
  | arguments (receiver : Expression) (method : String)
  | pattern
  | arrow (pattern : Pattern)

structure Reader where
  focus : Focus
  frames : List Frame
  program : Program

/-- How tightly an operator binds. -/
def Operator.level : Operator → Nat
  | .through => 1
  | .shiftRight => 2
  | .plus | .minus => 3

namespace Reader

def castLevel : Nat := 4

def start : Reader := ⟨.item, [], ⟨[], []⟩⟩

/-- Applies what is open and binds at least as tightly as a level. -/
def reduce (level : Nat) (last : Expression) : List Frame → Expression × List Frame
  | .borrow :: frames => reduce level (.borrow last) frames
  | .binary operator left :: frames =>
    if level ≤ operator.level then reduce level (.binary operator left last) frames
    else (last, .binary operator left :: frames)
  | .giveBack :: frames =>
    if level = 0 then reduce level (.giveBack last) frames else (last, .giveBack :: frames)
  | frames => (last, frames)

/-- Behind the brace that ends an expression: it is a body, a statement or an operand. -/
def endBraces (program : Program) (whole : Expression) : List Frame → Reader
  | .when test :: frames => endBraces program (.when test whole) frames
  | .arm pattern :: .arms subject arms :: frames =>
    ⟨.pattern, .arms subject (arms ++ [.mk pattern whole]) :: frames, program⟩
  | .block statements :: frames => ⟨.operand, .block (statements ++ [whole]) :: frames, program⟩
  | .function name parameter :: frames =>
    ⟨.item, frames, { program with functions := program.functions ++ [⟨name, parameter, whole⟩] }⟩
  | frames => ⟨.operator whole, frames, program⟩

def readItem (frames : List Frame) (program : Program) : Token → Option Reader
  | .keyword .exported => some ⟨.item, frames, program⟩
  | .keyword .use => some ⟨.skip .semicolon .item, frames, program⟩
  | .symbol .hash => some ⟨.skip .closeSquare .item, frames, program⟩
  | .keyword .constant => some ⟨.constantName, frames, program⟩
  | .keyword .function => some ⟨.functionName, frames, program⟩
  | _ => none

def readOperand (frames : List Frame) (program : Program) : Token → Option Reader
  | .number value => some ⟨.operator (.number value), frames, program⟩
  | .name text => some ⟨.operator (.name text), frames, program⟩
  | .keyword .giveBack => some ⟨.operand, .giveBack :: frames, program⟩
  | .keyword .when => some ⟨.operand, .test :: frames, program⟩
  | .keyword .select => some ⟨.operand, .subject :: frames, program⟩
  | .symbol .ampersand => some ⟨.operand, .borrow :: frames, program⟩
  | .symbol .openRound => some ⟨.operand, .group :: frames, program⟩
  | .symbol .openSquare => some ⟨.operand, .list [] :: frames, program⟩
  | .symbol .openCurly => some ⟨.operand, .block [] :: frames, program⟩
  | .symbol .closeSquare =>
    match frames with
    | .list items :: frames => some ⟨.operator (.list items), frames, program⟩
    | _ => none
  | .symbol .closeCurly =>
    match frames with
    | .block statements :: frames => some (endBraces program (.block statements) frames)
    | _ => none
  | _ => none

/-- A symbol behind an expression that is whole. -/
def endExpression (program : Program) (symbol : Symbol) :
    Expression × List Frame → Option Reader
  | (whole, .constant name :: frames) =>
    if symbol = .semicolon then
      some ⟨.item, frames, { program with constants := program.constants ++ [(name, whole)] }⟩
    else none
  | (whole, .group :: frames) =>
    if symbol = .closeRound then some ⟨.operator whole, frames, program⟩ else none
  | (whole, .argument receiver method :: frames) =>
    if symbol = .closeRound then some ⟨.operator (.method receiver method whole), frames, program⟩
    else none
  | (whole, .place list :: frames) =>
    if symbol = .closeSquare then some ⟨.operator (.item list whole), frames, program⟩ else none
  | (whole, .list items :: frames) =>
    match symbol with
    | .comma => some ⟨.operand, .list (items ++ [whole]) :: frames, program⟩
    | .closeSquare => some ⟨.operator (.list (items ++ [whole])), frames, program⟩
    | _ => none
  | (whole, .test :: frames) =>
    if symbol = .openCurly then some ⟨.operand, .block [] :: .when whole :: frames, program⟩
    else none
  | (whole, .subject :: frames) =>
    if symbol = .openCurly then some ⟨.pattern, .arms whole [] :: frames, program⟩ else none
  | (whole, .block statements :: frames) =>
    match symbol with
    | .semicolon => some ⟨.operand, .block (statements ++ [.discard whole]) :: frames, program⟩
    | .closeCurly => some (endBraces program (.block (statements ++ [whole])) frames)
    | _ => none
  | _ => none

def openBinary (frames : List Frame) (program : Program) (operator : Operator)
    (left : Expression) : Reader :=
  let (whole, frames) := reduce operator.level left frames
  ⟨.operand, .binary operator whole :: frames, program⟩

def readOperator (frames : List Frame) (program : Program) (left : Expression) :
    Token → Option Reader
  | .symbol .through => some (openBinary frames program .through left)
  | .symbol .shiftRight => some (openBinary frames program .shiftRight left)
  | .symbol .plus => some (openBinary frames program .plus left)
  | .symbol .minus => some (openBinary frames program .minus left)
  | .keyword .cast =>
    let (whole, frames) := reduce castLevel left frames
    some ⟨.type whole, frames, program⟩
  | .symbol .dot => some ⟨.method left, frames, program⟩
  | .symbol .openSquare => some ⟨.operand, .place left :: frames, program⟩
  | .symbol symbol => endExpression program symbol (reduce 0 left frames)
  | _ => none

def readPattern (frames : List Frame) (program : Program) : Token → Option Reader
  | .number value => some ⟨.arrow (.number value), frames, program⟩
  | .keyword .anything => some ⟨.arrow .anything, frames, program⟩
  | .symbol .closeCurly =>
    match frames with
    | .arms subject arms :: frames => some (endBraces program (.select subject arms) frames)
    | _ => none
  | _ => none

def step (reader : Reader) (token : Token) : Option Reader :=
  let ⟨focus, frames, program⟩ := reader
  match focus, token with
  | .item, token => readItem frames program token
  | .skip stop next, token =>
    some ⟨if token = .symbol stop then next else .skip stop next, frames, program⟩
  | .constantName, .name name =>
    some ⟨.skip .equals .operand, .constant name :: frames, program⟩
  | .functionName, .name name => some ⟨.parameters name, frames, program⟩
  | .parameters function, .symbol .openRound => some ⟨.parameter function, frames, program⟩
  | .parameter function, .name name =>
    some ⟨.skip .openCurly .operand, .block [] :: .function function name :: frames, program⟩
  | .operand, token => readOperand frames program token
  | .operator left, token => readOperator frames program left token
  | .type operand, .name type => some ⟨.operator (.cast operand type), frames, program⟩
  | .method receiver, .name method => some ⟨.arguments receiver method, frames, program⟩
  | .arguments receiver method, .symbol .openRound =>
    some ⟨.operand, .argument receiver method :: frames, program⟩
  | .pattern, token => readPattern frames program token
  | .arrow pattern, .symbol .arrow => some ⟨.operand, .arm pattern :: frames, program⟩
  | _, _ => none

def finish : Reader → Option Program
  | ⟨.item, [], program⟩ => some program
  | _ => none

end Reader

/-- The program of a whole file. -/
def Program.read? (text : String) : Option Program :=
  ((tokens text.toList).foldlM Reader.step .start).bind Reader.finish

/-- Lines that lead from one reader to another, with their line feeds. -/
def Reads (lines : List String) (before after : Reader) : Prop :=
  ∃ found, scan .between (lines.flatMap fun line => line.toList ++ ['\n']) = (found, .between) ∧
    found.foldlM Reader.step before = some after

namespace Reads

open Text (Outline)

theorem nil (reader : Reader) : Reads [] reader reader := ⟨[], rfl, rfl⟩

theorem append {front rest : List String} {before middle after : Reader}
    (first : Reads front before middle) (second : Reads rest middle after) :
    Reads (front ++ rest) before after := by
  obtain ⟨found, scanned, read⟩ := first
  obtain ⟨others, scannedRest, readRest⟩ := second
  refine ⟨found ++ others, Scans.append scanned scannedRest, ?_⟩
  rw [List.foldlM_append, read]
  exact readRest

/-- Blanks in front of a line do not matter. -/
theorem line (depth : Nat) (found : List Token) {text : String} {before after : Reader}
    (scanned : scan .between (text.toList ++ ['\n']) = (found, .between))
    (read : found.foldlM Reader.step before = some after) :
    Reads ((Outline.line text).lines depth) before after :=
  ⟨found, Scans.line depth scanned, read⟩

theorem block (depth : Nat) {head closing : String} {body : List Outline}
    {before first last after : Reader}
    (opened : Reads ((Outline.line (head ++ " \x7b")).lines depth) before first)
    (middle : Reads (Outline.linesOfAll (depth + 1) body) first last)
    (closed : Reads ((Outline.line ("\x7d" ++ closing)).lines depth) last after) :
    Reads ((Outline.block head body closing).lines depth) before after := by
  rw [Outline.lines]
  exact opened.append (middle.append closed)

theorem cons (depth : Nat) {outline : Outline} {rest : List Outline}
    {before middle after : Reader} (first : Reads (outline.lines depth) before middle)
    (second : Reads (Outline.linesOfAll depth rest) middle after) :
    Reads (Outline.linesOfAll depth (outline :: rest)) before after := by
  rw [Outline.linesOfAll]
  exact first.append second

theorem appendAll (depth : Nat) {front rest : List Outline} {before middle after : Reader}
    (first : Reads (Outline.linesOfAll depth front) before middle)
    (second : Reads (Outline.linesOfAll depth rest) middle after) :
    Reads (Outline.linesOfAll depth (front ++ rest)) before after := by
  rw [linesOfAll_append]
  exact first.append second

/-- Items one after the other, where the reader depends on those that are done. -/
theorem flatMap (depth : Nat) (outlines : α → List Outline) (reader : List α → Reader)
    (items : List α) (each : ∀ item ∈ items, ∀ done,
      Reads (Outline.linesOfAll depth (outlines item)) (reader done) (reader (done ++ [item])))
    (done : List α) : Reads (Outline.linesOfAll depth (items.flatMap outlines)) (reader done)
      (reader (done ++ items)) := by
  induction items generalizing done with
  | nil => simpa [Outline.linesOfAll] using nil (reader done)
  | cons item rest ih =>
    obtain ⟨first, later⟩ := List.forall_mem_cons.mp each
    have others := ih later (done ++ [item])
    rw [List.append_assoc, List.singleton_append] at others
    rw [List.flatMap_cons]
    exact appendAll depth (first done) others

theorem map (depth : Nat) (outline : α → Outline) (reader : List α → Reader) (items : List α)
    (each : ∀ item done, Reads ((outline item).lines depth) (reader done)
      (reader (done ++ [item]))) :
    Reads (Outline.linesOfAll depth (items.map outline)) (reader []) (reader items) := by
  rw [List.map_eq_flatMap]
  refine flatMap depth (fun item => [outline item]) reader items (fun item _ done => ?_) []
  exact cons depth (each item done) (nil _)

/-- A file that is read to its end has a program. -/
theorem read? {outlines : List Outline} {program : Program}
    (held : Reads (Outline.linesOfAll 0 outlines) .start ⟨.item, [], program⟩) :
    Program.read? (Outline.text outlines) = some program := by
  obtain ⟨found, scanned, read⟩ := held
  rw [Program.read?, Outline.text, String.toList_ofList, tokens, scanned]
  simp only [Mode.pending, List.append_nil, read]
  rfl

end Reads

end ShapingTables.Generated
