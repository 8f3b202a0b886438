import ShapingTables.Codepoint

/-! Generated programs: constants and functions of one parameter, over words of 32
bits. A program stops at a word that is left at either end, at a place outside a
list and at a value that no arm expects. A name that the file does not define is a
constant from elsewhere and stands for itself. What an expression comes to follows by
rules from what its parts come to. -/
namespace ShapingTables.Generated

inductive Operator where
  | through
  | shiftRight
  | plus
  | minus
  deriving DecidableEq, Repr

inductive Pattern where
  | number (value : Nat)
  | anything
  deriving DecidableEq, Repr

mutual

inductive Expression where
  | number (value : Nat)
  | name (text : String)
  | list (items : List Expression)
  | borrow (operand : Expression)
  | binary (operator : Operator) (left right : Expression)
  | cast (operand : Expression) (type : String)
  | item (list place : Expression)
  | method (receiver : Expression) (name : String) (argument : Expression)
  | giveBack (value : Expression)
  /-- The value is not used. -/
  | discard (value : Expression)
  | when (test body : Expression)
  | select (subject : Expression) (arms : List Arm)
  | block (statements : List Expression)

inductive Arm where
  | mk (pattern : Pattern) (body : Expression)

end

structure Function where
  name : String
  parameter : String
  body : Expression

structure Program where
  constants : List (String × Expression)
  functions : List Function

def wordSize : Nat := 0x100000000

inductive Value where
  | number (value : Nat)
  | truth (value : Bool)
  | constant (name : String)
  | range (range : CodepointRange)
  | list (items : List Value)
  | nothing

inductive Trap where
  | overflow
  | outOfBounds
  | noArm
  /-- A value of another kind than the operation takes. -/
  | misfit
  | unknown
  deriving DecidableEq, Repr

/-- Why an evaluation ends early. -/
inductive Stop where
  | givenBack (value : Value)
  | trapped (trap : Trap)

abbrev Outcome := Except Stop Value

/-- What a function answers whose body ends in some way. -/
def answerOf : Outcome → Except Trap Value
  | .ok value | .error (.givenBack value) => .ok value
  | .error (.trapped trap) => .error trap

def trapped (trap : Trap) : Except Stop α := .error (.trapped trap)

def word (value : Nat) : Outcome :=
  if value < wordSize then .ok (.number value) else trapped .overflow

def Operator.apply : Operator → Value → Value → Outcome
  | .through, .number first, .number last => .ok (.range ⟨first, last⟩)
  | .shiftRight, .number value, .number count =>
    if count < 32 then .ok (.number (value >>> count)) else trapped .overflow
  | .plus, .number left, .number right => word (left + right)
  | .minus, .number left, .number right =>
    if right ≤ left then .ok (.number (left - right)) else trapped .overflow
  | _, _, _ => trapped .misfit

def Value.item : Value → Value → Outcome
  | .list items, .number place =>
    match items[place]? with
    | some value => .ok value
    | none => trapped .outOfBounds
  | _, _ => trapped .misfit

def Value.cast (value : Value) (type : String) : Outcome :=
  match value with
  | .number _ => if type = "usize" then .ok value else trapped .misfit
  | _ => trapped .misfit

def Value.call (receiver : Value) (method : String) (argument : Value) : Outcome :=
  match receiver, argument with
  | .range held, .number value =>
    if method = "contains" then .ok (.truth (held.contains value)) else trapped .unknown
  | _, _ => trapped .misfit

def Pattern.fits (value : Value) : Pattern → Except Stop Bool
  | .anything => .ok true
  | .number expected =>
    match value with
    | .number found => if expected < wordSize then .ok (found == expected) else trapped .overflow
    | _ => trapped .misfit

mutual

def Expression.eval (names : String → Outcome) : Expression → Outcome
  | .number value => word value
  | .name text => names text
  | .list items => (evalItems names items).map .list
  | .borrow operand => operand.eval names
  | .binary operator left right => do
    let first ← left.eval names
    let second ← right.eval names
    operator.apply first second
  | .cast operand type => do
    let value ← operand.eval names
    value.cast type
  | .item list place => do
    let items ← list.eval names
    let index ← place.eval names
    items.item index
  | .method receiver name argument => do
    let object ← receiver.eval names
    let value ← argument.eval names
    object.call name value
  | .giveBack value => do
    let answer ← value.eval names
    .error (.givenBack answer)
  | .discard value => do
    let _ ← value.eval names
    return .nothing
  | .when test body => do
    match ← test.eval names with
    | .truth true => body.eval names
    | .truth false => return .nothing
    | _ => trapped .misfit
  | .select subject arms => do
    let value ← subject.eval names
    evalArms names value arms
  | .block statements => evalStatements names .nothing statements

def evalItems (names : String → Outcome) : List Expression → Except Stop (List Value)
  | [] => .ok []
  | item :: rest => do
    let value ← item.eval names
    let values ← evalItems names rest
    return value :: values

/-- The value of the last statement. -/
def evalStatements (names : String → Outcome) (value : Value) : List Expression → Outcome
  | [] => .ok value
  | statement :: rest => do
    let next ← statement.eval names
    evalStatements names next rest

/-- The first arm that fits decides. -/
def evalArms (names : String → Outcome) (value : Value) : List Arm → Outcome
  | [] => trapped .noArm
  | .mk pattern body :: rest => do
    if ← pattern.fits value then body.eval names else evalArms names value rest

end

theorem bind_ok {outcome : Except Stop α} {value : α} (known : outcome = .ok value)
    (next : α → Except Stop β) : (outcome >>= next) = next value := by
  rw [known]
  rfl

theorem bind_error {outcome : Except Stop α} {stop : Stop} (stopped : outcome = .error stop)
    (next : α → Except Stop β) : (outcome >>= next) = .error stop := by
  rw [stopped]
  rfl

section

variable {names : String → Outcome} {operand left right receiver argument subject test body :
  Expression} {statements : List Expression} {value first second : Value} {stop : Stop}

theorem eval_number {number : Nat} (small : number < wordSize) :
    (Expression.number number).eval names = .ok (.number number) :=
  if_pos small

theorem eval_name {text : String} (known : names text = .ok value) :
    (Expression.name text).eval names = .ok value :=
  known

theorem eval_binary (operator : Operator) (leftValue : left.eval names = .ok first)
    (rightValue : right.eval names = .ok second) :
    (Expression.binary operator left right).eval names = operator.apply first second :=
  (bind_ok leftValue _).trans (bind_ok rightValue _)

theorem eval_cast (type : String) (known : operand.eval names = .ok value) :
    (Expression.cast operand type).eval names = value.cast type :=
  bind_ok known _

theorem eval_item (listValue : left.eval names = .ok first)
    (placeValue : right.eval names = .ok second) :
    (Expression.item left right).eval names = first.item second :=
  (bind_ok listValue _).trans (bind_ok placeValue _)

theorem eval_method (name : String) (object : receiver.eval names = .ok first)
    (given : argument.eval names = .ok second) :
    (Expression.method receiver name argument).eval names = first.call name second :=
  (bind_ok object _).trans (bind_ok given _)

theorem eval_giveBack (known : operand.eval names = .ok value) :
    (Expression.giveBack operand).eval names = .error (.givenBack value) :=
  bind_ok known _

theorem eval_discard (stopped : operand.eval names = .error stop) :
    (Expression.discard operand).eval names = .error stop :=
  bind_error stopped _

theorem eval_whenTrue (holds : test.eval names = .ok (.truth true)) :
    (Expression.when test body).eval names = body.eval names :=
  bind_ok holds _

theorem eval_whenFalse (fails : test.eval names = .ok (.truth false)) :
    (Expression.when test body).eval names = .ok .nothing :=
  bind_ok fails _

theorem eval_select {arms : List Arm} (known : subject.eval names = .ok value) :
    (Expression.select subject arms).eval names = evalArms names value arms :=
  bind_ok known _

theorem evalItems_cons {values : List Value} (known : operand.eval names = .ok value)
    (later : evalItems names statements = .ok values) :
    evalItems names (operand :: statements) = .ok (value :: values) :=
  (bind_ok known _).trans (bind_ok later _)

theorem evalStatements_next (last : Value) (known : operand.eval names = .ok value) :
    evalStatements names last (operand :: statements) = evalStatements names value statements :=
  bind_ok known _

/-- Behind a statement that stops nothing is evaluated. -/
theorem evalStatements_stop (last : Value) (stopped : operand.eval names = .error stop) :
    evalStatements names last (operand :: statements) = .error stop :=
  bind_error stopped _

theorem evalArms_fits {pattern : Pattern} (rest : List Arm)
    (fits : pattern.fits value = .ok true) :
    evalArms names value (.mk pattern body :: rest) = body.eval names :=
  bind_ok fits _

theorem evalArms_misses {pattern : Pattern} (rest : List Arm)
    (misses : pattern.fits value = .ok false) :
    evalArms names value (.mk pattern body :: rest) = evalArms names value rest :=
  bind_ok misses _

end

namespace Program

/-- What a name stands for where a constant is defined. One constant may not use another. -/
def outside (program : Program) (name : String) : Outcome :=
  match program.constants.lookup name with
  | some _ => trapped .unknown
  | none => .ok (.constant name)

/-- What a name stands for in a function. -/
def inside (program : Program) (parameter : String) (argument : Value) (name : String) : Outcome :=
  if name = parameter then .ok argument
  else match program.constants.lookup name with
    | some definition => definition.eval program.outside
    | none => .ok (.constant name)

def call (program : Program) (name : String) (argument : UInt32) : Except Trap Value :=
  match program.functions.find? (·.name == name) with
  | none => .error .unknown
  | some function =>
    answerOf (function.body.eval (program.inside function.parameter (.number argument.toNat)))

end Program

end ShapingTables.Generated
