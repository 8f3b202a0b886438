import ShapingTables.Json.Token

/-! Values as they are written: numbers by their digits, objects with every member in its
place, repeated names included. The reader keeps the containers that are still open in a
list, so that nesting has no limit. -/
namespace ShapingTables.Json

inductive Value where
  | null
  | bool (value : Bool)
  | number (written : String)
  | string (text : Option String)
  | array (items : List Value)
  | object (members : List (Option String × Value))

/-- A container that is still open, with what it holds so far in reverse. -/
inductive Frame where
  | array (items : List Value)
  /-- The last member has its name and waits for its value. -/
  | object (members : List (Option String × Value)) (name : Option String)

/-- What must come next, `ended` after a whole value. -/
inductive Reader where
  | needValue (frames : List Frame)
  | needValueOrEnd (frames : List Frame)
  | needNameOrEnd (frames : List Frame)
  | needName (frames : List Frame) (members : List (Option String × Value))
  | needColon (frames : List Frame) (members : List (Option String × Value))
      (name : Option String)
  | ended (frames : List Frame) (value : Value)

namespace Reader

/-- A token that begins a value. -/
def beginValue? (frames : List Frame) : Token → Option Reader
  | .null => some (.ended frames .null)
  | .bool value => some (.ended frames (.bool value))
  | .number written => some (.ended frames (.number written))
  | .string text => some (.ended frames (.string text))
  | .openBracket => some (.needValueOrEnd frames)
  | .openBrace => some (.needNameOrEnd frames)
  | .closeBrace | .closeBracket | .colon | .comma => none

def step : Reader → Token → Option Reader
  | .needValue frames, token => beginValue? frames token
  | .needValueOrEnd frames, .closeBracket => some (.ended frames (.array []))
  | .needValueOrEnd frames, token => beginValue? (.array [] :: frames) token
  | .needNameOrEnd frames, .closeBrace => some (.ended frames (.object []))
  | .needNameOrEnd frames, .string name => some (.needColon frames [] name)
  | .needName frames members, .string name => some (.needColon frames members name)
  | .needColon frames members name, .colon =>
    some (.needValue (.object members name :: frames))
  | .ended (.array items :: frames) value, .comma =>
    some (.needValue (.array (value :: items) :: frames))
  | .ended (.array items :: frames) value, .closeBracket =>
    some (.ended frames (.array (value :: items).reverse))
  | .ended (.object members name :: frames) value, .comma =>
    some (.needName frames ((name, value) :: members))
  | .ended (.object members name :: frames) value, .closeBrace =>
    some (.ended frames (.object ((name, value) :: members).reverse))
  | _, _ => none

def finish : Reader → Option Value
  | .ended [] value => some value
  | _ => none

end Reader

/-- The one value that a text holds. -/
def read? (text : List Char) : Option Value :=
  (tokens? text).bind fun tokens => (tokens.foldlM Reader.step (.needValue [])).bind Reader.finish

end ShapingTables.Json
