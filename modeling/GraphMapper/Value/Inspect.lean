import GraphMapper.Text.Quoted
import GraphMapper.Value.Json

/-!
Values written with their kind, for messages about a value of the wrong shape.

* `Value.inspect`: a value;
* `Value.inspectOption`: a value that may be absent.
-/

namespace GraphMapper.Value

mutual

/-- A value with its kind named at every level. -/
def inspect : Value → String
  | .null => "Null"
  | .bool true => "Bool(true)"
  | .bool false => "Bool(false)"
  | .number n => "Number(" ++ String.ofList n.text ++ ")"
  | .string s => "String(" ++ Text.quoted s ++ ")"
  | .array items => "Array [" ++ inspectItems items ++ "]"
  | .object fields => "Object \x7b" ++ inspectFields fields ++ "\x7d"

/-- The items of a list, separated by a comma and a space. -/
def inspectItems : List Value → String
  | [] => ""
  | [item] => inspect item
  | item :: rest => inspect item ++ ", " ++ inspectItems rest

/-- The entries of a map, separated by a comma and a space. -/
def inspectFields : List (String × Value) → String
  | [] => ""
  | [(name, entry)] => Text.quoted name ++ ": " ++ inspect entry
  | (name, entry) :: rest =>
    Text.quoted name ++ ": " ++ inspect entry ++ ", " ++ inspectFields rest

end

/-- A value that may be absent. -/
def inspectOption : Option Value → String
  | none => "None"
  | some v => "Some(" ++ inspect v ++ ")"

end GraphMapper.Value
