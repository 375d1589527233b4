import GraphMapper.Decimal.Layout
import GraphMapper.Value.Basic

/-!
Values written in JSON, without spaces.

* `Json.escape`, `Json.quote`: texts between quotes;
* `Number.text`: integers in decimal digits, doubles in the document layout;
* `Value.json`: the text of a value.
-/

namespace GraphMapper

namespace Json

/-- One character between the quotes of a JSON text: quote, backslash and control characters are
escaped, with a letter where one exists. -/
def escape (c : Char) : List Char :=
  match c with
  | '"' => ['\\', '"']
  | '\\' => ['\\', '\\']
  | '\n' => ['\\', 'n']
  | '\r' => ['\\', 'r']
  | '\t' => ['\\', 't']
  | c =>
    if c.toNat = 8 then ['\\', 'b']
    else if c.toNat = 12 then ['\\', 'f']
    else if c.toNat < 16 then ['\\', 'u', '0', '0', '0'] ++ Nat.toDigits 16 c.toNat
    else if c.toNat < 32 then ['\\', 'u', '0', '0'] ++ Nat.toDigits 16 c.toNat
    else [c]

/-- A text between quotes. -/
def quote (text : String) : List Char :=
  '"' :: text.toList.flatMap escape ++ ['"']

end Json

/-- The text of a number. -/
def Number.text : Number → List Char
  | .int n => (toString n).toList
  | .float x => Decimal.Layout.data.write x

namespace Value

mutual

/-- The JSON text of a value, as characters. -/
def jsonChars : Value → List Char
  | .null => "null".toList
  | .bool true => "true".toList
  | .bool false => "false".toList
  | .number n => n.text
  | .string s => Json.quote s
  | .array items => '[' :: jsonItems items ++ [']']
  | .object fields => '\x7b' :: jsonFields fields ++ ['\x7d']

/-- The items of a list, separated by commas. -/
def jsonItems : List Value → List Char
  | [] => []
  | [item] => jsonChars item
  | item :: rest => jsonChars item ++ ',' :: jsonItems rest

/-- The entries of a map, separated by commas. -/
def jsonFields : List (String × Value) → List Char
  | [] => []
  | [(name, entry)] => Json.quote name ++ ':' :: jsonChars entry
  | (name, entry) :: rest => Json.quote name ++ ':' :: jsonChars entry ++ ',' :: jsonFields rest

end

/-- The JSON text of a value. -/
def json (v : Value) : String :=
  String.ofList v.jsonChars

end Value

end GraphMapper
