import GraphMapper.Value.Json

/-!
Keys: values compared by a text that tells them apart.

* `Value.keyText`: the text of a key, tagged so that a text never meets another kind of value;
* `Value.label`: a key as shown to a reader;
* `distinct`, `distinctKeys`: a list without repeated keys, first occurrences kept in order.
-/

namespace GraphMapper.Value

/-- The text by which keys are compared. -/
def keyText : Value → String
  | .string s => "s:" ++ s
  | v => "v:" ++ v.json

/-- A key as shown to a reader: a text without quotes, anything else in JSON. -/
def label : Value → String
  | .string s => s
  | v => v.json

/-- The values whose key text is not among `seen` and was not met earlier in the list. -/
def distinctFrom (seen : List String) : List Value → List Value
  | [] => []
  | v :: rest =>
    if seen.contains v.keyText then distinctFrom seen rest
    else v :: distinctFrom (v.keyText :: seen) rest

/-- A list of keys without repetitions, in order of first occurrence. -/
def distinct (values : List Value) : List Value :=
  distinctFrom [] values

/-- The keys of a list that are not null, without repetitions, in order of first occurrence. -/
def distinctKeys (values : List Value) : List Value :=
  distinct (values.filter (!·.isNull))

/-- Whether a key is among the values. -/
def isKeyOf (values : List Value) (key : Value) : Bool :=
  values.any fun v => v.keyText = key.keyText

end GraphMapper.Value
