import GraphMapper.Value.Basic

/-!
Values in the form in which they travel to an engine.

* `Wire`: the kinds of the wire, whose integers are signed and have 64 bits;
* `Wire.ofValue`: the wire form of a value;
* `Wire.describe`: a wire form with the names of its kinds.
-/

namespace GraphMapper

/-- A value on its way to an engine. -/
inductive Wire where
  | null
  | boolean (b : Bool)
  | integer (n : Int)
  | float (x : Float)
  | string (s : String)
  | list (items : List Wire)
  | map (fields : List (String × Wire))
deriving Repr, Inhabited

namespace Wire

/-- The wire form of a number: an integer where it fits, and otherwise the nearest double. -/
def ofNumber (n : Number) : Wire :=
  match n.asSigned? with
  | some n => .integer n
  | none => .float n.toFloat

mutual

/-- The wire form of a value. -/
def ofValue : Value → Wire
  | .null => .null
  | .bool b => .boolean b
  | .number n => ofNumber n
  | .string s => .string s
  | .array items => .list (ofItems items)
  | .object fields => .map (ofFields fields)

/-- The wire forms of the items of a list. -/
def ofItems : List Value → List Wire
  | [] => []
  | v :: rest => ofValue v :: ofItems rest

/-- The wire forms of the entries of a map. -/
def ofFields : List (String × Value) → List (String × Wire)
  | [] => []
  | (name, v) :: rest => (name, ofValue v) :: ofFields rest

end

mutual

/-- A wire form as a value: the name of its kind, then what it holds. -/
def describe : Wire → Value
  | .null => .array [.string "null"]
  | .boolean b => .array [.string "boolean", .bool b]
  | .integer n => .array [.string "integer", .int n]
  | .float x => .array [.string "float", .float x]
  | .string s => .array [.string "string", .string s]
  | .list items => .array [.string "list", .array (describeItems items)]
  | .map fields => .array [.string "map", .object (describeFields fields)]

/-- The wire forms of a list as values. -/
def describeItems : List Wire → List Value
  | [] => []
  | w :: rest => describe w :: describeItems rest

/-- The wire forms of a map as values. -/
def describeFields : List (String × Wire) → List (String × Value)
  | [] => []
  | (name, w) :: rest => (name, describe w) :: describeFields rest

end

end Wire

end GraphMapper
