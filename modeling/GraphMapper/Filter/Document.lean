import GraphMapper.Filter.Basic

/-!
Filters as values, for documents that describe them.

* `Operand.toValue`, `Correlation.toValue`: the parts of conditions;
* `Condition.toValue`: a map whose single entry is named for the kind of condition;
* `Clause.toValue`, `Filter.toValue`: members with their joiners, in order.
-/

namespace GraphMapper

namespace Operand

/-- The operand as a value; none is null. -/
def toValue : Operand → Value
  | .value v => .object [("value", v)]
  | .list vs => .object [("list", .array vs)]
  | .range low high => .object [("range", .array [low, high])]
  | .none => .null

end Operand

namespace Correlation

def toValue : Correlation → Value
  | .column outer inner => .object [("column", .array [.string outer, .string inner])]
  | .edge edgeType direction =>
    .object [("edge", .array [.string edgeType, .string direction.name])]
  | .through first label second =>
    .object [("through", .array [first.toValue, .string label, second.toValue])]

end Correlation

mutual

/-- A condition as a value.  Operators are spelled as their kinds are named. -/
def Condition.toValue : Condition → Value
  | .test column op operand =>
    .object [("predicate", .array [.string column, .string op.inspect, operand.toValue])]
  | .columns first op second =>
    .object [("columns", .array [.string first, .string op.inspect, .string second])]
  | .group filter => .object [("group", .array (clauseValues filter))]
  | .raw text values => .object [("raw", .array [.string text, .array values])]
  | .related label correlation filter =>
    .object [("exists", .object
      [("conditions", .array (clauseValues filter)), ("correlation", correlation.toValue),
        ("label", .string label)])]

/-- A member of a filter as a value. -/
def Clause.toValue : Clause Condition → Value
  | ⟨joiner, negated, condition⟩ =>
    .object
      [("boolean", (joiner.map fun j => Value.string j.text).getD .null),
        ("kind", condition.toValue), ("negated", .bool negated)]

/-- The members of a filter as values. -/
def clauseValues : List (Clause Condition) → List Value
  | [] => []
  | clause :: rest => clause.toValue :: clauseValues rest

end

/-- A filter as a value: the list of its members. -/
def Filter.toValue (filter : Filter) : Value :=
  .array (clauseValues filter)

end GraphMapper
