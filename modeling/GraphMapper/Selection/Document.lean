import GraphMapper.Relation.Document
import GraphMapper.Selection.Basic

/-!
Selections as values, for documents that show them.

* `Selection.toValue`: a selection with its filter by the number of members.
-/

namespace GraphMapper

/-- A selection as a value; of its filter only the size. -/
def Selection.toValue (s : Selection) : Value :=
  .object
    [("alias", .string s.binder),
      ("columns", .array (s.columns.map .string)),
      ("conditions", .int s.filter.length),
      ("distinct", .bool s.distinct),
      ("label", .string s.label),
      ("limit", (s.limit.map fun n => Value.int n).getD .null),
      ("offset", (s.offset.map fun n => Value.int n).getD .null),
      ("orders", .array (s.orders.map OrderBy.toValue))]

end GraphMapper
