import GraphMapper.Filter.Document
import GraphMapper.Relation.Basic

/-!
Relations as values, for documents that describe them.

* `Keys.toValue`, `EdgeSpec.toValue`, `Pivot.toValue`, `Scope.toValue`: the parts of a relation;
* `Strategy.toValue`: a map whose single entry is named for the strategy;
* `Relation.toValue`: a relation with all that follows from its kind and strategy.
-/

namespace GraphMapper

def Keys.toValue (keys : Keys) : Value :=
  .object [("foreign_key", .string keys.foreignKey), ("local_key", .string keys.localKey)]

def EdgeSpec.toValue (edge : EdgeSpec) : Value :=
  .object [("direction", .string edge.direction.name), ("edge_type", .string edge.edgeType)]

/-- The strategy with its parts, under its own name. -/
def Strategy.toValue : Strategy → Value
  | .foreignKey keys => .object [("ForeignKey", keys.toValue)]
  | .nativeEdge edge parentKey relatedKey =>
    .object [("NativeEdge", .object
      [("edge", edge.toValue), ("parent_key", .string parentKey),
        ("related_key", .string relatedKey)])]
  | .hybrid keys edge parentKey relatedKey =>
    .object [("Hybrid", .object
      [("edge", edge.toValue), ("keys", keys.toValue), ("parent_key", .string parentKey),
        ("related_key", .string relatedKey)])]

def Pivot.toValue (pivot : Pivot) : Value :=
  .object
    [("attributes", .array (pivot.attributes.map .string)),
      ("foreign_pivot_key", .string pivot.parentReference),
      ("label", .string pivot.label),
      ("related_pivot_key", .string pivot.relatedReference),
      ("timestamps", .bool pivot.timestamps)]

def OrderBy.toValue (order : OrderBy) : Value :=
  .array [.string order.column, .string order.direction.text]

def Scope.toValue (scope : Scope) : Value :=
  .object
    [("conditions", scope.filter.toValue), ("empty", .bool scope.isEmpty),
      ("orders", .array (scope.orders.map OrderBy.toValue))]

namespace Relation

/-- A relation as a value, with its hops as given. -/
def describe (r : Relation) (hops : Value) : Value :=
  .object
    [("edge", (r.strategy.edge?.map fun edge => edge.1.toValue).getD .null),
      ("is_single", .bool r.isSingle),
      ("is_through", .bool r.kind.isThrough),
      ("keys", (r.strategy.keys?.map Keys.toValue).getD .null),
      ("kind", .string r.kind.name),
      ("name", .string r.name),
      ("parent_key_column", .string r.parentKey),
      ("parent_label", .string r.parentLabel),
      ("pivot", (r.pivot.map Pivot.toValue).getD .null),
      ("related_key_column", .string r.relatedKey),
      ("related_label", .string r.relatedLabel),
      ("scope", r.scope.toValue),
      ("strategy", r.strategy.toValue),
      ("strategy_kind", .string r.strategy.kind.name),
      ("through", hops),
      ("uses_edge", .bool r.strategy.edge?.isSome)]

/-- A relation as a value; one over two hops holds both of them. -/
def toValue : Relation → Value
  | .direct d => describe (.direct d) .null
  | .through t =>
    describe (.through t)
      (.array [describe (.direct t.first) .null, describe (.direct t.second) .null])

end Relation

end GraphMapper
