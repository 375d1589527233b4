import GraphMapper.Relation.Basic

/-!
Why a relation is refused, or cannot be used as asked.

* `RelationError`: the causes;
* `RelationError.message`: their wording.
-/

namespace GraphMapper

/-- Why a relation is refused, or cannot be used as asked. -/
inductive RelationError where
  /-- A relation over two hops of a kind for one. -/
  | notThrough (kind : RelationKind)
  /-- A hop that consists of two hops itself. -/
  | nestedHops
  | hopsApart (reached started : String)
  | keysMissing (strategy : StrategyKind)
  | edgeMissing (strategy : StrategyKind)
  | pivotMissing
  | pivotUnexpected
  /-- A pivot is needed where none is declared. -/
  | noPivot
  | unsupported (operation : String) (kind : RelationKind)
  | parentWithout (column : String)
  | relatedWithout (column : String)
  | createdWithout (column : String)
  | unregistered (name label : String)
  /-- A report from elsewhere. -/
  | reported (text : String)
deriving DecidableEq, Repr

namespace RelationError

/-- The name of a strategy in messages. -/
def strategyName : StrategyKind → String
  | .foreignKey => "foreign-key"
  | .nativeEdge => "native-edge"
  | .hybrid => "hybrid"

/-- The wording of a cause. -/
def message : RelationError → String
  | .notThrough kind => s!"{kind.name} is not a through relation"
  | .nestedHops => "through hops must be direct relations"
  | .hopsApart reached started =>
    s!"first hop ends at `{reached}` but second hop starts at `{started}`"
  | .keysMissing strategy => s!"{strategyName strategy} strategy requires local and foreign keys"
  | .edgeMissing strategy => s!"{strategyName strategy} strategy requires an edge type"
  | .pivotMissing => "belongs_to_many with foreign keys requires a pivot label"
  | .pivotUnexpected => "only belongs_to_many relations carry a pivot"
  | .noPivot => "no pivot label configured"
  | .unsupported operation kind => s!"{operation} is not supported on {kind.name}"
  | .parentWithout column => s!"parent record has no `{column}` value"
  | .relatedWithout column => s!"related record has no `{column}` value"
  | .createdWithout column => s!"created record has no `{column}` value"
  | .unregistered name label => s!"no relation `{name}` registered on `{label}`"
  | .reported text => text

end RelationError

end GraphMapper
