import GraphMapper.Error.Basic

/-!
Declaring relations.

* `Declaration`: what is said about a relation over one hop;
* `Declaration.build`: the relation, if the strategy has all it needs;
* `Relation.compose`: the relation over two hops;
* `Registry`: relations by the label of their parents and by name.
-/

namespace GraphMapper

/-- What is said about a relation over one hop, before it is checked. -/
structure Declaration where
  name : String
  kind : DirectKind
  parentLabel : String
  relatedLabel : String
  strategy : StrategyKind := .foreignKey
  keys : Option Keys := none
  edge : Option EdgeSpec := none
  parentKey : String := defaultKey
  relatedKey : String := defaultKey
  pivot : Option Pivot := none
  scope : Scope := {}
deriving Repr

namespace Declaration

/-- The key columns, if both are named. -/
def givenKeys? (d : Declaration) : Option Keys :=
  d.keys.filter fun keys => !keys.localKey.isEmpty && !keys.foreignKey.isEmpty

/-- The edges, if their type is named. -/
def givenEdge? (d : Declaration) : Option EdgeSpec :=
  d.edge.filter fun edge => !edge.edgeType.isEmpty

/-- The strategy with its parts. -/
def resolveStrategy (d : Declaration) : Except RelationError Strategy :=
  match d.strategy, d.givenKeys?, d.givenEdge? with
  | .foreignKey, some keys, _ => .ok (.foreignKey keys)
  | .foreignKey, none, _ => .error (.keysMissing .foreignKey)
  | .nativeEdge, _, some edge => .ok (.nativeEdge edge d.parentKey d.relatedKey)
  | .nativeEdge, _, none => .error (.edgeMissing .nativeEdge)
  | .hybrid, some keys, some edge => .ok (.hybrid keys edge d.parentKey d.relatedKey)
  | .hybrid, none, _ => .error (.keysMissing .hybrid)
  | .hybrid, some _, none => .error (.edgeMissing .hybrid)

/-- Many-to-many relations kept in properties need a pivot, other kinds have none. -/
def checkPivot (d : Declaration) (strategy : Strategy) : Except RelationError Unit :=
  if d.kind = .belongsToMany then
    if strategy.keys?.isSome && d.pivot.isNone then .error .pivotMissing else .ok ()
  else if d.pivot.isSome then .error .pivotUnexpected
  else .ok ()

/-- The declared relation. -/
def build (d : Declaration) : Except Error DirectRelation :=
  let checked : Except RelationError Strategy := do
    let strategy ← d.resolveStrategy
    d.checkPivot strategy
    return strategy
  match checked with
  | .error cause => .error (.invalidRelation d.name cause)
  | .ok strategy =>
    .ok
      { name := d.name, kind := d.kind, parentLabel := d.parentLabel
        relatedLabel := d.relatedLabel, strategy, pivot := d.pivot, scope := d.scope }

end Declaration

/-- The relation that leads over the first hop and then over the second.  Both have to be single hops,
and the second has to start where the first ends. -/
def Relation.compose (name : String) (kind : RelationKind) (first second : Relation) :
    Except Error Relation :=
  match kind, first, second with
  | .direct k, _, _ => .error (.invalidRelation name (.notThrough (.direct k)))
  | .through k, .direct first, .direct second =>
    if first.relatedLabel = second.parentLabel then
      .ok (.through { name, kind := k, first, second, scope := {} })
    else .error (.invalidRelation name (.hopsApart first.relatedLabel second.parentLabel))
  | .through _, _, _ => .error (.invalidRelation name .nestedHops)

/-! ### Registry -/

/-- Relations by the label of their parents and by name. -/
abbrev Registry := Fields (Fields Relation)

namespace Registry

/-- Adds a relation, in place of one of the same label and name. -/
def register (registry : Registry) (r : Relation) : Registry :=
  let named := (registry.get? r.parentLabel).getD []
  Fields.put registry r.parentLabel (Fields.put named r.name r)

/-- The relation of a label with the given name. -/
def find (registry : Registry) (label name : String) : Except Error Relation :=
  match (registry.get? label).bind (Fields.get? · name) with
  | some r => .ok r
  | none => .error (.invalidRelation name (.unregistered name label))

/-- The names of a label's relations, in order. -/
def namesOf (registry : Registry) (label : String) : List String :=
  ((registry.get? label).map Fields.names).getD []

end Registry

end GraphMapper
