import GraphMapper.Relation.Declaration
import GraphMapper.Selection.Statement
import GraphMapper.Value.Key

/-!
Relations as graph patterns.

* `DirectRelation.hop`: the matches that lead from a bound node over one hop;
* `DirectRelation.directRoute?`: the matches for given keys that need no parent node;
* `Lookup`, `Relation.lookup`: the query that fetches what is related to parents of given keys, one
  row for each pair;
* `Relation.having`: the condition that something is related;
* `Selection.havingRelated`, `Selection.lackingRelated`: selections by it.
-/

namespace GraphMapper

open Cypher (Edge Expr Item Match Node Pattern Property Statement Step)

/-! ### Names in queries over relations -/

def parentVariable : String := "parent"

def relatedVariable : String := "related"

def pivotVariable : String := "pivot"

/-- The column of a lookup with the key of the parent. -/
def parentKeyColumn : String := "__parent_key"

/-- The column of a lookup with the related node. -/
def relatedColumn : String := "related"

/-- The column of a lookup with the pivot. -/
def pivotColumn : String := "pivot"

/-! ### Patterns -/

/-- A labelled node on its own. -/
def nodePattern (binder label : String) : Pattern :=
  .node ⟨binder, some label⟩

/-- Two nodes with an edge of the relation between them. -/
def EdgeSpec.between (edge : EdgeSpec) (left : Node) (binder : String) (right : Node) : Pattern :=
  .path left ⟨binder, edge.edgeType, edge.direction⟩ right

/-- The same for an edge to be made: one without direction is made as outgoing. -/
def EdgeSpec.creating (edge : EdgeSpec) (left : Node) (binder : String) (right : Node) : Pattern :=
  let direction :=
    match edge.direction with
    | .both => .outgoing
    | other => other
  .path left ⟨binder, edge.edgeType, direction⟩ right

/-- Equality of a column of one variable with a column of another. -/
def columnsEqual (left leftColumn right rightColumn : String) : Expr :=
  .equals (Property.ofColumn left leftColumn) (.property (Property.ofColumn right rightColumn))

namespace DirectRelation

/-- The matches that lead from the bound node `source` to a related node `target`. -/
def hop (d : DirectRelation) (source target pivot : String) : List (Match Expr) :=
  let related := nodePattern target d.relatedLabel
  match d.strategy with
  | .nativeEdge edge _ _ | .hybrid _ edge _ _ =>
    let binder := if d.kind = .belongsToMany then pivot else ""
    [⟨edge.between ⟨source, none⟩ binder ⟨target, some d.relatedLabel⟩, []⟩]
  | .foreignKey keys =>
    match d.kind with
    | .belongsTo => [⟨related, [columnsEqual target keys.localKey source keys.foreignKey]⟩]
    | .hasOne | .hasMany => [⟨related, [columnsEqual target keys.foreignKey source keys.localKey]⟩]
    | .belongsToMany =>
      match d.pivot with
      | none => []
      | some spec =>
        [⟨nodePattern pivot spec.label,
            [columnsEqual pivot spec.parentReference source keys.localKey]⟩,
          ⟨related, [columnsEqual target keys.foreignKey pivot spec.relatedReference]⟩]

/-- Where properties tie the nodes, the key of the parent is found at the related node or at the
pivot: the matches for a list of keys, and the property that holds the key. -/
def directRoute? (d : DirectRelation) (keysParameter : String) :
    Option (List (Match Expr) × Property) :=
  let related := nodePattern relatedVariable d.relatedLabel
  match d.strategy, d.kind, d.pivot with
  | .foreignKey keys, .belongsToMany, some spec =>
    let key := Property.ofColumn pivotVariable spec.parentReference
    some
      ([⟨nodePattern pivotVariable spec.label, [.oneOf key keysParameter]⟩,
        ⟨related, [columnsEqual relatedVariable keys.foreignKey pivotVariable
          spec.relatedReference]⟩], key)
  | .foreignKey _, .belongsToMany, none => none
  | .foreignKey keys, .belongsTo, _ =>
    let key := Property.ofColumn relatedVariable keys.localKey
    some ([⟨related, [.oneOf key keysParameter]⟩], key)
  | .foreignKey keys, _, _ =>
    let key := Property.ofColumn relatedVariable keys.foreignKey
    some ([⟨related, [.oneOf key keysParameter]⟩], key)
  | _, _, _ => none

/-- How a related node hangs together with its parent. -/
def correlation (d : DirectRelation) : Correlation :=
  match d.strategy with
  | .nativeEdge edge _ _ | .hybrid _ edge _ _ => .edge edge.edgeType edge.direction
  | .foreignKey keys =>
    match d.kind, d.pivot with
    | .belongsTo, _ => .column keys.foreignKey keys.localKey
    | .belongsToMany, some spec =>
      .through (.column keys.localKey spec.parentReference) spec.label
        (.column spec.relatedReference keys.foreignKey)
    | _, _ => .column keys.localKey keys.foreignKey

end DirectRelation

/-! ### Lookups -/

/-- A query for what is related to parents of given keys. -/
structure Lookup where
  statement : Statement
  /-- The column of the parents that holds their keys. -/
  parentColumn : String
  single : Bool
  withPivot : Bool
deriving Repr

namespace Relation

/-- The matches of a lookup for a list of keys, and the property that holds the key of the parent. -/
def route (r : Relation) (keysParameter : String) : List (Match Expr) × Property :=
  let fromParent (hops : List (Match Expr)) : List (Match Expr) × Property :=
    let key := Property.ofColumn parentVariable r.parentKey
    (⟨nodePattern parentVariable r.parentLabel, [.oneOf key keysParameter]⟩ :: hops, key)
  match r with
  | .direct d =>
    match d.directRoute? keysParameter with
    | some found => found
    | none => fromParent (d.hop parentVariable relatedVariable pivotVariable)
  | .through t =>
    fromParent
      (t.first.hop parentVariable "mid0" "pivot0" ++
        t.second.hop "mid0" relatedVariable pivotVariable)

/-- Whether the rows of a lookup carry a pivot. -/
def withPivot (r : Relation) : Bool :=
  r.kind = .direct .belongsToMany

/-- The columns of a lookup. -/
def lookupColumns (r : Relation) : List String :=
  [parentKeyColumn, relatedColumn] ++ (if r.withPivot then [pivotColumn] else [])

/-- The query for what is related to parents of the given keys: a row for each pair of a parent and a
related node that fulfils the scope. -/
def lookup (r : Relation) (keys : List Value) : Except CompileError Lookup := do
  let scope := r.finalScope
  let statement ← Compiling.statement r.lookupColumns do
    let keysParameter ← Compiling.bind (.array (Value.distinctKeys keys))
    let (route, key) := r.route keysParameter
    let condition ← scope.filter.compile relatedVariable
    let items : List Item :=
      [.named (.property key) parentKeyColumn,
        .named (.properties relatedVariable) relatedColumn] ++
      (if r.withPivot then [.named (.properties pivotVariable) pivotColumn] else [])
    return (addCondition route condition).map Step.find ++ [.project false items] ++
      sortStep relatedVariable scope.orders
  return { statement, parentColumn := r.parentKey, single := r.isSingle, withPivot := r.withPivot }

/-! ### Conditions on what is related -/

/-- How a related node hangs together with its parent. -/
def correlation : Relation → Correlation
  | .direct d => d.correlation
  | .through t => .through t.first.correlation t.first.relatedLabel t.second.correlation

/-- Some related node fulfils the scope and the filter. -/
def having (r : Relation) (filter : Filter) : Condition :=
  .related r.relatedLabel r.correlation (Filter.merge r.finalScope.filter filter)

end Relation

namespace Selection

/-- Keeps the nodes with a related node that fulfils the filter. -/
def havingRelated (s : Selection) (r : Relation) (filter : Filter) : Selection :=
  s.and (r.having filter)

/-- Keeps the nodes without such a related node. -/
def lackingRelated (s : Selection) (r : Relation) (filter : Filter) : Selection :=
  s.andNot (r.having filter)

end Selection

end GraphMapper
