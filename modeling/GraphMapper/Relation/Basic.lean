import GraphMapper.Cypher.Statement
import GraphMapper.Filter.Basic

/-!
Relations between the nodes of two labels.

* `DirectKind`, `ThroughKind`, `RelationKind`: how many nodes are related, and over how many hops;
* `Keys`, `EdgeSpec`, `Strategy`: what ties two nodes together;
* `Pivot`: the join record of a many-to-many relation;
* `Scope`: conditions and order of the related side;
* `DirectRelation`, `ThroughRelation`, `Relation`: one hop, two hops, either;
* `Relation.parentKey`, `Relation.relatedKey`: the columns by which the two sides are known.
-/

namespace GraphMapper

open Cypher (Direction SortDirection)

/-! ### Kinds -/

/-- The kinds of a relation over one hop. -/
inductive DirectKind where
  | belongsTo
  | hasOne
  | hasMany
  | belongsToMany
deriving DecidableEq, Repr

/-- The kinds of a relation over two hops. -/
inductive ThroughKind where
  | hasOneThrough
  | hasManyThrough
deriving DecidableEq, Repr

/-- The kinds of a relation. -/
inductive RelationKind where
  | direct (kind : DirectKind)
  | through (kind : ThroughKind)
deriving DecidableEq, Repr

/-- The name of a kind. -/
def RelationKind.name : RelationKind → String
  | .direct .belongsTo => "belongs_to"
  | .direct .hasOne => "has_one"
  | .direct .hasMany => "has_many"
  | .direct .belongsToMany => "belongs_to_many"
  | .through .hasOneThrough => "has_one_through"
  | .through .hasManyThrough => "has_many_through"

/-- All kinds. -/
def RelationKind.all : List RelationKind :=
  [.direct .belongsTo, .direct .hasOne, .direct .hasMany, .direct .belongsToMany,
    .through .hasOneThrough, .through .hasManyThrough]

/-- The kind of a name. -/
def RelationKind.ofName? (text : String) : Option RelationKind :=
  RelationKind.all.find? (·.name = text)

/-- Whether a parent has at most one related node. -/
def RelationKind.isSingle : RelationKind → Bool
  | .direct .belongsTo | .direct .hasOne | .through .hasOneThrough => true
  | .direct .hasMany | .direct .belongsToMany | .through .hasManyThrough => false

/-- Whether a relation of the kind goes over two hops. -/
def RelationKind.isThrough : RelationKind → Bool
  | .direct _ => false
  | .through _ => true

/-! ### Strategies -/

/-- The property by which nodes are known unless a relation says otherwise. -/
def defaultKey : String := "id"

/-- The columns of a relation kept in properties.  The one that refers to the other node is the
foreign key; a many-to-many relation has its references in the pivot, and the foreign key is the
column of the related node that the pivot refers to. -/
structure Keys where
  localKey : String
  foreignKey : String
deriving DecidableEq, Repr

/-- The edges of a relation, with their direction as seen from the parent. -/
structure EdgeSpec where
  edgeType : String
  direction : Direction
deriving DecidableEq, Repr

/-- What ties two nodes together. -/
inductive Strategy where
  | foreignKey (keys : Keys)
  | nativeEdge (edge : EdgeSpec) (parentKey relatedKey : String)
  /-- Property and edge are kept together; reads follow the edge. -/
  | hybrid (keys : Keys) (edge : EdgeSpec) (parentKey relatedKey : String)
deriving DecidableEq, Repr

/-- The choice of a strategy, before its parts are known. -/
inductive StrategyKind where
  | foreignKey
  | nativeEdge
  | hybrid
deriving DecidableEq, Repr

namespace StrategyKind

/-- The name of a choice. -/
def name : StrategyKind → String
  | .foreignKey => "foreign_key"
  | .nativeEdge => "native_edge"
  | .hybrid => "hybrid"

/-- The choice of a name. -/
def ofName? (text : String) : Option StrategyKind :=
  [foreignKey, nativeEdge, hybrid].find? (·.name = text)

end StrategyKind

namespace Strategy

def kind : Strategy → StrategyKind
  | .foreignKey _ => .foreignKey
  | .nativeEdge _ _ _ => .nativeEdge
  | .hybrid _ _ _ _ => .hybrid

/-- The key columns, if properties are kept. -/
def keys? : Strategy → Option Keys
  | .foreignKey keys | .hybrid keys _ _ _ => some keys
  | .nativeEdge _ _ _ => none

/-- The edges, if edges are kept, with the columns by which their ends are found. -/
def edge? : Strategy → Option (EdgeSpec × String × String)
  | .nativeEdge edge parentKey relatedKey | .hybrid _ edge parentKey relatedKey =>
    some (edge, parentKey, relatedKey)
  | .foreignKey _ => none

end Strategy

/-- The join record of a many-to-many relation: a node where properties are kept, the edge itself
where only edges are. -/
structure Pivot where
  label : String
  /-- Column that refers to the parent. -/
  parentReference : String
  /-- Column that refers to the related node. -/
  relatedReference : String
  /-- Further columns of interest to readers. -/
  attributes : List String := []
  /-- Whether writes record their time. -/
  timestamps : Bool := false
deriving DecidableEq, Repr

/-- A sort order by a column. -/
structure OrderBy where
  column : String
  direction : SortDirection
deriving DecidableEq, Repr

/-- Conditions and order of the related side. -/
structure Scope where
  filter : Filter := []
  orders : List OrderBy := []
deriving Repr, Inhabited

namespace Scope

def isEmpty (scope : Scope) : Bool :=
  scope.filter.isEmpty && scope.orders.isEmpty

/-- Adds conditions. -/
def constrain (scope : Scope) (filter : Filter) : Scope :=
  { scope with filter := Filter.merge scope.filter filter }

/-- Adds a sort order after those there are. -/
def orderBy (scope : Scope) (column : String) (direction : SortDirection) : Scope :=
  { scope with orders := scope.orders ++ [⟨column, direction⟩] }

/-- Both scopes hold; the orders of the first come first. -/
def both (first second : Scope) : Scope :=
  { filter := Filter.merge first.filter second.filter, orders := first.orders ++ second.orders }

end Scope

/-! ### Relations -/

/-- A relation over one hop. -/
structure DirectRelation where
  name : String
  kind : DirectKind
  parentLabel : String
  relatedLabel : String
  strategy : Strategy
  pivot : Option Pivot
  scope : Scope
deriving Repr

/-- A relation over two hops.  The scope is that of the final node, beside the second hop's own. -/
structure ThroughRelation where
  name : String
  kind : ThroughKind
  first : DirectRelation
  second : DirectRelation
  scope : Scope
deriving Repr

/-- A relation. -/
inductive Relation where
  | direct (d : DirectRelation)
  | through (t : ThroughRelation)
deriving Repr

namespace DirectRelation

/-- The column of a parent whose values lead to related nodes. -/
def parentKey (d : DirectRelation) : String :=
  match d.strategy with
  | .foreignKey keys =>
    match d.kind with
    | .belongsTo => keys.foreignKey
    | _ => keys.localKey
  | .nativeEdge _ parentKey _ | .hybrid _ _ parentKey _ => parentKey

/-- The column by which a related node is known to writes. -/
def relatedKey (d : DirectRelation) : String :=
  match d.strategy with
  | .foreignKey keys =>
    match d.kind with
    | .belongsTo => keys.localKey
    | .belongsToMany => keys.foreignKey
    | _ => defaultKey
  | .nativeEdge _ _ relatedKey | .hybrid _ _ _ relatedKey => relatedKey

end DirectRelation

namespace Relation

def name : Relation → String
  | .direct d => d.name
  | .through t => t.name

def kind : Relation → RelationKind
  | .direct d => .direct d.kind
  | .through t => .through t.kind

def parentLabel : Relation → String
  | .direct d => d.parentLabel
  | .through t => t.first.parentLabel

def relatedLabel : Relation → String
  | .direct d => d.relatedLabel
  | .through t => t.second.relatedLabel

/-- The strategy that starts from the parent. -/
def strategy : Relation → Strategy
  | .direct d => d.strategy
  | .through t => t.first.strategy

def pivot : Relation → Option Pivot
  | .direct d => d.pivot
  | .through _ => none

/-- The relation's own scope. -/
def scope : Relation → Scope
  | .direct d => d.scope
  | .through t => t.scope

def isSingle (r : Relation) : Bool :=
  r.kind.isSingle

/-- The column of a parent whose values lead to related nodes. -/
def parentKey : Relation → String
  | .direct d => d.parentKey
  | .through t => t.first.parentKey

/-- The column by which a related node is known to writes. -/
def relatedKey : Relation → String
  | .direct d => d.relatedKey
  | .through t =>
    match t.first.strategy with
    | .foreignKey _ => defaultKey
    | .nativeEdge _ _ relatedKey | .hybrid _ _ _ relatedKey => relatedKey

/-- All that the related side has to fulfil, and its order: for two hops the second hop's scope comes
first. -/
def finalScope : Relation → Scope
  | .direct d => d.scope
  | .through t => Scope.both t.second.scope t.scope

/-- Changes the scope. -/
def mapScope (f : Scope → Scope) : Relation → Relation
  | .direct d => .direct { d with scope := f d.scope }
  | .through t => .through { t with scope := f t.scope }

/-- Adds conditions on the related side. -/
def constrain (r : Relation) (filter : Filter) : Relation :=
  r.mapScope (·.constrain filter)

/-- Adds a sort order of the related side. -/
def orderBy (r : Relation) (column : String) (direction : SortDirection) : Relation :=
  r.mapScope (·.orderBy column direction)

end Relation

end GraphMapper
