import GraphMapper.Relation.Pattern

/-!
Pivots of many-to-many relations.

* `PivotChanges`, `diff`, `toggle`: what has to change for a wanted set of related keys;
* `currentKeys`, `attach`, `detach`, `updatePivot`: the statements that read and change pivots.

A relation kept in properties has one pivot node for each pair, one kept in edges has the attributes
on the edge, a hybrid one has both.
-/

namespace GraphMapper

open Cypher (Change Expr Item Match Property Statement Step Term)

/-! ### Changes -/

/-- The related keys to attach, to detach and to keep with new attributes. -/
structure PivotChanges where
  attached : List Value := []
  detached : List Value := []
  updated : List Value := []
deriving DecidableEq, Repr, Inhabited

namespace PivotChanges

def isEmpty (changes : PivotChanges) : Bool :=
  changes.attached.isEmpty && changes.detached.isEmpty && changes.updated.isEmpty

/-- What leads from the current keys to the desired ones.  Keys that stay are updated if there is
something to write to their pivots. -/
def diff (desired current : List Value) (refresh : Bool) : PivotChanges :=
  let desired := Value.distinct desired
  let current := Value.distinct current
  { attached := desired.filter fun key => !Value.isKeyOf current key
    detached := current.filter fun key => !Value.isKeyOf desired key
    updated := if refresh then desired.filter (Value.isKeyOf current) else [] }

/-- Attaches the keys that are absent and detaches those that are present. -/
def toggle (keys current : List Value) : PivotChanges :=
  let keys := Value.distinct keys
  { attached := keys.filter fun key => !Value.isKeyOf current key
    detached := keys.filter (Value.isKeyOf current) }

/-- The changes as a value. -/
def toValue (changes : PivotChanges) : Value :=
  .object
    [("attached", .array changes.attached),
      ("detached", .array changes.detached),
      ("updated", .array changes.updated)]

end PivotChanges

/-! ### Parts of the statements -/

/-- The value of a column that a parent has to have. -/
def parentValue (relation : String) (parent : Row) (column : String) : Except Error Value :=
  match parent.get? column with
  | none | some .null => .error (.invalidRelation relation (.parentWithout column))
  | some v => .ok v

namespace Relation

/-- The relation as one with pivots. -/
def manyToMany (r : Relation) (operation : String) : Except Error DirectRelation :=
  match r with
  | .direct d =>
    if d.kind = .belongsToMany then .ok d
    else .error (.invalidRelation d.name (.unsupported operation (.direct d.kind)))
  | .through t => .error (.invalidRelation t.name (.unsupported operation (.through t.kind)))

end Relation

/-- The column with the related keys that are attached to a parent. -/
def relatedKeyColumn : String := "related_key"

/-- Attributes of a pivot with the time at which it is written, if the relation records it. -/
def stamped (pivot : Option Pivot) (now : String) (attributes : Row) (creating : Bool) : Row :=
  match pivot with
  | none => attributes
  | some spec =>
    if spec.timestamps then
      let attributes := if creating then attributes.put "created_at" (.string now) else attributes
      attributes.put "updated_at" (.string now)
    else attributes

namespace DirectRelation

/-- The pivot of a relation kept in properties. -/
def pivotSpec (d : DirectRelation) : Except Error Pivot :=
  match d.pivot with
  | none => .error (.invalidRelation d.name .noPivot)
  | some spec => .ok spec

/-- A column of the pivot. -/
def ofPivot (column : String) : Property :=
  Property.ofColumn pivotVariable column

/-- The edges of the relation between a parent and what is related to it. -/
def edgePattern (d : DirectRelation) (edge : EdgeSpec) (binder : String) : Cypher.Pattern :=
  edge.between ⟨parentVariable, some d.parentLabel⟩ binder ⟨relatedVariable, some d.relatedLabel⟩

/-- The related keys that are attached to a parent. -/
def currentKeys (d : DirectRelation) (parent : Row) : Except Error Statement :=
  match d.strategy with
  | .foreignKey keys => do
    let spec ← d.pivotSpec
    let key ← parentValue d.name parent keys.localKey
    return numbered [key]
      [.find ⟨nodePattern pivotVariable spec.label,
          [.equals (ofPivot spec.parentReference) (.parameter "p0")]⟩,
        .project false [.named (.property (ofPivot spec.relatedReference)) relatedKeyColumn]]
      [relatedKeyColumn]
  | .nativeEdge edge parentKey relatedKey | .hybrid _ edge parentKey relatedKey => do
    let key ← parentValue d.name parent parentKey
    return numbered [key]
      [.find ⟨d.edgePattern edge pivotVariable,
          [.equals (Property.ofColumn parentVariable parentKey) (.parameter "p0")]⟩,
        .project false
          [.named (.property (Property.ofColumn relatedVariable relatedKey)) relatedKeyColumn]]
      [relatedKeyColumn]

/-! ### Attaching -/

/-- Makes a pivot node for each related key. -/
def attachNodes (d : DirectRelation) (keys : Keys) (parent : Row) (relatedKeys : List Value)
    (attributes : Row) : Except Error Statement := do
  let spec ← d.pivotSpec
  let key ← parentValue d.name parent keys.localKey
  return numbered [.array relatedKeys, .object (attributes.put spec.parentReference key)]
    [.unwind "p0" relatedKeyColumn,
      .create (nodePattern pivotVariable spec.label),
      .set [.replace pivotVariable "p1",
        .assign (ofPivot spec.relatedReference) (.bound relatedKeyColumn)]]

/-- Makes an edge to each node with one of the related keys. -/
def attachEdges (d : DirectRelation) (edge : EdgeSpec) (parentKey relatedKey : String)
    (parent : Row) (relatedKeys : List Value) (attributes : Row) : Except Error Statement := do
  let key ← parentValue d.name parent parentKey
  return numbered [key, .array relatedKeys, .object attributes]
    [.find ⟨nodePattern parentVariable d.parentLabel,
        [.equals (Property.ofColumn parentVariable parentKey) (.parameter "p0")]⟩,
      .unwind "p1" relatedKeyColumn,
      .find ⟨nodePattern relatedVariable d.relatedLabel,
        [.equals (Property.ofColumn relatedVariable relatedKey) (.bound relatedKeyColumn)]⟩,
      .create (edge.creating ⟨parentVariable, none⟩ pivotVariable ⟨relatedVariable, none⟩),
      .set [.replace pivotVariable "p2"]]

/-- A statement about pivot nodes and one about edges, as far as the strategy keeps them. -/
def bothSides (d : DirectRelation) (nodes : Keys → Except Error Statement)
    (edges : EdgeSpec → String → String → Except Error Statement) :
    Except Error (List Statement) :=
  match d.strategy with
  | .foreignKey keys => return [← nodes keys]
  | .nativeEdge edge parentKey relatedKey => return [← edges edge parentKey relatedKey]
  | .hybrid keys edge parentKey relatedKey =>
    return [← nodes keys, ← edges edge parentKey relatedKey]

/-- The statements that attach related keys to a parent. -/
def attach (d : DirectRelation) (now : String) (parent : Row) (relatedKeys : List Value)
    (attributes : Row) : Except Error (List Statement) :=
  let relatedKeys := Value.distinct relatedKeys
  if relatedKeys.isEmpty then .ok []
  else
    let attributes := stamped d.pivot now attributes true
    d.bothSides (fun keys => d.attachNodes keys parent relatedKeys attributes)
      fun edge parentKey relatedKey =>
        d.attachEdges edge parentKey relatedKey parent relatedKeys attributes

/-! ### Detaching -/

/-- Deletes the pivots of a pattern whose parent has the key `p0`, and, if keys are given, whose
related key is among `p1`. -/
def detachFrom (pattern : Cypher.Pattern) (ofParent ofRelated : Property) (key : Value)
    (relatedKeys : Option (List Value)) : Statement :=
  let parentHolds : Expr := .equals ofParent (.parameter "p0")
  match relatedKeys with
  | none => numbered [key] [.find ⟨pattern, [parentHolds]⟩, .delete pivotVariable]
  | some keys =>
    numbered [key, .array (Value.distinct keys)]
      [.find ⟨pattern, [parentHolds, .oneOf ofRelated "p1"]⟩, .delete pivotVariable]

/-- The statements that detach related keys from a parent, or all of them if none are given. -/
def detach (d : DirectRelation) (parent : Row) (relatedKeys : Option (List Value)) :
    Except Error (List Statement) :=
  if relatedKeys.any (·.isEmpty) then .ok []
  else
    d.bothSides
      (fun keys => do
        let spec ← d.pivotSpec
        let key ← parentValue d.name parent keys.localKey
        return detachFrom (nodePattern pivotVariable spec.label) (ofPivot spec.parentReference)
          (ofPivot spec.relatedReference) key relatedKeys)
      fun edge parentKey relatedKey => do
        let key ← parentValue d.name parent parentKey
        return detachFrom (d.edgePattern edge pivotVariable)
          (Property.ofColumn parentVariable parentKey)
          (Property.ofColumn relatedVariable relatedKey) key relatedKeys

/-! ### Updating -/

/-- Adds properties to the pivots of a pattern between a parent and a related key, and tells how many
there are. -/
def updateIn (pattern : Cypher.Pattern) (ofParent ofRelated : Property)
    (key relatedKey : Value) (attributes : Row) : Statement :=
  numbered [key, relatedKey, .object attributes]
    [.find ⟨pattern,
        [.equals ofParent (.parameter "p0"), .equals ofRelated (.parameter "p1")]⟩,
      .set [.extend pivotVariable "p2"],
      .project false [.named (.count pivotVariable) affectedColumn]]
    [affectedColumn]

/-- The statements that add attributes to the pivot between a parent and a related key. -/
def updatePivot (d : DirectRelation) (now : String) (parent : Row) (relatedKey : Value)
    (attributes : Row) : Except Error (List Statement) :=
  let attributes := stamped d.pivot now attributes false
  d.bothSides
    (fun keys => do
      let spec ← d.pivotSpec
      let key ← parentValue d.name parent keys.localKey
      return updateIn (nodePattern pivotVariable spec.label) (ofPivot spec.parentReference)
        (ofPivot spec.relatedReference) key relatedKey attributes)
    fun edge parentKey relatedColumn => do
      let key ← parentValue d.name parent parentKey
      return updateIn (d.edgePattern edge pivotVariable)
        (Property.ofColumn parentVariable parentKey)
        (Property.ofColumn relatedVariable relatedColumn) key relatedKey attributes

end DirectRelation

end GraphMapper
