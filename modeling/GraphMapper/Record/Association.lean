import GraphMapper.Record.Basic
import GraphMapper.Relation.Pivot

/-!
Associations: which node a record belongs to.

* `Record.associate`, `Record.dissociate`: changing the owner of a record in memory;
* `LinkStatement`, `EdgeChange.statements`: writing a waiting change of edges;
* `DirectRelation.creation`: the statement that makes a related node tied to a parent.
-/

namespace GraphMapper

open Cypher (Change Expr Item Projection Property Statement Step Term)

/-! ### In memory -/

namespace Record

/-- Forgets the waiting changes of a relation. -/
def forgetPending (r : Record) (name : String) : Record :=
  { r with pending := r.pending.filter fun change => change.relation.name ≠ name }

/-- The relation as one that a record can be associated along. -/
def owned (r : Relation) (operation : String) : Except Error DirectRelation :=
  match r with
  | .direct d =>
    if d.kind = .belongsTo then .ok d
    else .error (.invalidRelation d.name (.unsupported operation (.direct d.kind)))
  | .through t => .error (.invalidRelation t.name (.unsupported operation (.through t.kind)))

/-- Replaces the waiting change of a relation that keeps edges. -/
def queue (r : Record) (d : DirectRelation) (change : EdgeChange) : Record :=
  match d.strategy.edge? with
  | none => r
  | some _ =>
    let kept := r.forgetPending d.name
    { kept with pending := kept.pending ++ [change] }

/-- Sets the foreign key of a relation that keeps properties. -/
def refer (r : Record) (d : DirectRelation) (key : Value) : Record :=
  match d.strategy.keys? with
  | none => r
  | some keys => r.set keys.foreignKey key

/-- Makes another record the owner along a relation.  The foreign key changes at once; changes of edges
wait until they are written. -/
def associate (r : Record) (relation : Relation) (owner : Record) : Except Error Record := do
  let d ← owned relation "associate"
  match owner.get? d.relatedKey with
  | none => .error (.invalidRelation d.name (.relatedWithout d.relatedKey))
  | some key =>
    return ((r.refer d key).queue d (.associate d key)).setRelation d.name (.one (some owner))

/-- Leaves the record without an owner along a relation. -/
def dissociate (r : Record) (relation : Relation) : Except Error Record := do
  let d ← owned relation "dissociate"
  return ((r.refer d .null).queue d (.dissociate d)).setRelation d.name (.one none)

end Record

/-! ### In the store -/

/-- The variable of the edge of an association. -/
def edgeVariable : String := "edge"

/-- A statement of a waiting change.  One that links has to return a row; otherwise there is no node
of this label with this key. -/
structure LinkStatement where
  statement : Statement
  linksTo : Option (String × Value)
deriving Repr

/-- The statement that removes the edges of a record along a relation. -/
def unlink (d : DirectRelation) (edge : EdgeSpec) (recordKey : String) (value : Value) :
    Statement :=
  numbered [value]
    [.find ⟨d.edgePattern edge edgeVariable,
        [.equals (Property.ofColumn parentVariable recordKey) (.parameter "p0")]⟩,
      .delete edgeVariable]

/-- The record that a change of edges is about. -/
def recordStep (d : DirectRelation) (recordKey : String) : Step :=
  .find ⟨nodePattern parentVariable d.parentLabel,
    [.equals (Property.ofColumn parentVariable recordKey) (.parameter "p0")]⟩

/-- Sets the foreign key of the record to a parameter, where properties are kept as well. -/
def referStep (keys : Option Keys) (parameter : String) : List Step :=
  match keys with
  | none => []
  | some keys =>
    [.set [.assign (Property.ofColumn parentVariable keys.foreignKey) (.parameter parameter)]]

/-- The statement that ties a record to its owner; it returns one row for each edge made. -/
def link (d : DirectRelation) (edge : EdgeSpec) (recordKey ownerKey : String)
    (value owner : Value) : Statement :=
  let refers := referStep d.strategy.keys? "p2"
  numbered (if refers.isEmpty then [value, owner] else [value, owner, owner])
    ([recordStep d recordKey,
        .find ⟨nodePattern relatedVariable d.relatedLabel,
          [.equals (Property.ofColumn relatedVariable ownerKey) (.parameter "p1")]⟩,
        .create (edge.creating ⟨parentVariable, none⟩ edgeVariable ⟨relatedVariable, none⟩)] ++
      refers ++ [.project false [.named .truth "linked"]])

/-- The statement that clears the foreign key of a record. -/
def clearReference (d : DirectRelation) (keys : Keys) (recordKey : String) (value : Value) :
    Statement :=
  numbered [value, .null] (recordStep d recordKey :: referStep (some keys) "p1")

/-- The statements of a waiting change of a record with the given attributes: the edges there are go
first, then the new owner is tied. -/
def EdgeChange.statements (change : EdgeChange) (attributes : Row) :
    Except Error (List LinkStatement) :=
  let d := change.relation
  match d.strategy.edge? with
  | none => .ok []
  | some (edge, recordKey, ownerKey) => do
    let value ← parentValue d.name attributes recordKey
    let first : LinkStatement := ⟨unlink d edge recordKey value, none⟩
    match change with
    | .associate _ owner =>
      return [first, ⟨link d edge recordKey ownerKey value owner, some (d.relatedLabel, owner)⟩]
    | .dissociate _ =>
      match d.strategy.keys? with
      | none => return [first]
      | some keys => return [first, ⟨clearReference d keys recordKey value, none⟩]

/-- The statement that makes a related node with the given attributes, tied to the parent. -/
def DirectRelation.creation (d : DirectRelation) (parent attributes : Row) :
    Except Error Statement := do
  let attributes ←
    match d.strategy.keys? with
    | none => pure attributes
    | some keys => do
      let key ← parentValue d.name parent keys.localKey
      pure (attributes.put keys.foreignKey key)
  let make (parameter : String) : List Step :=
    [.create (nodePattern relatedVariable d.relatedLabel),
      .set [.replace relatedVariable parameter]]
  let back : Step := .project false [.named (.properties relatedVariable) relatedVariable]
  match d.strategy.edge? with
  | none => return numbered [.object attributes] (make "p0" ++ [back]) [relatedVariable]
  | some (edge, parentKey, _) =>
    let key ← parentValue d.name parent parentKey
    return numbered [key, .object attributes]
      ([.find ⟨nodePattern parentVariable d.parentLabel,
          [.equals (Property.ofColumn parentVariable parentKey) (.parameter "p0")]⟩] ++
        make "p1" ++
        [.create (edge.creating ⟨parentVariable, none⟩ edgeVariable ⟨relatedVariable, none⟩), back])
      [relatedVariable]

end GraphMapper
