import GraphMapper.Client.Query
import GraphMapper.Record.Association
import GraphMapper.Record.Loading

/-!
Relations read and written by a client.

* `load`, `loadMissing`, `batchLoad`: related records;
* `sync`, `toggle`, `attach`, `detach`, `updateExistingPivot`: pivots;
* `persistAssociations`: the waiting changes of a record;
* `createRelated`: a new node tied to a parent.

Each write is one managed unit of work, so the statements of a relation that is kept in two ways take
effect together or not at all.
-/

namespace GraphMapper.Client

open Cypher (Statement)

variable {σ : Type} [Engine σ]

/-! ### Loading -/

/-- Answers a query of a loader. -/
def answer (q : Query) : Action σ (Except Error (List Row)) :=
  Action.attempted (fetch q)

/-- Loads the paths, in place of what was loaded before. -/
def load (records : List Record) (paths : List String) : Action σ (List Record × Option Error) := do
  loadPaths answer (← MonadState.get).relations false records paths

/-- Loads what the paths speak of and is not loaded yet. -/
def loadMissing (records : List Record) (paths : List String) :
    Action σ (List Record × Option Error) := do
  loadPaths answer (← MonadState.get).relations true records paths

/-- What is related to the parents, by their keys. -/
def batchLoad (parents : List Record) (r : Relation) : Action σ Batch := do
  Action.ofExcept (← GraphMapper.batchLoad answer parents r)

/-! ### Pivots -/

/-- Runs statements in a transaction and gives all their rows. -/
def runAll (handle : Handle) : List Statement → Action σ (List Row)
  | [] => return []
  | s :: rest => do
    let rows ← handle.run s.query
    return rows ++ (← runAll handle rest)

/-- The related keys that are attached to a parent. -/
def attachedKeys (handle : Handle) (d : DirectRelation) (parent : Row) : Action σ (List Value) := do
  let rows ← handle.run (← Action.ofExcept (d.currentKeys parent)).query
  return (rows.filterMap (Fields.get? · relatedKeyColumn)).filter (!·.isNull)

/-- Detaches and attaches what the changes say. -/
def applyChanges (handle : Handle) (d : DirectRelation) (parent : Row) (changes : PivotChanges)
    (attributes : Row) : Action σ Unit := do
  let _ ← runAll handle (← Action.ofExcept (d.detach parent (some changes.detached)))
  let now ← Action.engine Engine.clock
  let _ ← runAll handle (← Action.ofExcept (d.attach now parent changes.attached attributes))

/-- Writes attributes to the pivots of the given related keys. -/
def refreshPivots (handle : Handle) (d : DirectRelation) (parent attributes : Row) :
    List Value → Action σ Unit
  | [] => return ()
  | key :: rest => do
    let now ← Action.engine Engine.clock
    let _ ← runAll handle (← Action.ofExcept (d.updatePivot now parent key attributes))
    refreshPivots handle d parent attributes rest

/-- Makes the desired keys the attached ones.  Keys that stay get the pivot attributes, if there are
any; without `detaching` no key is detached. -/
def sync (r : Relation) (parent : Row) (desired : List Value) (pivot : Option Row)
    (detaching : Bool) : Action σ PivotChanges := do
  let d ← Action.ofExcept (r.manyToMany "sync")
  let attributes := pivot.getD []
  write fun handle => do
    let current ← attachedKeys handle d parent
    let changes := PivotChanges.diff desired current pivot.isSome
    let changes := if detaching then changes else { changes with detached := [] }
    applyChanges handle d parent changes attributes
    refreshPivots handle d parent attributes changes.updated
    return changes

/-- Attaches the keys that are absent and detaches those that are present. -/
def toggle (r : Relation) (parent : Row) (keys : List Value) (pivot : Option Row) :
    Action σ PivotChanges := do
  let d ← Action.ofExcept (r.manyToMany "toggle")
  write fun handle => do
    let changes := PivotChanges.toggle keys (← attachedKeys handle d parent)
    applyChanges handle d parent changes (pivot.getD [])
    return changes

/-- Attaches keys to a parent. -/
def attach (r : Relation) (parent : Row) (keys : List Value) (attributes : Row) :
    Action σ Unit := do
  let d ← Action.ofExcept (r.manyToMany "attach")
  let now ← Action.engine Engine.clock
  let statements ← Action.ofExcept (d.attach now parent keys attributes)
  write fun handle => do
    let _ ← runAll handle statements

/-- Detaches keys from a parent, or all of them if none are given.  Nothing to detach is no unit of
work. -/
def detach (r : Relation) (parent : Row) (keys : Option (List Value)) : Action σ Unit := do
  let d ← Action.ofExcept (r.manyToMany "detach")
  let statements ← Action.ofExcept (d.detach parent keys)
  if statements.isEmpty then return ()
  else
    write fun handle => do
      let _ ← runAll handle statements

/-- The greatest number of pivots that the answers tell. -/
def greatestAffected (rows : List Row) : Nat :=
  (rows.filterMap fun row => (row.get? affectedColumn).bind Value.asUnsigned?).foldl max 0

/-- Writes attributes to the pivot between a parent and a related key, and tells how many pivots there
are. -/
def updateExistingPivot (r : Relation) (parent : Row) (key : Value) (attributes : Row) :
    Action σ Nat := do
  let d ← Action.ofExcept (r.manyToMany "update_existing_pivot")
  let now ← Action.engine Engine.clock
  let statements ← Action.ofExcept (d.updatePivot now parent key attributes)
  write fun handle => return greatestAffected (← runAll handle statements)

/-! ### Associations -/

/-- Runs the statements of waiting changes.  One that links and finds no node to link to is a
failure. -/
def runLinks (handle : Handle) : List LinkStatement → Action σ Unit
  | [] => return ()
  | s :: rest => do
    let rows ← handle.run s.statement.query
    match s.linksTo with
    | some (label, key) =>
      if rows.isEmpty then Action.fail (.notFound label [key.json]) else runLinks handle rest
    | none => runLinks handle rest

/-- Writes the waiting changes of a record, and tells how many there were.  Only then they are no longer
waiting. -/
def persistAssociations (record : Record) : Action σ (Nat × Record) := do
  if record.pending.isEmpty then return (0, record)
  else
    let statements ←
      Action.ofExcept (record.pending.mapM fun change => change.statements record.attributes)
    write fun handle => runLinks handle statements.flatten
    return (record.pending.length, { record with pending := [] })

/-! ### New nodes -/

/-- The relation as one along which nodes can be made. -/
def creatable (r : Relation) : Except Error DirectRelation :=
  match r with
  | .direct d =>
    if d.kind = .belongsTo then
      .error (.invalidRelation d.name (.unsupported "create" (.direct d.kind)))
    else .ok d
  | .through t => .error (.invalidRelation t.name (.unsupported "create" (.through t.kind)))

/-- Makes a node and attaches it to a parent. -/
def createAttached (d : DirectRelation) (parent attributes pivot : Row) : Action σ Record :=
  write fun handle => do
    let rows ← handle.run (GraphMapper.insert d.relatedLabel attributes).query
    let row ← Action.ofExcept (createdRow d.relatedLabel rows)
    let record ← Action.ofExcept (Record.ofColumn d.relatedLabel row insertedColumn).1
    match record.get? d.relatedKey with
    | none => Action.fail (.invalidRelation d.name (.createdWithout d.relatedKey))
    | some key => do
      let now ← Action.engine Engine.clock
      let _ ← runAll handle (← Action.ofExcept (d.attach now parent [key] pivot))
      return record

/-- Makes a node tied to a parent by a foreign key or an edge. -/
def createOwned (d : DirectRelation) (parent attributes : Row) : Action σ Record := do
  let s ← Action.ofExcept (d.creation parent attributes)
  write fun handle => do
    let rows ← handle.run s.query
    match rows.getLast? with
    | some row => Action.ofExcept (Record.ofColumn d.relatedLabel row relatedVariable).1
    | none => do
      let key ← Action.ofExcept (parentValue d.name parent d.parentKey)
      Action.fail (.notFound d.parentLabel [key.json])

/-- Makes a node related to a parent. -/
def createRelated (r : Relation) (parent attributes : Row) (pivot : Option Row) :
    Action σ Record := do
  let d ← Action.ofExcept (creatable r)
  match d.kind with
  | .belongsToMany => createAttached d parent attributes (pivot.getD [])
  | _ => createOwned d parent attributes

end GraphMapper.Client
