import GraphMapper.Record.Basic
import GraphMapper.Relation.Pattern

/-!
Loading related records, one query for each level.

* `Batch`, `Batch.ofRows`: the related records of a lookup, by the key of the parent;
* `Record.attach`: putting a parent's part of a batch in its place;
* `expandPaths`: the levels that a list of dotted paths speaks of;
* `recordsAt`, `Record.modifyAt`: the records at the end of a path;
* `batchLoad`, `loadPaths`: loading one relation and loading all levels, by whatever means queries
  are answered.
-/

namespace GraphMapper

/-! ### Batches -/

/-- Related records by the key text of their parent. -/
abbrev Batch := Fields (List Record)

/-- The related record of a row, with its pivot where the relation has one. -/
def relatedOf (r : Relation) (row : Row) : Except Error Record := do
  let (record, rest) := Record.ofColumn r.relatedLabel row relatedColumn
  let record ← record
  if r.withPivot then
    match rest.get? pivotColumn with
    | some (.object pivot) => return { record with pivot := some pivot }
    | _ => return record
  else return record

namespace Batch

/-- Adds a record to those of a key. -/
def add (batch : Batch) (key : Value) (record : Record) : Batch :=
  Fields.put batch key.keyText (((batch.get? key.keyText).getD []) ++ [record])

/-- Adds the rows of a lookup; a row without a parent key is passed over. -/
def addRows (r : Relation) (batch : Batch) : List Row → Except Error Batch
  | [] => .ok batch
  | row :: rest =>
    match row.get? parentKeyColumn with
    | none => addRows r batch rest
    | some key => do
      let record ← relatedOf r (row.drop parentKeyColumn)
      addRows r (batch.add key record) rest

/-- The related records in the rows of a lookup. -/
def ofRows (r : Relation) (rows : List Row) : Except Error Batch :=
  addRows r [] rows

end Batch

/-- The parents' keys for a relation, each once. -/
def parentKeys (parents : List Record) (r : Relation) : List Value :=
  Value.distinctKeys (parents.filterMap (·.get? r.parentKey))

namespace Record

/-- Puts a parent's part of a batch in place of what was loaded for the relation; a parent that has no
part in it has nothing related. -/
def attach (parent : Record) (r : Relation) (batch : Batch) : Record :=
  let children := ((parent.get? r.parentKey).bind fun key => batch.get? key.keyText).getD []
  parent.setRelation r.name (if r.isSingle then .one children.head? else .many children)

/-- Changes the records at the end of a path. -/
def modifyAt (path : List String) (f : Record → Record) (r : Record) : Record :=
  match path with
  | [] => f r
  | name :: rest => r.mapChildren name (modifyAt rest f)

end Record

/-- The records at the end of a path. -/
def recordsAt : List String → List Record → List Record
  | [], records => records
  | name :: rest, records => recordsAt rest (records.flatMap (·.children name))

/-! ### Paths -/

/-- The relation names of a dotted path; blank ones do not count. -/
def pathSegments (path : String) : List String :=
  ((Text.pieces (· = '.') path.toList).map Text.trim).filterMap fun segment =>
    if segment.isEmpty then none else some (String.ofList segment)

/-- The non-empty beginnings of a list, the shortest first. -/
def beginnings {α : Type} (items : List α) : List (List α) :=
  (List.range items.length).map fun n => items.take (n + 1)

/-- Adds a path to others in dictionary order, unless it is there. -/
def insertPath (path : List String) : List (List String) → List (List String)
  | [] => [path]
  | other :: rest =>
    if path = other then other :: rest
    else if path < other then path :: other :: rest
    else other :: insertPath path rest

/-- All beginnings of all paths, each once: the shorter first, those of one length in dictionary
order. -/
def expandPaths (paths : List String) : List (List String) :=
  let all := paths.flatMap fun path => beginnings (pathSegments path)
  let sorted := all.foldl (fun known path => insertPath path known) []
  sorted.mergeSort fun a b => a.length ≤ b.length

/-! ### Loading -/

variable {m : Type → Type} [Monad m]

/-- Fetches what is related to the parents in one query, or in none if no parent has a key. -/
def batchLoad (fetch : Query → m (Except Error (List Row))) (parents : List Record) (r : Relation) :
    m (Except Error Batch) := do
  let keys := parentKeys parents r
  if keys.isEmpty then return .ok []
  else
    match r.lookup keys with
    | .error cause => return .error (.compile cause)
    | .ok found =>
      match ← fetch found.statement.query with
      | .error e => return .error e
      | .ok rows => return Batch.ofRows r rows

/-- The labels of records, each once and in order. -/
def labelsOf (records : List Record) : List String :=
  Fields.names (Fields.ofList (records.map fun r => (r.label, ())))

/-- Loads a relation for the records at the end of a path, label by label. -/
def loadLabels (fetch : Query → m (Except Error (List Row))) (registry : Registry)
    (wanted : Record → Bool) (path : List String) (name : String) :
    List String → List Record → m (List Record × Option Error)
  | [], records => return (records, none)
  | label :: rest, records => do
    let isMember (r : Record) : Bool := r.label = label && wanted r
    match registry.find label name with
    | .error e => return (records, some e)
    | .ok relation =>
      match ← batchLoad fetch ((recordsAt path records).filter isMember) relation with
      | .error e => return (records, some e)
      | .ok batch =>
        let place (r : Record) : Record := if isMember r then r.attach relation batch else r
        loadLabels fetch registry wanted path name rest (records.map (Record.modifyAt path place))

/-- Loads the levels one after the other.  Of each only the records that `missingOnly` leaves are
looked at: all of them, or those without the relation. -/
def loadLevels (fetch : Query → m (Except Error (List Row))) (registry : Registry)
    (missingOnly : Bool) : List (List String) → List Record → m (List Record × Option Error)
  | [], records => return (records, none)
  | level :: rest, records => do
    match level.getLast? with
    | none => loadLevels fetch registry missingOnly rest records
    | some name => do
      let path := level.dropLast
      let wanted (r : Record) : Bool := !(missingOnly && r.isLoaded name)
      let labels := labelsOf ((recordsAt path records).filter wanted)
      match ← loadLabels fetch registry wanted path name labels records with
      | (records, some e) => return (records, some e)
      | (records, none) => loadLevels fetch registry missingOnly rest records

/-- Loads every relation that the paths speak of.  A failure ends it; what was loaded before stays. -/
def loadPaths (fetch : Query → m (Except Error (List Row))) (registry : Registry)
    (missingOnly : Bool) (records : List Record) (paths : List String) :
    m (List Record × Option Error) :=
  loadLevels fetch registry missingOnly (expandPaths paths) records

end GraphMapper
