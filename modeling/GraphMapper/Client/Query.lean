import GraphMapper.Aggregate.Basic
import GraphMapper.Client.Transaction
import GraphMapper.Record.Basic
import GraphMapper.Selection.Page
import GraphMapper.Value.Key

/-!
Selections run by a client.

* `get`, `records`, `first`, `pluck`, `page`: rows and records of a selection;
* `find`, `findOrFail`, `findManyOrFail`: records by their keys;
* `exists?`, `count`, `aggregate`: what is known without the rows;
* `insert`, `update`, `delete`: changes.
-/

namespace GraphMapper.Client

open Cypher (Statement)

variable {σ : Type} [Engine σ]

/-- Runs a statement that was compiled. -/
def runCompiled (s : Except CompileError Statement) (mode : AccessMode) : Action σ (List Row) := do
  statement (← Action.ofCompile s).query mode

/-- The first value in a column of an answer. -/
def firstIn (rows : List Row) (column : String) : Option Value :=
  rows.head?.bind (Fields.get? · column)

/-! ### Rows and records -/

/-- The rows of a selection. -/
def get (s : Selection) : Action σ (List Row) :=
  runCompiled s.select .read

/-- The record that a row of a selection holds: the whole node, or the columns asked for. -/
def recordOf (s : Selection) (row : Row) : Except Error Record :=
  if s.columns.isEmpty then (Record.ofColumn s.label row s.binder).1 else .ok (Record.of s.label row)

/-- The records of a selection. -/
def records (s : Selection) : Action σ (List Record) := do
  Action.ofExcept ((← get s).mapM (recordOf s))

/-- The record of a selection cut to one row. -/
def first (s : Selection) : Action σ (Option Record) :=
  return (← records (s.take 1)).getLast?

/-- The values of one column; a row without it counts as null. -/
def pluck (s : Selection) (column : String) : Action σ (List Value) :=
  return (← get { s with columns := [column] }).map fun row =>
    (row.get? (columnName column)).getD .null

/-- One page of the records of a selection, with the number of all. -/
def page (s : Selection) (perPage number : Nat) : Action σ (Page Record) := do
  let perPage := max perPage 1
  let total ← Action.ofExcept (countOf (← runCompiled s.count .read))
  let rows ← runCompiled (s.page number perPage).select .read
  let window := Page.of rows total perPage number
  return window.withItems (← Action.ofExcept (window.items.mapM (recordOf s)))

/-! ### Records by key -/

/-- The record of a label with the given key. -/
def find (label : String) (id : Value) : Action σ (Option Record) :=
  first ((Selection.of label).and (.equals defaultKey id))

/-- The same, which has to be there. -/
def findOrFail (label : String) (id : Value) : Action σ Record := do
  match ← find label id with
  | some r => return r
  | none => Action.fail (.notFound label [id.label])

/-- The keys among `ids` that no record has, each once. -/
def missingKeys (found : List Record) (ids : List Value) : List Value :=
  let keys := found.filterMap (·.get? defaultKey)
  Value.distinct (ids.filter fun id => !Value.isKeyOf keys id)

/-- The records of a label with the given keys, all of which have to be there. -/
def findManyOrFail (label : String) (ids : List Value) : Action σ (List Record) := do
  let found ← records ((Selection.of label).and (.oneOf defaultKey ids))
  let missing := missingKeys found ids
  if missing.isEmpty then return found
  else Action.fail (.notFound label (missing.map Value.label))

/-! ### Without the rows -/

/-- Whether a selection has a row. -/
def exists? (s : Selection) : Action σ Bool := do
  let rows ← runCompiled s.exists? .read
  return ((firstIn rows aggregateColumn).bind Value.asBool?).getD false

/-- The number of rows of a selection. -/
def count (s : Selection) : Action σ Nat := do
  Action.ofExcept (countOf (← runCompiled s.count .read))

/-- An aggregate computed by the engine. -/
def aggregate (s : Selection) (a : Aggregate) (column : String) : Action σ Value := do
  let rows ← runCompiled (a.statement s column) .read
  return a.finalize (firstIn rows aggregateColumn)

/-! ### Changes -/

/-- The last row of an answer that has to have one, since it made a node of the label. -/
def createdRow (label : String) (rows : List Row) : Except Error Row :=
  match rows.getLast? with
  | some row => .ok row
  | none => .error (.query s!"creating `{label}` returned no row")

/-- Makes a node and gives its record. -/
def insert (label : String) (attributes : Row) : Action σ Record := do
  let rows ← statement (GraphMapper.insert label attributes).query .write
  let row ← Action.ofExcept (createdRow label rows)
  Action.ofExcept (Record.ofColumn label row insertedColumn).1

/-- The number of nodes that the answer of a write tells. -/
def affectedIn (rows : List Row) : Nat :=
  ((firstIn rows affectedColumn).bind Value.asUnsigned?).getD 0

/-- Adds properties to the nodes of a selection and tells how many there are. -/
def update (s : Selection) (values : Row) : Action σ Nat :=
  return affectedIn (← runCompiled (s.update values) .write)

/-- Deletes the nodes of a selection and tells how many there were. -/
def delete (s : Selection) : Action σ Nat :=
  return affectedIn (← runCompiled s.delete .write)

end GraphMapper.Client
