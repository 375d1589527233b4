import GraphMapper.Selection.Basic

/-!
The statements that a selection gives rise to.

* `Selection.select`: its rows;
* `Selection.count`, `Selection.exists?`: how many nodes fulfil the filter, and whether any does;
* `Selection.update`, `Selection.delete`: changes to the nodes that fulfil the filter;
* `insert`: a new node;
* `tailStatement`: filter, order and window on their own.
-/

namespace GraphMapper

open Cypher (Expr Item Match Property Statement Step SortKey)

/-- The column of counts and aggregates. -/
def aggregateColumn : String := "aggregate"

/-- The column that says how many nodes a write touched. -/
def affectedColumn : String := "affected"

/-- Sort keys of orders on the node of a variable. -/
def sortKeys (binder : String) (orders : List OrderBy) : List SortKey :=
  orders.map fun order => ⟨Property.ofColumn binder order.column, order.direction⟩

/-- The step that sorts, if there is anything to sort by. -/
def sortStep (binder : String) (orders : List OrderBy) : List Step :=
  if orders.isEmpty then [] else [.sort (sortKeys binder orders)]

/-- The steps of a window; rows are skipped before they are counted. -/
def windowSteps (limit offset : Option Nat) : List Step :=
  (match offset with
    | none | some 0 => []
    | some count => [.skip count]) ++
  (match limit with
    | none => []
    | some count => [.limit count])

/-- Filter, order and window as the tail of a statement whose match is written by the caller. -/
def tailStatement (filter : Filter) (orders : List OrderBy) (limit offset : Option Nat) :
    Except CompileError Statement :=
  Compiling.statement [] do
    let condition ← filter.compile defaultVariable
    return (condition.map Step.condition).toList ++ sortStep defaultVariable orders ++
      windowSteps limit offset

/-- The name of a column in the answer: what follows the last dot. -/
def columnName (column : String) : String :=
  String.ofList (column.toList.reverse.takeWhile (· ≠ '.')).reverse

namespace Selection

/-- The nodes of the label that fulfil the filter. -/
def found (s : Selection) : Compiling Step := do
  let condition ← s.filter.compile s.binder
  return .find ⟨.node ⟨s.binder, some s.label⟩, condition.toList⟩

/-- The columns of a select: all properties of the node, or each column by its name. -/
def items (s : Selection) : List Item :=
  if s.columns.isEmpty then [.named (.properties s.binder) s.binder]
  else
    s.columns.map fun column =>
      ⟨.property (Property.ofColumn s.binder column), some (.quoted (columnName column))⟩

/-- The names of the columns of a select. -/
def itemNames (s : Selection) : List String :=
  if s.columns.isEmpty then [s.binder] else s.columns.map columnName

/-- The rows of the selection. -/
def select (s : Selection) : Except CompileError Statement :=
  Compiling.statement s.itemNames do
    return [← s.found, .project s.distinct s.items] ++ sortStep s.binder s.orders ++
      windowSteps s.limit s.offset

/-- The number of nodes that fulfil the filter, whatever the order and the window. -/
def count (s : Selection) : Except CompileError Statement :=
  Compiling.statement [aggregateColumn] do
    return [← s.found, .project false [.named (.count s.binder) aggregateColumn]]

/-- Whether any node fulfils the filter. -/
def exists? (s : Selection) : Except CompileError Statement :=
  Compiling.statement [aggregateColumn] do
    return [← s.found, .project false [.named (.anyRow s.binder) aggregateColumn]]

/-- Adds properties to every node that fulfils the filter, and tells how many there are. -/
def update (s : Selection) (values : Row) : Except CompileError Statement :=
  Compiling.statement [affectedColumn] do
    let step ← s.found
    let parameter ← Compiling.bind (.object values)
    return [step, .set [.extend s.binder parameter],
      .project false [.named (.count s.binder) affectedColumn]]

/-- Deletes every node that fulfils the filter, and tells how many there were. -/
def delete (s : Selection) : Except CompileError Statement :=
  Compiling.statement [affectedColumn] do
    return [← s.found,
      .carry [⟨.bound s.binder, none⟩, .named (.properties s.binder) "props"],
      .detachDelete s.binder,
      .project false [.named (.count "props") affectedColumn]]

end Selection

/-- The column of a node made by `insert`. -/
def insertedColumn : String := "n"

/-- Makes one node of the label with the given properties. -/
def insert (label : String) (properties : Row) : Statement where
  steps :=
    [.create (.node ⟨"n", some label⟩), .set [.replace "n" "attributes"],
      .project false [.named (.properties "n") insertedColumn]]
  parameters := [("attributes", .object properties)]
  columns := [insertedColumn]

end GraphMapper
