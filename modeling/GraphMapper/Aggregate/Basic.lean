import GraphMapper.Selection.Statement

/-!
Aggregates of a selection.

* `Aggregate`: the functions;
* `Aggregate.validate`: percentile fractions lie between zero and one;
* `Aggregate.statement`: the aggregate computed by the engine;
* `Aggregate.empty`, `Aggregate.finalize`: the answer where there is nothing to aggregate.
-/

namespace GraphMapper

open Cypher (Expr Item Projection Property Statement Step Term)

/-- An aggregate function. -/
inductive Aggregate where
  | count
  | sum
  | avg
  | min
  | max
  /-- Standard deviation of a sample. -/
  | sampleDeviation
  /-- Standard deviation of a whole population. -/
  | populationDeviation
  /-- Percentile that is one of the values. -/
  | discretePercentile (fraction : Float)
  /-- Percentile interpolated between two values. -/
  | continuousPercentile (fraction : Float)
  | collect
deriving DecidableEq, Repr

/-- The column that stands for whole nodes. -/
def allColumns : String := "*"

namespace Aggregate

/-- The name of a function in the query language. -/
def name : Aggregate → String
  | .count => "count"
  | .sum => "sum"
  | .avg => "avg"
  | .min => "min"
  | .max => "max"
  | .sampleDeviation => "stDev"
  | .populationDeviation => "stDevP"
  | .discretePercentile _ => "percentileDisc"
  | .continuousPercentile _ => "percentileCont"
  | .collect => "collect"

/-- The fraction of a percentile. -/
def fraction? : Aggregate → Option Float
  | .discretePercentile fraction | .continuousPercentile fraction => some fraction
  | _ => none

/-- Percentile fractions lie between zero and one. -/
def validate (a : Aggregate) : Except CompileError Unit :=
  match a.fraction? with
  | none => .ok ()
  | some fraction =>
    if 0.0 ≤ fraction && fraction ≤ 1.0 then .ok ()
    else .error (.fractionOutside a.name fraction)

/-- The aggregate of a column over the rows of a selection.  Order matters to lists alone; a window
is applied before the rows are aggregated. -/
def statement (a : Aggregate) (s : Selection) (column : String) : Except CompileError Statement := do
  a.validate
  Compiling.statement [aggregateColumn] do
    let step ← s.found
    let order := if a = .collect then sortStep s.binder s.orders else []
    let window := windowSteps s.limit s.offset
    let narrowed : List Step :=
      if order.isEmpty && window.isEmpty then []
      else .carry [⟨.bound s.binder, none⟩] :: order ++ window
    let target : Term :=
      if column = allColumns then .bound s.binder else .property (Property.ofColumn s.binder column)
    let extra : Option Term ←
      match a.fraction? with
      | none => pure none
      | some fraction => do
        let parameter ← Compiling.bind (.float fraction)
        pure (some (.parameter parameter))
    return step :: narrowed ++
      [.project false [.named (.aggregate a.name target extra) aggregateColumn]]

/-- The answer where there is nothing to aggregate. -/
def empty : Aggregate → Value
  | .discretePercentile _ | .continuousPercentile _ => .null
  | .collect => .array []
  | _ => .int 0

/-- The engine's answer, or the answer for nothing in place of null. -/
def finalize (a : Aggregate) (raw : Option Value) : Value :=
  match raw with
  | none | some .null => a.empty
  | some v => v

end Aggregate

end GraphMapper
