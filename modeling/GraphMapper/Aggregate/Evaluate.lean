import GraphMapper.Aggregate.Basic

/-!
Aggregates of values that are already at hand.

* `compareValues`: the order of values; numbers come first, by size;
* `sorted`: a list in that order, equal values left as they were;
* `floatSum`, `exactSum?`: sums in doubles and in 64-bit integers;
* `Aggregate.evaluate`, `Aggregate.evaluateRows`: the aggregate of a list and of a column.
-/

namespace GraphMapper

/-! ### Order -/

/-- Order of doubles by size. -/
def compareFloats (x y : Float) : Ordering :=
  if x < y then .lt else if y < x then .gt else .eq

/-- Order of values: numbers by size and before all others, two texts by their characters, anything
else by JSON text. -/
def compareValues (a b : Value) : Ordering :=
  match a, b with
  | .number m, .number n => compareFloats m.toFloat n.toFloat
  | .number _, _ => .lt
  | _, .number _ => .gt
  | .string s, .string t => compare s t
  | a, b => compare a.json b.json

/-- A list in increasing order of a key; equal members keep their places. -/
def sortedBy {α β : Type} (order : β → β → Ordering) (key : α → β) (items : List α) : List α :=
  items.mergeSort fun a b => order (key a) (key b) ≠ .gt

/-! ### Sums -/

/-- The sum of doubles, added from left to right.  It starts from negative zero, which alone leaves
every double as it is. -/
def floatSum (numbers : List Float) : Float :=
  numbers.foldl (· + ·) (-0.0)

/-- The sum of values that are all signed 64-bit integers, as long as every partial sum is one. -/
def exactSum? (values : List Value) : Option Int :=
  values.foldlM
    (fun total v => do
      let n ← v.asSigned?
      (Number.int (total + n)).asSigned?)
    0

/-- The sum of the squared distances from the mean. -/
def squaredDeviation (numbers : List Float) : Float :=
  let mean := floatSum numbers / numbers.length.toFloat
  floatSum (numbers.map fun x => (x - mean) * (x - mean))

/-! ### Percentiles -/

/-- The greatest natural number not above a non-negative double. -/
def floorNat (x : Float) : Nat :=
  x.toUInt64.toNat

/-- The least natural number not below a non-negative double. -/
def ceilNat (x : Float) : Nat :=
  let below := floorNat x
  if below.toFloat < x then below + 1 else below

/-- The value of nearest rank. -/
def discretePercentile (fraction : Float) (values : List (Float × Value)) : Value :=
  let ordered := sortedBy compareFloats Prod.fst values
  let rank := ceilNat (fraction * values.length.toFloat)
  ((ordered[min (rank - 1) (ordered.length - 1)]?).map Prod.snd).getD .null

/-- The value at the fraction of the way from the least to the greatest, between two neighbours in
proportion. -/
def continuousPercentile (fraction : Float) (numbers : List Float) : Float :=
  let ordered := sortedBy compareFloats id numbers
  let position := fraction * (ordered.length - 1).toFloat
  let lower := floorNat position
  let low := (ordered[lower]?).getD 0.0
  let high := (ordered[ceilNat position]?).getD 0.0
  low + (high - low) * (position - lower.toFloat)

namespace Aggregate

/-- The values as doubles; the first that is no number is reported. -/
def numeric (a : Aggregate) (values : List Value) : Except CompileError (List Float) :=
  values.mapM fun v =>
    match v.asFloat? with
    | some x => .ok x
    | none => .error (.notNumeric a.name v)

/-- The functions of numbers, on a list with at least one member. -/
def evaluateNumeric (a : Aggregate) (values : List Value) (numbers : List Float) : Value :=
  let size := numbers.length.toFloat
  match a with
  | .sum =>
    match exactSum? values with
    | some total => .int total
    | none => .float (floatSum numbers)
  | .avg => .float (floatSum numbers / size)
  | .sampleDeviation =>
    if numbers.length < 2 then .float 0.0
    else .float (squaredDeviation numbers / (size - 1.0)).sqrt
  | .populationDeviation => .float (squaredDeviation numbers / size).sqrt
  | .discretePercentile fraction => GraphMapper.discretePercentile fraction (numbers.zip values)
  | .continuousPercentile fraction => .float (GraphMapper.continuousPercentile fraction numbers)
  | .count | .min | .max | .collect => a.empty

/-- The aggregate of a list of values, nulls left out. -/
def evaluate (a : Aggregate) (values : List Value) : Except CompileError Value := do
  a.validate
  let present := values.filter (!·.isNull)
  match a with
  | .count => return .int present.length
  | .collect => return .array present
  | _ =>
    if present.isEmpty then return a.empty
    match a with
    | .min => return (sortedBy compareValues id present).head?.getD a.empty
    | .max => return (sortedBy compareValues id present).getLast?.getD a.empty
    | _ => return a.evaluateNumeric present (← a.numeric present)

/-- The aggregate of a column of rows; a row without the column counts as null.  Whole rows can only
be counted. -/
def evaluateRows (a : Aggregate) (rows : List Row) (column : String) : Except CompileError Value :=
  if column = allColumns then
    match a with
    | .count => .ok (.int rows.length)
    | _ => .error (.columnRequired a.name)
  else a.evaluate (rows.map fun row => (row.get? column).getD .null)

end Aggregate

end GraphMapper
