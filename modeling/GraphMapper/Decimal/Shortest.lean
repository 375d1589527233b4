import GraphMapper.Decimal.Binary

/-!
The fewest decimal digits that read back as a given double.

* `Interval.onGrid`: the multiple of a power of ten nearest to the value, if it lies in the interval;
* `Digits`: decimal digits with the power of ten of the last one;
* `shortest`: the digits on the coarsest grid that meets the interval.
-/

namespace GraphMapper.Decimal

/-- Where a value half-way between two equally short decimals goes. -/
inductive Tie where
  | toEven
  | up
deriving DecidableEq, Repr

/-- The quotient `2 ^ unit / 10 ^ power` as numerator and denominator. -/
def gridRatio (unit power : Int) : Nat × Nat :=
  (Nat.pow 2 unit.toNat * Nat.pow 10 (-power).toNat,
    Nat.pow 2 (-unit).toNat * Nat.pow 10 power.toNat)

/-- The multiple of `10 ^ power` next to the value and inside the interval, as a multiplier; of two the
nearer. -/
def Interval.onGrid (i : Interval) (tie : Tie) (power : Int) : Option Nat :=
  let (num, den) := gridRatio i.unit power
  let inside (d : Nat) : Bool :=
    if i.closed then i.low * num ≤ d * den && d * den ≤ i.high * num
    else i.low * num < d * den && d * den < i.high * num
  let below := i.value * num / den
  match inside below, inside (below + 1) with
  | false, false => none
  | true, false => some below
  | false, true => some (below + 1)
  | true, true =>
    match compare (i.value * num - below * den) ((below + 1) * den - i.value * num) with
    | .lt => some below
    | .gt => some (below + 1)
    | .eq =>
      match tie with
      | .toEven => some (if below % 2 = 0 then below else below + 1)
      | .up => some (below + 1)

/-- The least `p` with the value below `10 ^ p`. -/
def Interval.magnitude (i : Interval) : Int :=
  let num := i.value * Nat.pow 2 i.unit.toNat
  let den := Nat.pow 2 (-i.unit).toNat
  if den ≤ num then ((Nat.toDigits 10 (num / den)).length : Int)
  else 1 - ((Nat.toDigits 10 (den / num)).length : Int)

/-- Decimal digits, the last of them at `10 ^ power`. -/
structure Digits where
  digits : List Char
  power : Int
deriving DecidableEq, Repr

/-- The digits of `coefficient * 10 ^ power` without zeros at their end. -/
def Digits.ofCoefficient (coefficient : Nat) (power : Int) : Digits :=
  let backwards := (Nat.toDigits 10 coefficient).reverse
  let kept := backwards.dropWhile (· = '0')
  { digits := kept.reverse, power := power + ((backwards.length - kept.length : Nat) : Int) }

/-- The fewest digits that read back as `m * 2 ^ q`.  Seventeen digits tell any two doubles apart, so
one of the seventeen grids meets the interval. -/
def shortest (tie : Tie) (m : Nat) (q : Int) : Digits :=
  let interval := Interval.around m q
  let top := interval.magnitude
  let found := (List.range 17).findSome? fun n =>
    let power := top - (n + 1 : Nat)
    (interval.onGrid tie power).map (Digits.ofCoefficient · power)
  found.getD ⟨['0'], 0⟩

end GraphMapper.Decimal
