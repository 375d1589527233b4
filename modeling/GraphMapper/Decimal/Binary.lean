/-!
The number that a double stands for, and the numbers that round to it.

* `Binary`: not a number, an infinity, or `m * 2 ^ q` with a sign;
* `Binary.ofFloat`: reading the 64 bits;
* `Interval`: a double's value together with the ends of the interval of reals that round to it.
-/

namespace GraphMapper.Decimal

/-- What a double stands for. -/
inductive Binary where
  | nan
  | infinite (negative : Bool)
  /-- The number `m * 2 ^ q`, or its negative. -/
  | finite (negative : Bool) (m : Nat) (q : Int)
deriving DecidableEq, Repr

/-- Reads sign, exponent field and fraction field of a double. -/
def Binary.ofFloat (x : Float) : Binary :=
  let bits := x.toBits.toNat
  let negative : Bool := Nat.pow 2 63 ≤ bits
  let field : Nat := bits / Nat.pow 2 52 % Nat.pow 2 11
  let fraction : Nat := bits % Nat.pow 2 52
  if field = 2047 then
    if fraction = 0 then .infinite negative else .nan
  else if field = 0 then .finite negative fraction (-1074)
  else .finite negative (Nat.pow 2 52 + fraction) ((field : Int) - 1075)

/-- A positive double `value * 2 ^ unit` between the ends of the interval that rounds to it.  The ends
belong to the interval when `closed` holds. -/
structure Interval where
  low : Nat
  value : Nat
  high : Nat
  unit : Int
  closed : Bool
deriving Repr

/-- The interval of `m * 2 ^ q`: half a step to each side, a quarter step below a power of two, whose
lower neighbour is nearer; a half goes to the even neighbour. -/
def Interval.around (m : Nat) (q : Int) : Interval :=
  let below := if m = Nat.pow 2 52 ∧ -1074 < q then 1 else 2
  { low := 4 * m - below, value := 4 * m, high := 4 * m + 2, unit := q - 2, closed := m % 2 = 0 }

end GraphMapper.Decimal
