import GraphMapper.Decimal.Shortest

/-!
Texts of doubles.

* `Layout`: the decisions of a number format;
* `Layout.write`: the text of a double;
* `Layout.data`: the format of numbers in documents;
* `Layout.plain`: the format of numbers in messages.
-/

namespace GraphMapper.Decimal

/-- The decisions of a number format. -/
structure Layout where
  /-- Least power of ten of a leading digit that is still written positionally. -/
  lowest : Option Int
  /-- Greatest power of ten of a leading digit that is still written positionally. -/
  highest : Option Int
  /-- Whether a whole number keeps one zero after the point. -/
  wholeFraction : Bool
  tie : Tie
  nan : List Char
  infinity : List Char
deriving Repr

/-- Numbers in documents are positional from `10 ^ -5` to below `10 ^ 16` and keep a fractional
digit; a document has no text for what is not a number. -/
def Layout.data : Layout :=
  { lowest := some (-5), highest := some 15, wholeFraction := true, tie := .toEven
    nan := "null".toList, infinity := "null".toList }

/-- Numbers in messages are positional whatever their size and have no superfluous digit. -/
def Layout.plain : Layout :=
  { lowest := none, highest := none, wholeFraction := false, tie := .up
    nan := "NaN".toList, infinity := "inf".toList }

/-- Digits with the point put at its place. -/
def Layout.positional (layout : Layout) (d : Digits) : List Char :=
  let count := d.digits.length
  if 0 ≤ d.power then
    d.digits ++ List.replicate d.power.toNat '0' ++ (if layout.wholeFraction then ['.', '0'] else [])
  else
    let whole := (count : Int) + d.power
    if 0 < whole then d.digits.take whole.toNat ++ '.' :: d.digits.drop whole.toNat
    else '0' :: '.' :: List.replicate (-whole).toNat '0' ++ d.digits

/-- Digits with the point after the first and a power of ten behind, whose sign is always written. -/
def scientific (d : Digits) (lead : Int) : List Char :=
  let mantissa :=
    match d.digits with
    | [] => []
    | [only] => [only]
    | first :: rest => first :: '.' :: rest
  mantissa ++ 'e' :: (if lead < 0 then '-' else '+') :: Nat.toDigits 10 lead.natAbs

/-- Text of a positive number. -/
def Layout.magnitude (layout : Layout) (m : Nat) (q : Int) : List Char :=
  if m = 0 then '0' :: (if layout.wholeFraction then ['.', '0'] else [])
  else
    let d := shortest layout.tie m q
    let lead := (d.digits.length : Int) + d.power - 1
    if layout.lowest.all (· ≤ lead) && layout.highest.all (lead ≤ ·) then layout.positional d
    else scientific d lead

/-- Text of a double; a negative zero keeps its sign. -/
def Layout.write (layout : Layout) (x : Float) : List Char :=
  let signed (negative : Bool) (text : List Char) := if negative then '-' :: text else text
  match Binary.ofFloat x with
  | .nan => layout.nan
  | .infinite negative => signed negative layout.infinity
  | .finite negative m q => signed negative (layout.magnitude m q)

end GraphMapper.Decimal
