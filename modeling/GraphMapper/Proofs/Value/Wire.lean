import GraphMapper.Proofs.Decimal.Nearest
import GraphMapper.Proofs.Value.Json
import GraphMapper.Value.Wire

/-!
What reaches an engine of a value.

* `Number.Occurs`, `Number.Signed`: the numbers there are, and those that the wire can hold as they are;
  `Value.Numbers`: what holds of all numbers in a value;
* `Wire.toValue`, `Value.carried`: a wire form read as a value, and the value that is read from the wire
  form of a value; `Wire.ofValue_eq_iff`: wire forms tell apart what the values that are read do;
* `Value.carried_eq_self_iff`: what is read is the value if the wire can hold its numbers;
* `Wire.ofValue_lossless` (**what the wire can hold travels without loss, and nothing else does**), and
  `Wire.integers_meet`: integers that become one double.
-/

namespace GraphMapper

open Decimal (IsWord StandsFor standsFor_floatOfInt)

/-! ### Numbers -/

namespace Number

/-- The number is one that can occur: an integer of at most 64 bits, signed or unsigned, or a finite
double. -/
def Occurs : Number → Prop
  | .int n => IsWord n
  | .float x => x.isFinite

/-- The number is one that the wire can hold as it is: a double, or an integer of 64 bits with a sign. -/
def Signed : Number → Prop
  | .int n => -2 ^ 63 ≤ n ∧ n < 2 ^ 63
  | .float _ => True

/-- The number that is read from the wire form of a number. -/
def carried (n : Number) : Number :=
  match n.asSigned? with
  | some m => .int m
  | none => .float n.toFloat

lemma asSigned?_int {n : ℤ} (h : (Number.int n).Signed) : (Number.int n).asSigned? = some n :=
  if_pos h

lemma asSigned?_of_not_signed {n : Number} (h : ¬ n.Signed) : n.asSigned? = none := by
  cases n with
  | int n => exact if_neg h
  | float x => rfl

/-- A number that the wire can hold is read as it is. -/
lemma carried_of_signed {n : Number} (h : n.Signed) : n.carried = n := by
  cases n with
  | int n => rw [carried, asSigned?_int h]
  | float x => rfl

/-- Any other number is read as a double. -/
lemma carried_of_not_signed {n : Number} (h : ¬ n.Signed) : n.carried = .float n.toFloat := by
  rw [carried, asSigned?_of_not_signed h]

lemma carried_eq_self_iff {n : Number} : n.carried = n ↔ n.Signed := by
  refine ⟨fun h => by_contra fun hn => ?_, carried_of_signed⟩
  rw [carried_of_not_signed hn] at h
  exact hn (h ▸ trivial)

lemma carried_signed (n : Number) : n.carried.Signed := by
  by_cases h : n.Signed
  · rwa [carried_of_signed h]
  · rw [carried_of_not_signed h]
    trivial

/-- A double that stands for a number is finite. -/
lemma isFinite_of_standsFor {x : Float} {r : ℚ} (h : StandsFor x.toModel.unpack r) : x.isFinite := by
  have hfinite {u : Float.Model.UnpackedFloat} (hu : StandsFor u r) : u.isFinite = true := by
    cases hu <;> rfl
  exact hfinite h

lemma carried_occurs {n : Number} (h : n.Occurs) : n.carried.Occurs := by
  by_cases hn : n.Signed
  · rwa [carried_of_signed hn]
  · rw [carried_of_not_signed hn]
    cases n with
    | int n => exact isFinite_of_standsFor (standsFor_floatOfInt h)
    | float x => exact h

end Number

/-! ### Values -/

namespace Value

mutual

/-- All numbers in the value fulfil a condition. -/
def Numbers (p : Number → Prop) : Value → Prop
  | .null | .bool _ | .string _ => True
  | .number n => p n
  | .array items => NumbersItems p items
  | .object fields => NumbersFields p fields

def NumbersItems (p : Number → Prop) : List Value → Prop
  | [] => True
  | v :: rest => Numbers p v ∧ NumbersItems p rest

def NumbersFields (p : Number → Prop) : List (String × Value) → Prop
  | [] => True
  | (_, v) :: rest => Numbers p v ∧ NumbersFields p rest

end

mutual

/-- The value that is read from the wire form of a value. -/
def carried : Value → Value
  | .null => .null
  | .bool b => .bool b
  | .number n => .number n.carried
  | .string s => .string s
  | .array items => .array (carriedItems items)
  | .object fields => .object (carriedFields fields)

def carriedItems : List Value → List Value
  | [] => []
  | v :: rest => carried v :: carriedItems rest

def carriedFields : List (String × Value) → List (String × Value)
  | [] => []
  | (name, v) :: rest => (name, carried v) :: carriedFields rest

end

mutual

/-- What is read is the value if the wire can hold its numbers. -/
lemma carried_eq_self_iff : (v : Value) → (v.carried = v ↔ v.Numbers Number.Signed)
  | .null | .bool _ | .string _ => by simp [carried, Numbers]
  | .number n => by rw [carried, Numbers, number.injEq, Number.carried_eq_self_iff]
  | .array items => by rw [carried, Numbers, array.injEq, carriedItems_eq_self_iff items]
  | .object fields => by rw [carried, Numbers, object.injEq, carriedFields_eq_self_iff fields]

lemma carriedItems_eq_self_iff :
    (items : List Value) → (carriedItems items = items ↔ NumbersItems Number.Signed items)
  | [] => by simp [carriedItems, NumbersItems]
  | v :: rest => by
    rw [carriedItems, NumbersItems, List.cons.injEq, carried_eq_self_iff v,
      carriedItems_eq_self_iff rest]

lemma carriedFields_eq_self_iff :
    (fields : List (String × Value)) →
      (carriedFields fields = fields ↔ NumbersFields Number.Signed fields)
  | [] => by simp [carriedFields, NumbersFields]
  | (name, v) :: rest => by
    rw [carriedFields, NumbersFields, List.cons.injEq, Prod.mk.injEq, eq_self_iff_true, true_and,
      carried_eq_self_iff v, carriedFields_eq_self_iff rest]

end

mutual

/-- What holds of the numbers that are read from numbers with some property holds of all numbers in what
is read. -/
lemma numbers_carried {p q : Number → Prop} (h : ∀ n, p n → q n.carried) :
    (v : Value) → v.Numbers p → v.carried.Numbers q
  | .null, _ | .bool _, _ | .string _, _ => by simp [carried, Numbers]
  | .number n, hv => by
    rw [Numbers] at hv
    rw [carried, Numbers]
    exact h n hv
  | .array items, hv => by
    rw [Numbers] at hv
    rw [carried, Numbers]
    exact numbersItems_carried h items hv
  | .object fields, hv => by
    rw [Numbers] at hv
    rw [carried, Numbers]
    exact numbersFields_carried h fields hv

lemma numbersItems_carried {p q : Number → Prop} (h : ∀ n, p n → q n.carried) :
    (items : List Value) → NumbersItems p items → NumbersItems q (carriedItems items)
  | [], _ => trivial
  | v :: rest, hv => ⟨numbers_carried h v hv.1, numbersItems_carried h rest hv.2⟩

lemma numbersFields_carried {p q : Number → Prop} (h : ∀ n, p n → q n.carried) :
    (fields : List (String × Value)) → NumbersFields p fields → NumbersFields q (carriedFields fields)
  | [], _ => trivial
  | (_, v) :: rest, hv => ⟨numbers_carried h v hv.1, numbersFields_carried h rest hv.2⟩

end

end Value

/-! ### Wire forms -/

namespace Wire

mutual

/-- A wire form read as a value. -/
def toValue : Wire → Value
  | .null => .null
  | .boolean b => .bool b
  | .integer n => .int n
  | .float x => .number (.float x)
  | .string s => .string s
  | .list items => .array (toItems items)
  | .map fields => .object (toFields fields)

def toItems : List Wire → List Value
  | [] => []
  | w :: rest => toValue w :: toItems rest

def toFields : List (String × Wire) → List (String × Value)
  | [] => []
  | (name, w) :: rest => (name, toValue w) :: toFields rest

end

lemma toValue_ofNumber (n : Number) : (ofNumber n).toValue = .number n.carried := by
  rw [ofNumber, Number.carried]
  cases n.asSigned? <;> rfl

lemma ofNumber_carried (n : Number) : ofNumber n.carried = ofNumber n := by
  by_cases h : n.Signed
  · rw [Number.carried_of_signed h]
  · rw [Number.carried_of_not_signed h, ofNumber, ofNumber, Number.asSigned?_of_not_signed h]
    rfl

mutual

/-- What is read from a wire form. -/
lemma toValue_ofValue : (v : Value) → (ofValue v).toValue = v.carried
  | .null | .bool _ | .string _ => by rw [ofValue, toValue, Value.carried]
  | .number n => by rw [ofValue, toValue_ofNumber, Value.carried]
  | .array items => by rw [ofValue, toValue, Value.carried, toItems_ofItems items]
  | .object fields => by rw [ofValue, toValue, Value.carried, toFields_ofFields fields]

lemma toItems_ofItems : (items : List Value) → toItems (ofItems items) = Value.carriedItems items
  | [] => rfl
  | v :: rest => by
    rw [ofItems, toItems, Value.carriedItems, toValue_ofValue v, toItems_ofItems rest]

lemma toFields_ofFields :
    (fields : List (String × Value)) → toFields (ofFields fields) = Value.carriedFields fields
  | [] => rfl
  | (name, v) :: rest => by
    rw [ofFields, toFields, Value.carriedFields, toValue_ofValue v, toFields_ofFields rest]

end

mutual

/-- What is read has the same wire form. -/
lemma ofValue_carried : (v : Value) → ofValue v.carried = ofValue v
  | .null | .bool _ | .string _ => by rw [Value.carried]
  | .number n => by rw [Value.carried, ofValue, ofValue, ofNumber_carried]
  | .array items => by rw [Value.carried, ofValue, ofValue, ofItems_carriedItems items]
  | .object fields => by rw [Value.carried, ofValue, ofValue, ofFields_carriedFields fields]

lemma ofItems_carriedItems :
    (items : List Value) → ofItems (Value.carriedItems items) = ofItems items
  | [] => rfl
  | v :: rest => by
    rw [Value.carriedItems, ofItems, ofItems, ofValue_carried v, ofItems_carriedItems rest]

lemma ofFields_carriedFields :
    (fields : List (String × Value)) → ofFields (Value.carriedFields fields) = ofFields fields
  | [] => rfl
  | (name, v) :: rest => by
    rw [Value.carriedFields, ofFields, ofFields, ofValue_carried v, ofFields_carriedFields rest]

end

/-- Wire forms tell apart what the values that are read from them do. -/
theorem ofValue_eq_iff {a b : Value} : ofValue a = ofValue b ↔ a.carried = b.carried := by
  constructor
  · intro h
    rw [← toValue_ofValue, ← toValue_ofValue, h]
  · intro h
    rw [← ofValue_carried a, ← ofValue_carried b, h]

/-- An integer that arrives as one is the integer that was sent, and these are those that the wire can
hold. -/
lemma ofValue_int_eq_integer_iff {n m : ℤ} :
    ofValue (.int n) = .integer m ↔ m = n ∧ (Number.int n).Signed := by
  rw [Value.int, ofValue, ofNumber]
  by_cases h : (Number.int n).Signed
  · rw [Number.asSigned?_int h, integer.injEq, and_iff_left h]
    exact eq_comm
  · rw [Number.asSigned?_of_not_signed h]
    exact iff_of_false Wire.noConfusion fun hm => h hm.2

/-- **What the wire can hold travels without loss, and nothing else does**: values whose integers have 64
bits with a sign are told apart by their wire forms, and an integer that arrives as an integer is the one
that was sent.  Any other value arrives as one of these that is not it. -/
theorem ofValue_lossless (a : Value) :
    (a.Numbers Number.Signed → ∀ b : Value, b.Numbers Number.Signed →
      ofValue a = ofValue b → a = b) ∧
    (∀ n m : ℤ, a = .int n → (ofValue a = .integer m ↔ m = n ∧ -2 ^ 63 ≤ n ∧ n < 2 ^ 63)) ∧
    (a.Numbers Number.Occurs → ¬ a.Numbers Number.Signed →
      ∃ b : Value, b.Numbers Number.Occurs ∧ b.Numbers Number.Signed ∧ b ≠ a ∧
        ofValue b = ofValue a) := by
  refine ⟨fun ha b hb h => ?_, ?_, fun ha hsigned => ?_⟩
  · rw [ofValue_eq_iff, a.carried_eq_self_iff.mpr ha, b.carried_eq_self_iff.mpr hb] at h
    exact h
  · rintro n m rfl
    exact ofValue_int_eq_integer_iff
  · exact ⟨a.carried, a.numbers_carried (fun _ => Number.carried_occurs) ha,
      a.numbers_carried (fun n _ => n.carried_signed) ha,
      fun h => hsigned (a.carried_eq_self_iff.mp h), ofValue_carried a⟩

/-- Two ids at the ends of what the wire can hold, in a map and in lists, and one beyond. -/
theorem ofValue_lossless_ends :
    let ids (n : ℤ) : Value :=
      .object [("ids", .array [.int n, .int (-2 ^ 63), .null]), ("score", .number (.float 2.5))]
    (ids (2 ^ 63 - 1)).Numbers Number.Signed ∧ ofValue (ids (2 ^ 63 - 1)) ≠ ofValue (ids (2 ^ 63 - 2)) ∧
      ∃ b : Value, b ≠ ids (2 ^ 64 - 1) ∧ ofValue b = ofValue (ids (2 ^ 64 - 1)) := by
  intro ids
  have hsigned : (ids (2 ^ 63 - 1)).Numbers Number.Signed ∧ (ids (2 ^ 63 - 2)).Numbers Number.Signed := by
    simp [ids, Value.Numbers, Value.NumbersItems, Value.NumbersFields, Value.int, Number.Signed]
  have hoccurs : (ids (2 ^ 64 - 1)).Numbers Number.Occurs := by
    simp [ids, Value.Numbers, Value.NumbersItems, Value.NumbersFields, Value.int, Number.Occurs, IsWord]
    decide
  have hbeyond : ¬ (ids (2 ^ 64 - 1)).Numbers Number.Signed := by
    simp [ids, Value.Numbers, Value.NumbersItems, Value.NumbersFields, Value.int, Number.Signed]
  obtain ⟨hinjective, -, -⟩ := ofValue_lossless (ids (2 ^ 63 - 1))
  obtain ⟨-, -, hlost⟩ := ofValue_lossless (ids (2 ^ 64 - 1))
  refine ⟨hsigned.1, fun h => ?_, ?_⟩
  · exact absurd (hinjective hsigned.1 _ hsigned.2 h) (by decide)
  · obtain ⟨b, -, -, hne, hsame⟩ := hlost hoccurs hbeyond
    exact ⟨b, hne, hsame⟩

/-- The first integers that the wire cannot hold arrive as one double, which is a value of its own. -/
theorem integers_meet :
    let n : ℤ := 2 ^ 63
    let x : Float := 9223372036854775808
    IsWord n ∧ IsWord (n + 1) ∧ Value.int n ≠ .int (n + 1) ∧ Value.int n ≠ .float x ∧
      ofValue (.int n) = .float x ∧ ofValue (.int (n + 1)) = .float x ∧ ofValue (.float x) = .float x := by
  intro n x
  have hint (m : ℤ) (hm : ¬ (Number.int m).Signed) (hx : Number.floatOfInt m = x) :
      ofValue (.int m) = .float x := by
    rw [Value.int, ofValue, ofNumber, Number.asSigned?_of_not_signed hm]
    exact congrArg Wire.float hx
  have hfloat : Value.float x = .number (.float x) := if_pos (by decide)
  refine ⟨by decide, by decide, by decide, hfloat ▸ by decide, hint n ?_ (by decide),
    hint (n + 1) ?_ (by decide), ?_⟩
  · exact fun h => absurd h.2 (by decide)
  · exact fun h => absurd h.2 (by decide)
  · rw [hfloat, ofValue]
    rfl

end Wire

end GraphMapper
