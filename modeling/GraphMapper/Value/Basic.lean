/-!
The values that properties, parameters and result columns hold.

* `Fields`: named entries in the order of their names, with `put`, `drop` and `has` beside the core
  look-up;
* `Number`: an integer or a double; the two kinds are never equal;
* `Value`: null, truth values, numbers, texts, lists and maps;
* `Row`: the named values of a result row or of a node.
-/

namespace GraphMapper

universe u

/-- Named entries.  The operations keep them in increasing order of their names, each name once. -/
abbrev Fields (α : Type u) := List (String × α)

namespace Fields

variable {α β : Type u}

/-- The entry of a name. -/
def get? (fields : Fields α) (name : String) : Option α :=
  fields.lookup name

/-- Whether a name has an entry. -/
def has (fields : Fields α) (name : String) : Bool :=
  (fields.lookup name).isSome

/-- Sets the entry of a name. -/
def put (fields : Fields α) (name : String) (entry : α) : Fields α :=
  match fields with
  | [] => [(name, entry)]
  | (key, old) :: rest =>
    if name < key then (name, entry) :: (key, old) :: rest
    else if name = key then (name, entry) :: rest
    else (key, old) :: put rest name entry

/-- Leaves out the entry of a name. -/
def drop (fields : Fields α) (name : String) : Fields α :=
  fields.filter fun entry => entry.1 ≠ name

/-- The names that have an entry. -/
def names (fields : Fields α) : List String :=
  fields.map Prod.fst

/-- Entries given in any order; of two with one name the later counts. -/
def ofList (entries : List (String × α)) : Fields α :=
  entries.foldl (fun fields entry => fields.put entry.1 entry.2) []

theorem get?_put_self (fields : Fields α) (name : String) (entry : α) :
    (fields.put name entry).get? name = some entry := by
  induction fields with
  | nil => simp [put, get?]
  | cons head rest ih =>
    obtain ⟨key, old⟩ := head
    simp only [put]
    split
    · simp [get?]
    · split
      · simp [get?]
      · rename_i h
        simpa [get?, List.lookup_cons, beq_eq_false_iff_ne.2 h] using ih

end Fields

/-- A number.  The integers that occur are those of 64 bits, signed or unsigned; doubles are finite. -/
inductive Number where
  | int (n : Int)
  | float (x : Float)
deriving DecidableEq, Repr

namespace Number

/-- The number as a signed 64-bit integer. -/
def asSigned? : Number → Option Int
  | .int n => if -Int.pow 2 63 ≤ n ∧ n < Int.pow 2 63 then some n else none
  | .float _ => none

/-- The number as an unsigned 64-bit integer. -/
def asUnsigned? : Number → Option Nat
  | .int n => if 0 ≤ n then some n.toNat else none
  | .float _ => none

/-- The double nearest to an integer of at most 64 bits, a half going to the even neighbour. -/
def floatOfInt (n : Int) : Float :=
  let size := n.natAbs.toUInt64.toFloat
  if n < 0 then -size else size

/-- The number as a double. -/
def toFloat : Number → Float
  | .int n => floatOfInt n
  | .float x => x

end Number

/-- A value. -/
inductive Value where
  | null
  | bool (b : Bool)
  | number (n : Number)
  | string (s : String)
  | array (items : List Value)
  | object (fields : List (String × Value))
deriving Repr, Inhabited

/-- Named values: a result row, or the properties of a node. -/
abbrev Row := Fields Value

namespace Value

mutual

/-- Decides whether two values are equal. -/
def decEq : (a b : Value) → Decidable (a = b)
  | .null, .null => isTrue rfl
  | .bool a, .bool b => decidable_of_iff (a = b) (by simp)
  | .number a, .number b => decidable_of_iff (a = b) (by simp)
  | .string a, .string b => decidable_of_iff (a = b) (by simp)
  | .array a, .array b =>
    match decEqItems a b with
    | isTrue h => isTrue (by rw [h])
    | isFalse h => isFalse (by simpa using h)
  | .object a, .object b =>
    match decEqFields a b with
    | isTrue h => isTrue (by rw [h])
    | isFalse h => isFalse (by simpa using h)
  | .null, .bool _ | .null, .number _ | .null, .string _ | .null, .array _ | .null, .object _
  | .bool _, .null | .bool _, .number _ | .bool _, .string _ | .bool _, .array _
  | .bool _, .object _ | .number _, .null | .number _, .bool _ | .number _, .string _
  | .number _, .array _ | .number _, .object _ | .string _, .null | .string _, .bool _
  | .string _, .number _ | .string _, .array _ | .string _, .object _ | .array _, .null
  | .array _, .bool _ | .array _, .number _ | .array _, .string _ | .array _, .object _
  | .object _, .null | .object _, .bool _ | .object _, .number _ | .object _, .string _
  | .object _, .array _ => isFalse (by simp)

/-- Decides whether two lists of values are equal. -/
def decEqItems : (a b : List Value) → Decidable (a = b)
  | [], [] => isTrue rfl
  | [], _ :: _ | _ :: _, [] => isFalse (by simp)
  | a :: as, b :: bs =>
    match decEq a b, decEqItems as bs with
    | isTrue h, isTrue k => isTrue (by rw [h, k])
    | isFalse h, _ => isFalse (by simp [h])
    | _, isFalse k => isFalse (by simp [k])

/-- Decides whether two maps of values are equal. -/
def decEqFields : (a b : List (String × Value)) → Decidable (a = b)
  | [], [] => isTrue rfl
  | [], _ :: _ | _ :: _, [] => isFalse (by simp)
  | (m, a) :: as, (n, b) :: bs =>
    match decEq a b, decEqFields as bs with
    | isTrue h, isTrue k => decidable_of_iff (m = n) (by simp [h, k])
    | isFalse h, _ => isFalse (by simp [h])
    | _, isFalse k => isFalse (by simp [k])

end

instance : DecidableEq Value := decEq

/-- Whether the value is null. -/
def isNull : Value → Bool
  | .null => true
  | _ => false

/-- The text of a text value. -/
def asString? : Value → Option String
  | .string s => some s
  | _ => none

/-- The truth value of a truth value. -/
def asBool? : Value → Option Bool
  | .bool b => some b
  | _ => none

/-- The value as a signed 64-bit integer. -/
def asSigned? : Value → Option Int
  | .number n => n.asSigned?
  | _ => none

/-- The value as an unsigned 64-bit integer. -/
def asUnsigned? : Value → Option Nat
  | .number n => n.asUnsigned?
  | _ => none

/-- The value as a double. -/
def asFloat? : Value → Option Float
  | .number n => some n.toFloat
  | _ => none

/-- An integer value. -/
def int (n : Int) : Value :=
  .number (.int n)

/-- A double as a value; what is not a finite number becomes null. -/
def float (x : Float) : Value :=
  if x.isFinite then .number (.float x) else .null

end Value

end GraphMapper
