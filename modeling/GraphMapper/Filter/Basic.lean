import GraphMapper.Cypher.Expression
import GraphMapper.Text.Blank
import GraphMapper.Text.Fold
import GraphMapper.Value.Inspect

/-!
Filters: what a row has to fulfil.

* `Operator`, `Operand`: the tests of one column, with `Operator.ofSymbol` for their spellings;
* `Correlation`: how a related node hangs together with the node it is asked for;
* `Condition`, `Clause`, `Filter`: conditions, joined in a list by `AND` and `OR`.
-/

namespace GraphMapper

open Cypher (Comparison Connective Direction)

/-! ### Operators and operands -/

/-- A test of one column. -/
inductive Operator where
  | compare (c : Comparison)
  | like
  | notLike
  /-- `like` without regard to case. -/
  | likeAnyCase
  | among
  | notAmong
  | between
  | notBetween
  | null
  | notNull
  /-- A spelling that names no test. -/
  | unknown (symbol : String)
deriving DecidableEq, Repr

namespace Operator

/-- The operator of a spelling.  Case and the amount of white space do not matter. -/
def ofSymbol (symbol : String) : Operator :=
  let words := (Text.words symbol.toList).map fun word => String.ofList (Text.fold word)
  match " ".intercalate words with
  | "=" | "==" => .compare .eq
  | "<>" | "!=" => .compare .ne
  | "<" => .compare .lt
  | "<=" => .compare .le
  | ">" => .compare .gt
  | ">=" => .compare .ge
  | "like" => .like
  | "not like" => .notLike
  | "ilike" => .likeAnyCase
  | "in" => .among
  | "not in" => .notAmong
  | "between" => .between
  | "not between" => .notBetween
  | "null" | "is null" => .null
  | "not null" | "is not null" => .notNull
  | _ => .unknown symbol

/-- The comparison that an operator is, if it is one. -/
def comparison? : Operator → Option Comparison
  | .compare c => some c
  | _ => none

/-- The name of an operator in messages. -/
def inspect : Operator → String
  | .compare .eq => "Eq"
  | .compare .ne => "NotEq"
  | .compare .lt => "Lt"
  | .compare .le => "Lte"
  | .compare .gt => "Gt"
  | .compare .ge => "Gte"
  | .like => "Like"
  | .notLike => "NotLike"
  | .likeAnyCase => "ILike"
  | .among => "In"
  | .notAmong => "NotIn"
  | .between => "Between"
  | .notBetween => "NotBetween"
  | .null => "Null"
  | .notNull => "NotNull"
  | .unknown symbol => "Unknown(" ++ Text.quoted symbol ++ ")"

end Operator

/-- The right-hand side of a test. -/
inductive Operand where
  | value (v : Value)
  | list (items : List Value)
  | range (low high : Value)
  | none
deriving DecidableEq, Repr

namespace Operand

/-- The operand that an operator makes of a single value: lists and ranges are spelled as lists, a
test for null has none. -/
def infer (op : Operator) (v : Value) : Operand :=
  match op, v with
  | .null, _ | .notNull, _ => .none
  | .among, .array items | .notAmong, .array items => .list items
  | .between, .array [low, high] | .notBetween, .array [low, high] => .range low high
  | _, v => .value v

/-- An operand with the kind of its values, for messages. -/
def inspect : Operand → String
  | .value v => "Value(" ++ v.inspect ++ ")"
  | .list items => "List([" ++ Value.inspectItems items ++ "])"
  | .range low high => "Range(" ++ low.inspect ++ ", " ++ high.inspect ++ ")"
  | .none => "None"

end Operand

/-! ### Conditions -/

/-- How the nodes of a subquery hang together with the outer node. -/
inductive Correlation where
  /-- A column of the inner node equals a column of the outer one. -/
  | column (outer inner : String)
  | edge (edgeType : String) (direction : Direction)
  /-- Two correlations with a node of the given label between them. -/
  | through (first : Correlation) (label : String) (second : Correlation)
deriving DecidableEq, Repr, Inhabited

/-- A member of a filter: how it is joined to the member before it, whether it is negated, and what
it says.  The joiner of a first member has no meaning. -/
structure Clause (κ : Type) where
  joiner : Option Connective
  negated : Bool
  condition : κ
deriving Repr, Inhabited

/-- What a member of a filter says. -/
inductive Condition where
  | test (column : String) (op : Operator) (operand : Operand)
  /-- Two columns of one node are compared. -/
  | columns (first : String) (op : Operator) (second : String)
  | group (filter : List (Clause Condition))
  /-- Query text written by hand, with a question mark for each of the values. -/
  | raw (text : String) (values : List Value)
  /-- A node of the label, correlated with the outer one, fulfils the filter. -/
  | related (label : String) (correlation : Correlation) (filter : List (Clause Condition))
deriving Repr, Inhabited

/-- Conditions joined from left to right. -/
abbrev Filter := List (Clause Condition)

namespace Condition

/-- A column tested with a spelled operator against a value. -/
def spelled (column symbol : String) (v : Value) : Condition :=
  let op := Operator.ofSymbol symbol
  .test column op (Operand.infer op v)

/-- Two columns compared with a spelled operator. -/
def spelledColumns (first symbol second : String) : Condition :=
  .columns first (Operator.ofSymbol symbol) second

/-- A column equals a value. -/
def equals (column : String) (v : Value) : Condition :=
  .test column (.compare .eq) (.value v)

/-- A column is one of the values. -/
def oneOf (column : String) (items : List Value) : Condition :=
  .test column .among (.list items)

/-- A column is none of the values. -/
def noneOf (column : String) (items : List Value) : Condition :=
  .test column .notAmong (.list items)

/-- A column lies between two values, both included. -/
def between (column : String) (low high : Value) : Condition :=
  .test column .between (.range low high)

/-- A column lies outside two values. -/
def outside (column : String) (low high : Value) : Condition :=
  .test column .notBetween (.range low high)

/-- A column has no value. -/
def missing (column : String) : Condition :=
  .test column .null .none

/-- A column has a value. -/
def present (column : String) : Condition :=
  .test column .notNull .none

/-- A column matches a pattern. -/
def like (column pattern : String) : Condition :=
  .test column .like (.value (.string pattern))

end Condition

namespace Filter

/-- Adds a condition that has to hold as well. -/
def and (filter : Filter) (c : Condition) : Filter :=
  filter ++ [⟨some .and, false, c⟩]

/-- Adds a condition as an alternative to the conditions joined by `AND` before it. -/
def or (filter : Filter) (c : Condition) : Filter :=
  filter ++ [⟨some .or, false, c⟩]

/-- Adds a condition that must not hold. -/
def andNot (filter : Filter) (c : Condition) : Filter :=
  filter ++ [⟨some .and, true, c⟩]

/-- Whether the members form more than one run joined by `AND`. -/
def hasAlternatives (filter : Filter) : Bool :=
  (filter.drop 1).any fun clause => clause.joiner = some .or

/-- Both filters hold.  The second is added as one group; a first with alternatives becomes a group
too, so that none of them escapes the second. -/
def merge (first second : Filter) : Filter :=
  if second.isEmpty then first
  else if first.isEmpty then second
  else if hasAlternatives first then and (and [] (.group first)) (.group second)
  else and first (.group second)

end Filter

end GraphMapper
