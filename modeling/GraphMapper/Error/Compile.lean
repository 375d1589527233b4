import GraphMapper.Filter.Basic

/-!
Why a filter, a relation query or an aggregate cannot be written as query text.

* `CompileError`: the causes;
* `CompileError.message`: their wording.
-/

namespace GraphMapper

/-- Why something cannot be written as query text. -/
inductive CompileError where
  /-- A member after the first, at this place of its filter, is not joined to the one before. -/
  | unjoined (index : Nat)
  | unknownOperator (symbol column : String)
  /-- Two columns are related by something other than a comparison. -/
  | columnOperator (op : Operator) (first second : String)
  /-- Null is neither smaller nor greater than anything. -/
  | nullOrder (column : String) (op : Operator)
  | operandShape (op : Operator) (column : String) (operand : Operand)
  | patternNotText (column : String)
  /-- Text written by hand has more places than values. -/
  | tooFewValues (text : String) (supplied : Nat)
  | tooManyValues (text : String) (used supplied : Nat)
  | fractionOutside (function : String) (fraction : Float)
  | columnRequired (function : String)
  | notNumeric (function : String) (found : Value)
  /-- A report from elsewhere. -/
  | reported (text : String)
deriving DecidableEq, Repr

namespace CompileError

/-- The wording of a cause. -/
def message : CompileError → String
  | .unjoined index => s!"clause {index} has no AND/OR connector"
  | .unknownOperator symbol column => s!"unknown operator `{symbol}` on column `{column}`"
  | .columnOperator op first second =>
    s!"operator {op.inspect} cannot compare columns `{first}` and `{second}`"
  | .nullOrder column op => s!"cannot compare `{column}` with null using {op.inspect}"
  | .operandShape op column operand =>
    s!"operator {op.inspect} on column `{column}` does not accept operand {operand.inspect}"
  | .patternNotText column => s!"LIKE on `{column}` requires a string pattern"
  | .tooFewValues text supplied =>
    s!"raw fragment `{text}` has more placeholders than bindings ({supplied})"
  | .tooManyValues text used supplied =>
    s!"raw fragment `{text}` uses {used} placeholder(s) but {supplied} binding(s) were supplied"
  | .fractionOutside function fraction =>
    s!"{function} fraction must be within [0, 1], got " ++
      String.ofList (Decimal.Layout.plain.write fraction)
  | .columnRequired function => s!"{function} requires a column"
  | .notNumeric function found => s!"{function} expects numeric values, got {found.json}"
  | .reported text => text

end CompileError

end GraphMapper
