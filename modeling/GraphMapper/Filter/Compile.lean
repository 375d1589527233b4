import GraphMapper.Cypher.Statement
import GraphMapper.Error.Compile
import GraphMapper.Filter.Like

/-!
Filters written as conditions of the query language.

Values never enter the text: each becomes a parameter, numbered in the order in which the filter is
read from left to right.

* `Bindings`: the values bound so far and the number of subquery variables given out;
* `Compiling`: computations that bind values and may fail, keeping what was bound;
* `compileTest`, `compileRaw`: the leaves of a filter;
* `Correlation.route`: the matches that tie a related node to the outer one;
* `Filter.compile`: a whole filter, `none` if it has nothing to say.
-/

namespace GraphMapper

open Cypher (Expr Match Node Pattern Property Term Test)

/-! ### Bindings -/

/-- The values bound so far, the `i`-th of them to the parameter `p i`, and how many variables of
subqueries have been given out. -/
structure Bindings where
  values : List Value := []
  subqueries : Nat := 0
deriving DecidableEq, Repr

namespace Bindings

/-- The name of the `i`-th parameter. -/
def parameterName (i : Nat) : String :=
  "p" ++ toString i

/-- The values by the names of their parameters. -/
def parameters (b : Bindings) : Row :=
  Fields.ofList (b.values.zipIdx.map fun (v, i) => (parameterName i, v))

/-- Bindings of the given values, the first to `p0`. -/
def ofValues (values : List Value) : Bindings :=
  { values }

end Bindings

/-- A computation that binds values and may fail; what was bound before a failure stays bound. -/
abbrev Compiling := ExceptT CompileError (StateM Bindings)

namespace Compiling

/-- Binds a value and gives the name of its parameter. -/
def bind (v : Value) : StateM Bindings String := do
  let b ← get
  set { b with values := b.values ++ [v] }
  return Bindings.parameterName b.values.length

/-- Gives out a variable for a subquery: a letter and a number not used before. -/
def fresh (letter : String) : StateM Bindings String := do
  let b ← get
  set { b with subqueries := b.subqueries + 1 }
  return letter ++ toString b.subqueries

/-- Runs a computation from nothing bound. -/
def start {α : Type} (c : Compiling α) : Except CompileError (α × Bindings) :=
  match c.run.run {} with
  | (.ok a, b) => .ok (a, b)
  | (.error e, _) => .error e

end Compiling

/-! ### Tests of a column -/

/-- A pattern test.  Both sides are lowered for a test without regard to case, save in a regular
expression, which has a mark for it. -/
def compileLike (op : Operator) (p : Property) (pattern : String) : StateM Bindings Expr := do
  let anyCase := op = .likeAnyCase
  let lowered (t : Term) : Term := if anyCase then .lowered t else t
  let simple (test : Test) (text : List Char) : StateM Bindings Expr := do
    let name ← Compiling.bind (.string (String.ofList text))
    return .test (lowered (.property p)) test (lowered (.parameter name))
  let e ←
    match Like.shape pattern.toList with
    | .equals text => simple (.compare .eq) text
    | .startsWith text => simple .startsWith text
    | .endsWith text => simple .endsWith text
    | .contains text => simple .contains text
    | .regex tokens => do
      let name ← Compiling.bind (.string (String.ofList (Like.regex anyCase tokens)))
      pure (.test (.property p) .matching (.parameter name))
  return if op = .notLike then .not (.group e) else e

/-- A test of one column.  Equality with null is a test for null; a list without items is decided at
once; a range is written with both its ends. -/
def compileTest (binder column : String) (op : Operator) (operand : Operand) : Compiling Expr := do
  let p := Property.ofColumn binder column
  let against (test : Test) (v : Value) : StateM Bindings Expr := do
    return .test (.property p) test (.parameter (← Compiling.bind v))
  match op, operand with
  | .unknown symbol, _ => throw (.unknownOperator symbol column)
  | .compare .eq, .value .null => return .isNull p
  | .compare .ne, .value .null => return .isNotNull p
  | .compare c, .value .null => throw (.nullOrder column (.compare c))
  | .compare c, .value v => against (.compare c) v
  | .among, .list [] => return .constant false
  | .notAmong, .list [] => return .constant true
  | .among, .list items => against .among (.array items)
  | .notAmong, .list items => return .not (← against .among (.array items))
  | .between, .range low high => do
    let lower ← against (.compare .ge) low
    let upper ← against (.compare .le) high
    return .group (.join lower .and upper)
  | .notBetween, .range low high => do
    let lower ← against (.compare .lt) low
    let upper ← against (.compare .gt) high
    return .group (.join lower .or upper)
  | .null, _ => return .isNull p
  | .notNull, _ => return .isNotNull p
  | .like, .value (.string pattern) | .notLike, .value (.string pattern)
  | .likeAnyCase, .value (.string pattern) => compileLike op p pattern
  | .like, .value _ | .notLike, .value _ | .likeAnyCase, .value _ => throw (.patternNotText column)
  | _, _ => throw (.operandShape op column operand)

/-! ### Text written by hand -/

namespace Raw

/-- The places of a text: its characters, with `none` for each question mark outside quotes.  Inside
quotes a backslash protects the next character, and only the quote that opened closes. -/
def places (quote : Option Char) : List Char → List (Option Char)
  | [] => []
  | c :: rest =>
    match quote with
    | none =>
      if c = '?' then none :: places none rest
      else if c = '\'' ∨ c = '"' then some c :: places (some c) rest
      else some c :: places none rest
    | some q =>
      if c = '\\' then
        match rest with
        | [] => [some c]
        | next :: later => some c :: some next :: places (some q) later
      else if c = q then some c :: places none rest
      else some c :: places (some q) rest

/-- Puts a parameter into each marked place, in order. -/
def fill (text : String) (supplied : Nat) :
    List (Option Char) → List Value → Compiling (List Cypher.Piece)
  | [], [] => return []
  | [], left@(_ :: _) => throw (.tooManyValues text (supplied - left.length) supplied)
  | some c :: rest, values => return .char c :: (← fill text supplied rest values)
  | none :: _, [] => throw (.tooFewValues text supplied)
  | none :: rest, v :: values => do
    let name ← Compiling.bind v
    return .parameter name :: (← fill text supplied rest values)

end Raw

/-- Text written by hand, with the values at its marked places as parameters. -/
def compileRaw (text : String) (values : List Value) : Compiling Expr := do
  return .raw (← Raw.fill text values.length (Raw.places none text.toList) values)

/-! ### Subqueries -/

/-- The matches that lead from the outer variable to an inner node of the label. -/
def Correlation.route (outer inner label : String) :
    Correlation → StateM Bindings (List (Match Expr))
  | .column outerColumn innerColumn =>
    return [⟨.node ⟨inner, some label⟩,
      [.equals (Property.ofColumn inner innerColumn)
        (.property (Property.ofColumn outer outerColumn))]⟩]
  | .edge edgeType direction =>
    return [⟨.path ⟨outer, none⟩ ⟨"", edgeType, direction⟩ ⟨inner, some label⟩, []⟩]
  | .through first middleLabel second => do
    let middle ← Compiling.fresh "m"
    let before ← first.route outer middle middleLabel
    let after ← second.route middle inner label
    return before ++ after

/-- Adds a condition, in parentheses, to the last of the matches. -/
def addCondition (route : List (Match Expr)) (condition : Option Expr) : List (Match Expr) :=
  match condition with
  | none => route
  | some e =>
    route.modify (route.length - 1) fun m => { m with conditions := m.conditions ++ [.group e] }

/-! ### Filters -/

/-- Continues a chain by one operand.  Text without a character opens no chain. -/
def extendChain (chain : Option Expr) (joiner : Cypher.Connective) (e : Expr) : Option Expr :=
  match chain, e with
  | none, .raw [] => none
  | none, e => some e
  | some before, e => some (.join before joiner e)

mutual

/-- A condition about the node of a variable; `none` if it says nothing. -/
def Condition.compile (binder : String) : Condition → Compiling (Option Expr)
  | .test column op operand => return some (← compileTest binder column op operand)
  | .columns first op second =>
    match op.comparison? with
    | none => throw (.columnOperator op first second)
    | some c =>
      return some (.test (.property (Property.ofColumn binder first)) (.compare c)
        (.property (Property.ofColumn binder second)))
  | .group filter => return (← compileChain binder 0 none filter).map .group
  | .raw text values => return some (← compileRaw text values)
  | .related label correlation filter => do
    let inner ← Compiling.fresh "s"
    let found ← correlation.route binder inner label
    let nested ← compileChain inner 0 none filter
    return some (.subquery (addCondition found nested))

/-- A member of a filter with its negation.  A group brings its own parentheses. -/
def Clause.compile (binder : String) : Clause Condition → Compiling (Option Expr)
  | ⟨_, negated, condition⟩ => do
    match ← condition.compile binder, negated, condition with
    | none, _, _ => return none
    | some e, false, _ => return some e
    | some e, true, .group _ => return some (.not e)
    | some e, true, _ => return some (.not (.group e))

/-- The members of a filter from the given place on, continuing a chain.  Members that say nothing
are left out together with their joiner. -/
def compileChain (binder : String) (index : Nat) (chain : Option Expr) :
    List (Clause Condition) → Compiling (Option Expr)
  | [] => return chain
  | clause :: rest => do
    if index ≠ 0 ∧ clause.joiner = none then throw (.unjoined index)
    match ← clause.compile binder with
    | none => compileChain binder (index + 1) chain rest
    | some e => compileChain binder (index + 1) (extendChain chain (clause.joiner.getD .and) e) rest

end

/-- A filter about the node of a variable; `none` if it says nothing. -/
def Filter.compile (filter : Filter) (binder : String) : Compiling (Option Expr) :=
  compileChain binder 0 none filter

/-- A statement whose parameters are the given values, in the order of their numbers. -/
def numbered (values : List Value) (steps : List Cypher.Step) (columns : List String := []) :
    Cypher.Statement :=
  { steps, parameters := (Bindings.ofValues values).parameters, columns }

/-- A statement made by a compilation: its parameters are the values that were bound. -/
def Compiling.statement (columns : List String) (c : Compiling (List Cypher.Step)) :
    Except CompileError Cypher.Statement := do
  let (steps, bindings) ← c.start
  return { steps, parameters := bindings.parameters, columns }

end GraphMapper
