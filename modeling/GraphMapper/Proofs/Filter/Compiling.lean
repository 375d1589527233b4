import Mathlib.Tactic
import GraphMapper.Filter.Compile

/-!
Laws of compilations.

* `Compiling.on_bind`, `Compiling.on_bind_eq_ok`: a compilation in two parts run on bindings, and
  what its success says about the parts;
* `TestForm`, `TestForm.of`, `TestForm.emit`: what a test of a column comes to, and how that is
  written down; `compileTest_eq`: tests are compiled in these two steps;
* `compileLike_eq`: a pattern binds one text, and the rest depends on the kind of its shape alone;
* `Clause.compile_eq`, `compileChain_cons`: members and chains of them, one equation each;
* `Condition.compile_test_eq_ok` and the others of its kind: what the success of a condition says.
-/

namespace GraphMapper

open Cypher (Comparison Connective Expr Property Term Test)

namespace Compiling

variable {α β : Type}

/-! ### Running a compilation -/

/-- What comes of a compilation on bindings: its result, and the bindings after it. -/
def on (c : Compiling α) (b : Bindings) : Except CompileError α × Bindings :=
  c.run.run b

@[simp] lemma on_pure (a : α) (b : Bindings) : (pure a : Compiling α).on b = (.ok a, b) := rfl

@[simp] lemma on_throw (e : CompileError) (b : Bindings) :
    (throw e : Compiling α).on b = (.error e, b) := rfl

@[simp] lemma on_lift (s : StateM Bindings α) (b : Bindings) :
    (liftM s : Compiling α).on b = (.ok (s b).1, (s b).2) := rfl

lemma on_bind (x : Compiling α) (f : α → Compiling β) (b : Bindings) :
    (x >>= f).on b =
      match x.on b with
      | (.ok a, after) => (f a).on after
      | (.error e, after) => (.error e, after) := by
  change (ExceptT.bindCont f (x.on b).1) (x.on b).2 = _
  rcases x.on b with ⟨a | e, after⟩ <;> rfl

/-- A compilation in two parts succeeds if both parts do. -/
lemma on_bind_eq_ok {x : Compiling α} {f : α → Compiling β} {b after : Bindings} {r : β} :
    (x >>= f).on b = (.ok r, after) ↔
      ∃ a between, x.on b = (.ok a, between) ∧ (f a).on between = (.ok r, after) := by
  rw [on_bind]
  rcases x.on b with ⟨e | a, between⟩
  · simp
  · simp

lemma on_map_eq_ok {x : Compiling α} {f : α → β} {b after : Bindings} {r : β} :
    (f <$> x).on b = (.ok r, after) ↔ ∃ a, x.on b = (.ok a, after) ∧ f a = r := by
  rw [map_eq_pure_bind, on_bind_eq_ok]
  simp only [on_pure, Prod.mk.injEq, Except.ok.injEq]
  constructor
  · rintro ⟨a, between, hx, rfl, rfl⟩
    exact ⟨a, hx, rfl⟩
  · rintro ⟨a, hx, rfl⟩
    exact ⟨a, after, hx, rfl, rfl⟩

lemma start_eq (c : Compiling α) :
    c.start = match c.on {} with
      | (.ok a, b) => .ok (a, b)
      | (.error e, _) => .error e := rfl

lemma bind_value (v : Value) (b : Bindings) :
    bind v b = (Bindings.parameterName b.values.length, { b with values := b.values ++ [v] }) := rfl

lemma fresh_apply (letter : String) (b : Bindings) :
    fresh letter b = (letter ++ toString b.subqueries, { b with subqueries := b.subqueries + 1 }) :=
  rfl

end Compiling

/-! ### Patterns -/

namespace Like.Shape

/-- The text that is bound for a shape. -/
def bound (anyCase : Bool) : Shape → List Char
  | .equals text => text
  | .startsWith text => text
  | .endsWith text => text
  | .contains text => text
  | .regex tokens => Like.regex anyCase tokens

/-- The kind of a shape. -/
inductive Kind where
  | simple (t : Test)
  | regex
deriving DecidableEq, Repr

def kind : Shape → Kind
  | .equals _ => .simple (.compare .eq)
  | .startsWith _ => .simple .startsWith
  | .endsWith _ => .simple .endsWith
  | .contains _ => .simple .contains
  | .regex _ => .regex

end Like.Shape

/-- The test of a shape of the given kind, before it is negated. -/
def likeTest (anyCase : Bool) (p : Property) (kind : Like.Shape.Kind) (name : String) : Expr :=
  let lowered (t : Term) : Term := if anyCase then .lowered t else t
  match kind with
  | .simple t => .test (lowered (.property p)) t (lowered (.parameter name))
  | .regex => .test (.property p) .matching (.parameter name)

/-- The condition that a pattern test is written as. -/
def likeExpr (op : Operator) (p : Property) (kind : Like.Shape.Kind) (name : String) : Expr :=
  let e := likeTest (op = .likeAnyCase) p kind name
  if op = .notLike then .not (.group e) else e

lemma compileLike_eq (op : Operator) (p : Property) (pattern : String) :
    compileLike op p pattern = (do
      let shape := Like.shape pattern.toList
      let name ← Compiling.bind (.string (String.ofList (shape.bound (op = .likeAnyCase))))
      return likeExpr op p shape.kind name) := by
  rw [compileLike]
  cases Like.shape pattern.toList <;> cases op <;> rfl

/-! ### Tests of a column -/

/-- What a test of a column comes to. -/
inductive TestForm where
  | isNull
  | isNotNull
  | constant (b : Bool)
  /-- The column is tested against one value. -/
  | single (negated : Bool) (t : Test) (v : Value)
  /-- The column is compared with two values. -/
  | range (lower : Comparison) (low : Value) (c : Connective) (upper : Comparison) (high : Value)
  | pattern (op : Operator) (text : String)

namespace TestForm

/-- What a test comes to, or why it cannot be written. -/
def of (column : String) (op : Operator) (operand : Operand) : Except CompileError TestForm :=
  match op, operand with
  | .unknown symbol, _ => .error (.unknownOperator symbol column)
  | .compare .eq, .value .null => .ok .isNull
  | .compare .ne, .value .null => .ok .isNotNull
  | .compare c, .value .null => .error (.nullOrder column (.compare c))
  | .compare c, .value v => .ok (.single false (.compare c) v)
  | .among, .list [] => .ok (.constant false)
  | .notAmong, .list [] => .ok (.constant true)
  | .among, .list items => .ok (.single false .among (.array items))
  | .notAmong, .list items => .ok (.single true .among (.array items))
  | .between, .range low high => .ok (.range .ge low .and .le high)
  | .notBetween, .range low high => .ok (.range .lt low .or .gt high)
  | .null, _ => .ok .isNull
  | .notNull, _ => .ok .isNotNull
  | .like, .value (.string text) => .ok (.pattern .like text)
  | .notLike, .value (.string text) => .ok (.pattern .notLike text)
  | .likeAnyCase, .value (.string text) => .ok (.pattern .likeAnyCase text)
  | .like, .value _ | .notLike, .value _ | .likeAnyCase, .value _ => .error (.patternNotText column)
  | _, _ => .error (.operandShape op column operand)

/-- The condition that a test of the property is written as. -/
def emit (p : Property) : TestForm → StateM Bindings Expr
  | .isNull => return .isNull p
  | .isNotNull => return .isNotNull p
  | .constant b => return .constant b
  | .single negated t v => do
    let e := Expr.test (.property p) t (.parameter (← Compiling.bind v))
    return if negated then .not e else e
  | .range lower low c upper high => do
    let first ← Compiling.bind low
    let second ← Compiling.bind high
    return .group (.join (.test (.property p) (.compare lower) (.parameter first)) c
      (.test (.property p) (.compare upper) (.parameter second)))
  | .pattern op text => compileLike op p text

end TestForm

/-- A test is compiled by finding out what it comes to and writing that down. -/
theorem compileTest_eq (binder column : String) (op : Operator) (operand : Operand) :
    compileTest binder column op operand =
      match TestForm.of column op operand with
      | .error e => throw e
      | .ok form => liftM (form.emit (Property.ofColumn binder column)) := by
  cases op with
  | compare c =>
      cases operand with
      | value v => cases c <;> cases v <;> rfl
      | _ => cases c <;> rfl
  | among => rcases operand with v | (_ | items) | _ | _ <;> rfl
  | notAmong => rcases operand with v | (_ | items) | _ | _ <;> rfl
  | like => rcases operand with (_ | _ | _ | _ | _ | _) | _ | _ | _ <;> rfl
  | notLike => rcases operand with (_ | _ | _ | _ | _ | _) | _ | _ | _ <;> rfl
  | likeAnyCase => rcases operand with (_ | _ | _ | _ | _ | _) | _ | _ | _ <;> rfl
  | _ => cases operand <;> rfl

/-! ### Members and chains -/

namespace Filter

lemma hasAlternatives_concat_and (filter : Filter) (negated : Bool) (condition : Condition) :
    hasAlternatives (filter ++ [⟨some .and, negated, condition⟩]) = filter.hasAlternatives := by
  cases filter with
  | nil => rfl
  | cons clause rest => simp [hasAlternatives]

/-- In a filter without alternatives every member but the first is joined by `AND`. -/
lemma joiner_of_hasAlternatives {filter : Filter} (h : filter.hasAlternatives = false) :
    ∀ clause ∈ filter.tail, clause.joiner.getD .and = .and := by
  intro clause hclause
  have hne : clause.joiner ≠ some .or := by
    simpa using (List.any_eq_false.mp h) clause (by rwa [List.drop_one])
  rcases hj : clause.joiner with _ | _ | _
  · rfl
  · rfl
  · exact absurd hj hne

end Filter

/-- What is written for a member that says `e`.  A group brings its own parentheses. -/
def Condition.written (condition : Condition) (negated : Bool) (e : Expr) : Expr :=
  match negated, condition with
  | false, _ => e
  | true, .group _ => .not e
  | true, _ => .not (.group e)

lemma Clause.compile_eq (binder : String) (joiner : Option Connective) (negated : Bool)
    (condition : Condition) :
    Clause.compile binder ⟨joiner, negated, condition⟩ =
      (Option.map (condition.written negated)) <$> condition.compile binder := by
  rw [Clause.compile, map_eq_pure_bind]
  congr 1
  funext r
  cases r <;> cases negated <;> cases condition <;> rfl

/-- Continues a chain by a member, if that says something. -/
def continueChain (chain : Option Expr) (joiner : Option Connective) : Option Expr → Option Expr
  | none => chain
  | some e => extendChain chain (joiner.getD .and) e

lemma compileChain_cons (binder : String) (index : ℕ) (chain : Option Expr)
    (clause : Clause Condition) (rest : List (Clause Condition)) :
    compileChain binder index chain (clause :: rest) =
      if index ≠ 0 ∧ clause.joiner = none then throw (.unjoined index)
      else clause.compile binder >>= fun r =>
        compileChain binder (index + 1) (continueChain chain clause.joiner r) rest := by
  rw [compileChain]
  split_ifs
  · rfl
  · refine congrArg (clause.compile binder >>= ·) (funext fun r => ?_)
    cases r <;> rfl

/-- A test is compiled if it comes to something, and to what that is written down as. -/
lemma Condition.compile_test_eq_ok {binder column : String} {op : Operator} {operand : Operand}
    {b after : Bindings} {r : Option Expr} :
    (Condition.compile binder (.test column op operand)).on b = (.ok r, after) ↔
      ∃ form, TestForm.of column op operand = .ok form ∧
        r = some (form.emit (Property.ofColumn binder column) b).1 ∧
        after = (form.emit (Property.ofColumn binder column) b).2 := by
  rw [Condition.compile, ← map_eq_pure_bind, Compiling.on_map_eq_ok, compileTest_eq]
  cases TestForm.of column op operand with
  | error e => simp
  | ok form =>
      simp only [Compiling.on_lift, Prod.mk.injEq, Except.ok.injEq]
      constructor
      · rintro ⟨_, ⟨rfl, rfl⟩, rfl⟩
        exact ⟨form, rfl, rfl, rfl⟩
      · rintro ⟨_, rfl, rfl, rfl⟩
        exact ⟨_, ⟨rfl, rfl⟩, rfl⟩

/-- Two columns are compared by the operators that compare, and nothing is bound for it. -/
lemma Condition.compile_columns_eq_ok {binder first second : String} {op : Operator}
    {b after : Bindings} {r : Option Expr} :
    (Condition.compile binder (.columns first op second)).on b = (.ok r, after) ↔
      ∃ c, op.comparison? = some c ∧
        r = some (.test (.property (Property.ofColumn binder first)) (.compare c)
          (.property (Property.ofColumn binder second))) ∧ after = b := by
  rw [Condition.compile]
  cases op.comparison? with
  | none => simp
  | some c => simp [eq_comm]

/-- A group is its chain in parentheses, unless that says nothing. -/
lemma Condition.compile_group_eq_ok {binder : String} {filter : List (Clause Condition)}
    {b after : Bindings} {r : Option Expr} :
    (Condition.compile binder (.group filter)).on b = (.ok r, after) ↔
      ∃ chain, (compileChain binder 0 none filter).on b = (.ok chain, after) ∧
        chain.map .group = r := by
  rw [Condition.compile, ← map_eq_pure_bind, Compiling.on_map_eq_ok]

/-- A subquery is made of a variable for the related node, the matches that lead to it and the chain
of its filter. -/
lemma Condition.compile_related_eq_ok {binder label : String} {correlation : Correlation}
    {filter : List (Clause Condition)} {b after : Bindings} {r : Option Expr} :
    (Condition.compile binder (.related label correlation filter)).on b = (.ok r, after) ↔
      ∃ nested, r = some (.subquery (addCondition
          (correlation.route binder (Compiling.fresh "s" b).1 label (Compiling.fresh "s" b).2).1
          nested)) ∧
        (compileChain (Compiling.fresh "s" b).1 0 none filter).on
          (correlation.route binder (Compiling.fresh "s" b).1 label (Compiling.fresh "s" b).2).2 =
          (.ok nested, after) := by
  rw [Condition.compile, Compiling.on_bind_eq_ok]
  constructor
  · rintro ⟨inner, _, hinner, hrest⟩
    obtain ⟨found, _, hfound, hrest⟩ := Compiling.on_bind_eq_ok.mp hrest
    obtain ⟨nested, _, hnested, hlast⟩ := Compiling.on_bind_eq_ok.mp hrest
    simp only [Compiling.on_lift, Prod.mk.injEq, Except.ok.injEq] at hinner hfound
    obtain ⟨rfl, rfl⟩ := hinner
    obtain ⟨rfl, rfl⟩ := hfound
    simp only [Compiling.on_pure, Prod.mk.injEq, Except.ok.injEq] at hlast
    obtain ⟨rfl, rfl⟩ := hlast
    exact ⟨nested, rfl, hnested⟩
  · rintro ⟨nested, rfl, hnested⟩
    refine ⟨_, _, rfl, ?_⟩
    refine Compiling.on_bind_eq_ok.mpr ⟨_, _, rfl, ?_⟩
    exact Compiling.on_bind_eq_ok.mpr ⟨nested, _, hnested, rfl⟩

end GraphMapper
