import GraphMapper.Proofs.Parameter.Statement
import GraphMapper.Proofs.Scope.Expression

/-!
Variables of statements.

* `Step.introduces`, `Step.after`: the variables that a step introduces, and those in scope after it;
* `Step.Scoped`, `stepsScoped`: steps that speak of variables in scope;
* `Statement.Closed`: a statement in which every variable that is spoken of was introduced before;
* `numbered_bound`: steps that ask for their parameters by number.
-/

namespace GraphMapper.Cypher

/-! ### Parts of steps -/

/-- The variables that a change speaks of. -/
def Change.uses : Change → List String
  | .replace binder _ | .extend binder _ => [binder]
  | .assign p value => p.owner :: value.uses

/-- The variables that a result column speaks of. -/
def Projection.uses : Projection → List String
  | .bound name => [name]
  | .properties binder | .count binder | .anyRow binder => [binder]
  | .property p => [p.owner]
  | .aggregate _ target extra => target.uses ++ (extra.map Term.uses).getD []
  | .truth | .one => []

/-- The variables that a column stands for where rows are passed on: its name, or else the variable
that it is. -/
def Item.introduces (item : Item) : List String :=
  match item.name with
  | some (.verbatim name) | some (.quoted name) => [name]
  | none => item.value.uses

/-! ### Steps -/

namespace Step

/-- What is in scope after a step.  Where rows are passed on only their columns are. -/
def after (scope : List String) : Step → List String
  | .find m => scope ++ m.pattern.introduces
  | .unwind _ binder => scope ++ [binder]
  | .create pattern => scope ++ pattern.introduces
  | .carry items => items.flatMap Item.introduces
  | .condition _ | .set _ | .delete _ | .detachDelete _ | .project _ _ | .sort _ | .skip _
  | .limit _ => scope

/-- A step speaks of variables in scope, and holds no text written by hand. -/
def Scoped (scope : List String) : Step → Prop
  | .find m => routeScoped False scope [m]
  | .condition e => e.Scoped False scope scope
  | .create pattern => pattern.uses ⊆ scope
  | .set changes => ∀ change ∈ changes, change.uses ⊆ scope
  | .delete binder | .detachDelete binder => binder ∈ scope
  | .carry items | .project _ items => ∀ item ∈ items, item.value.uses ⊆ scope
  | .sort keys => ∀ key ∈ keys, key.property.owner ∈ scope
  | .unwind _ _ | .skip _ | .limit _ => True

end Step

/-- Each step speaks of what is in scope when it is reached. -/
def stepsScoped (scope : List String) : List Step → Prop
  | [] => True
  | step :: rest => step.Scoped scope ∧ stepsScoped (step.after scope) rest

/-- Every variable that a statement speaks of was introduced before in it, or in the subquery that it
stands in. -/
def Statement.Closed (s : Statement) : Prop :=
  stepsScoped [] s.steps

/-! ### Laws -/

lemma stepsScoped_append {scope : List String} {steps later : List Step} :
    stepsScoped scope (steps ++ later) ↔
      stepsScoped scope steps ∧ stepsScoped (steps.foldl Step.after scope) later := by
  induction steps generalizing scope with
  | nil => simp [stepsScoped]
  | cons step rest ih => simp [stepsScoped, ih, and_assoc]

/-- Matches that are looked for one after the other are scoped as those of a subquery are. -/
lemma stepsScoped_find {scope : List String} {route : List (Match Expr)} :
    stepsScoped scope (route.map Step.find) ↔ routeScoped False scope route := by
  induction route generalizing scope with
  | nil => simp [stepsScoped, routeScoped]
  | cons m rest ih =>
      obtain ⟨pattern, conditions⟩ := m
      simp [stepsScoped, Step.Scoped, Step.after, routeScoped, ih, and_assoc]

lemma after_find (scope : List String) (route : List (Match Expr)) :
    (route.map Step.find).foldl Step.after scope = scope ++ patternsIntroduce route := by
  induction route generalizing scope with
  | nil => simp [patternsIntroduce]
  | cons m rest ih => simp [Step.after, ih, patternsIntroduce]

end GraphMapper.Cypher

namespace GraphMapper

open Cypher (Step)

/-- Steps that ask for parameters by number, with a value for each. -/
lemma numbered_bound {values : List Value} {steps : List Step} (columns : List String)
    (h : StepsTell steps ((List.range values.length).map Bindings.parameterName)) :
    (numbered values steps columns).Bound := by
  obtain ⟨htidy, hps⟩ := h
  exact bound_of_names (b := .ofValues values) rfl ((Cypher.asks_steps htidy).names.trans hps)

end GraphMapper
