import Mathlib.Data.List.Basic
import GraphMapper.Cypher.Statement

/-!
Variables of conditions: those that are introduced, and where the others may be spoken of.

* `Pattern.introduces`, `Pattern.uses`: the variables of a pattern, with a label and without one;
* `Expr.introduces`, `routeIntroduces`: the variables that the subqueries of a condition introduce, at
  every depth and in the order in which they are written;
* `Expr.Scoped`, `routeScoped`: every variable that is spoken of is in scope.

The scope of a subquery begins with the variables that it may be correlated with, and grows by what
its matches introduce.  A subquery inside a match stands at the last node of that match: it may be
correlated with this node alone.
-/

namespace GraphMapper.Cypher

/-! ### Patterns -/

/-- The variables that a term speaks of. -/
def Term.uses : Term → List String
  | .property p => [p.owner]
  | .parameter _ => []
  | .bound name => [name]
  | .lowered t => t.uses

/-- A node with a label is introduced. -/
def Node.introduces (n : Node) : List String :=
  if n.label.isSome then [n.binder] else []

/-- A node without a label is one that was introduced before. -/
def Node.uses (n : Node) : List String :=
  if n.label.isSome then [] else [n.binder]

/-- An edge with a variable is introduced. -/
def Edge.introduces (e : Edge) : List String :=
  if e.binder = "" then [] else [e.binder]

namespace Pattern

/-- The variables that a pattern introduces. -/
def introduces : Pattern → List String
  | .node n => n.introduces
  | .path left edge right => left.introduces ++ edge.introduces ++ right.introduces

/-- The variables that a pattern speaks of without introducing them. -/
def uses : Pattern → List String
  | .node n => n.uses
  | .path left _ right => left.uses ++ right.uses

end Pattern

/-! ### Conditions -/

mutual

/-- The variables that a condition introduces, in its subqueries. -/
def Expr.introduces : Expr → List String
  | .constant _ | .isNull _ | .isNotNull _ | .test _ _ _ | .raw _ => []
  | .subquery route => routeIntroduces route
  | .not e | .group e => e.introduces
  | .join chain _ e => chain.introduces ++ e.introduces

/-- The variables that matches introduce, those inside their conditions included. -/
def routeIntroduces : List (Match Expr) → List String
  | [] => []
  | m :: rest => Match.introduces m ++ routeIntroduces rest

def Match.introduces : Match Expr → List String
  | ⟨pattern, conditions⟩ => pattern.introduces ++ conditionsIntroduce conditions

def conditionsIntroduce : List Expr → List String
  | [] => []
  | e :: rest => e.introduces ++ conditionsIntroduce rest

end

mutual

/-- A condition speaks of variables in scope; its subqueries are correlated with variables of `outer`.
Text that is written by hand is left to its author, if there may be any. -/
def Expr.Scoped (byHand : Prop) (outer scope : List String) : Expr → Prop
  | .constant _ => True
  | .raw _ => byHand
  | .isNull p | .isNotNull p => p.owner ∈ scope
  | .test left _ right => left.uses ⊆ scope ∧ right.uses ⊆ scope
  | .subquery route => routeScoped byHand outer route
  | .not e | .group e => e.Scoped byHand outer scope
  | .join chain _ e => chain.Scoped byHand outer scope ∧ e.Scoped byHand outer scope

/-- Each match speaks of what is in scope before it and of what it introduces itself. -/
def routeScoped (byHand : Prop) (scope : List String) : List (Match Expr) → Prop
  | [] => True
  | ⟨pattern, conditions⟩ :: rest =>
    pattern.uses ⊆ scope ∧
      conditionsScoped byHand [pattern.target.binder] (scope ++ pattern.introduces) conditions ∧
      routeScoped byHand (scope ++ pattern.introduces) rest

def conditionsScoped (byHand : Prop) (outer scope : List String) : List Expr → Prop
  | [] => True
  | e :: rest => e.Scoped byHand outer scope ∧ conditionsScoped byHand outer scope rest

end

/-! ### Laws -/

variable {byHand : Prop}

lemma conditionsScoped_iff {outer scope : List String} {es : List Expr} :
    conditionsScoped byHand outer scope es ↔ ∀ e ∈ es, e.Scoped byHand outer scope := by
  induction es with
  | nil => simp [conditionsScoped]
  | cons e rest ih => simp [conditionsScoped, ih]

lemma conditionsIntroduce_append (es later : List Expr) :
    conditionsIntroduce (es ++ later) = conditionsIntroduce es ++ conditionsIntroduce later := by
  induction es with
  | nil => rfl
  | cons e rest ih => rw [List.cons_append, conditionsIntroduce, conditionsIntroduce, ih,
      List.append_assoc]

lemma routeIntroduces_append (route later : List (Match Expr)) :
    routeIntroduces (route ++ later) = routeIntroduces route ++ routeIntroduces later := by
  induction route with
  | nil => rfl
  | cons m rest ih => rw [List.cons_append, routeIntroduces, routeIntroduces, ih, List.append_assoc]

/-- What the patterns of matches introduce, without what is inside their conditions. -/
def patternsIntroduce (route : List (Match Expr)) : List String :=
  route.flatMap fun m => m.pattern.introduces

lemma routeScoped_append {scope : List String} {route later : List (Match Expr)} :
    routeScoped byHand scope (route ++ later) ↔
      routeScoped byHand scope route ∧
        routeScoped byHand (scope ++ patternsIntroduce route) later := by
  induction route generalizing scope with
  | nil => simp [routeScoped, patternsIntroduce]
  | cons m rest ih =>
      obtain ⟨pattern, conditions⟩ := m
      simp only [List.cons_append, routeScoped, ih, patternsIntroduce, List.flatMap_cons,
        List.append_assoc, and_assoc]

mutual

/-- A larger scope serves as well. -/
theorem Expr.Scoped.mono {outer outer' scope scope' : List String} (ho : outer ⊆ outer')
    (hs : scope ⊆ scope') : ∀ {e : Expr},
    e.Scoped byHand outer scope → e.Scoped byHand outer' scope'
  | .constant _, _ => trivial
  | .raw _, h => h
  | .isNull _, h => hs h
  | .isNotNull _, h => hs h
  | .test _ _ _, h => ⟨List.Subset.trans h.1 hs, List.Subset.trans h.2 hs⟩
  | .subquery route, h => by
      rw [Expr.Scoped] at h ⊢
      exact routeScoped.mono ho h
  | .not e, h => by
      rw [Expr.Scoped] at h ⊢
      exact Expr.Scoped.mono ho hs h
  | .group e, h => by
      rw [Expr.Scoped] at h ⊢
      exact Expr.Scoped.mono ho hs h
  | .join chain _ e, h => by
      rw [Expr.Scoped] at h ⊢
      exact ⟨Expr.Scoped.mono ho hs h.1, Expr.Scoped.mono ho hs h.2⟩

theorem routeScoped.mono {scope scope' : List String} (hs : scope ⊆ scope') :
    ∀ {route : List (Match Expr)},
    routeScoped byHand scope route → routeScoped byHand scope' route
  | [], _ => trivial
  | ⟨pattern, conditions⟩ :: rest, h => by
      rw [routeScoped] at h ⊢
      have hlarger : scope ++ pattern.introduces ⊆ scope' ++ pattern.introduces :=
        List.append_subset.mpr ⟨List.Subset.trans hs (List.subset_append_left _ _),
          List.subset_append_right _ _⟩
      exact ⟨List.Subset.trans h.1 hs, conditionsScoped.mono (List.Subset.refl _) hlarger h.2.1,
        routeScoped.mono hlarger h.2.2⟩

theorem conditionsScoped.mono {outer outer' scope scope' : List String} (ho : outer ⊆ outer')
    (hs : scope ⊆ scope') :
    ∀ {es : List Expr}, conditionsScoped byHand outer scope es →
      conditionsScoped byHand outer' scope' es
  | [], _ => trivial
  | e :: rest, h => by
      rw [conditionsScoped] at h ⊢
      exact ⟨Expr.Scoped.mono ho hs h.1, conditionsScoped.mono ho hs h.2⟩

end

end GraphMapper.Cypher
