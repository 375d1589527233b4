import Mathlib.Tactic
import GraphMapper.Cypher.Expression

/-!
The three truth values of conditions, and chains of conditions.

* `Truth`: a condition on a missing value is neither true nor false;
* `Truth.any`: some of the values is true;
* `Truth.chain`: a chain of operands, read with `AND` binding tighter than `OR`;
* `Truth.chain_eq_yes_of_and`: a chain without `OR` is true if all its operands are.
-/

namespace GraphMapper.Cypher

/-- The truth of a condition. -/
inductive Truth where
  | yes
  | no
  | unknown
deriving DecidableEq, Repr

namespace Truth

def ofBool : Bool → Truth
  | true => yes
  | false => no

def not : Truth → Truth
  | yes => no
  | no => yes
  | unknown => unknown

/-- The truth of a condition that may be negated. -/
def signed (negated : Bool) (t : Truth) : Truth :=
  if negated then t.not else t

/-- One false operand decides a conjunction. -/
def and : Truth → Truth → Truth
  | no, _ | _, no => no
  | yes, yes => yes
  | _, _ => unknown

/-- One true operand decides a disjunction. -/
def or : Truth → Truth → Truth
  | yes, _ | _, yes => yes
  | no, no => no
  | _, _ => unknown

@[simp] lemma ofBool_eq_yes {b : Bool} : ofBool b = yes ↔ b = true := by
  cases b <;> simp [ofBool]

@[simp] lemma and_eq_yes {s t : Truth} : s.and t = yes ↔ s = yes ∧ t = yes := by
  cases s <;> cases t <;> simp [and]

@[simp] lemma or_eq_yes {s t : Truth} : s.or t = yes ↔ s = yes ∨ t = yes := by
  cases s <;> cases t <;> simp [or]

/-- Some of the values is true. -/
def any (values : List Truth) : Truth :=
  values.foldr or no

lemma any_eq_yes {values : List Truth} : any values = yes ↔ yes ∈ values := by
  induction values with
  | nil => simp [any]
  | cons t rest ih =>
      rw [any, List.foldr_cons, or_eq_yes, List.mem_cons, eq_comm (a := t)]
      exact or_congr_right ih

/-! ### Chains -/

/-- The operands of a condition, each with the connective before it. -/
abbrev Operands := List (Connective × Truth)

/-- The truth of a chain from the middle of a run of operands joined by `AND` on. -/
def continueRun (run : Truth) : Operands → Truth
  | [] => run
  | (.and, t) :: rest => continueRun (run.and t) rest
  | (.or, t) :: rest => run.or (continueRun t rest)

/-- The truth of a chain of operands: some run of operands joined by `AND` is true.  The connective of
the first operand has no meaning, and nothing is asked for by no operand. -/
def chain : Operands → Truth
  | [] => yes
  | (_, t) :: rest => continueRun t rest

/-- Operands that follow a connective of their own. -/
def joinedBy (c : Connective) : Operands → Operands
  | [] => []
  | (_, t) :: rest => (c, t) :: rest

/-- Operands of which the first is negated. -/
def negateFirst : Operands → Operands
  | [] => []
  | (c, t) :: rest => (c, t.not) :: rest

@[simp] lemma chain_singleton (operand : Connective × Truth) : chain [operand] = operand.2 := rfl

@[simp] lemma chain_joinedBy (c : Connective) (operands : Operands) :
    chain (joinedBy c operands) = chain operands := by
  cases operands <;> rfl

lemma joinedBy_concat (c : Connective) (operands : Operands) (t : Truth) :
    joinedBy c (operands ++ [(c, t)]) = joinedBy c operands ++ [(c, t)] := by
  cases operands <;> rfl

lemma joinedBy_fst {c : Connective} {operands : Operands} (h : ∀ o ∈ operands, o.1 = c) :
    ∀ o ∈ joinedBy c operands, o.1 = c := by
  cases operands with
  | nil => simp [joinedBy]
  | cons operand rest =>
      rintro o (_ | ⟨_, ho⟩)
      · rfl
      · exact h o (List.mem_cons_of_mem _ ho)

lemma continueRun_eq_yes_of_and {operands : Operands} (h : ∀ o ∈ operands, o.1 = .and)
    (run : Truth) :
    continueRun run operands = yes ↔ run = yes ∧ ∀ o ∈ operands, o.2 = yes := by
  induction operands generalizing run with
  | nil => simp [continueRun]
  | cons operand rest ih =>
      obtain ⟨c, t⟩ := operand
      obtain rfl : c = .and := h (c, t) List.mem_cons_self
      rw [continueRun, ih fun o ho => h o (List.mem_cons_of_mem _ ho), and_eq_yes,
        List.forall_mem_cons]
      exact and_assoc

/-- **Chains without alternatives**: such a chain is true if all its operands are. -/
theorem chain_eq_yes_of_and {operands : Operands} (h : ∀ o ∈ operands.tail, o.1 = .and) :
    chain operands = yes ↔ ∀ o ∈ operands, o.2 = yes := by
  cases operands with
  | nil => simp [chain]
  | cons operand rest =>
      obtain ⟨c, t⟩ := operand
      have hrest : ∀ o ∈ rest, o.1 = .and := h
      rw [chain, continueRun_eq_yes_of_and hrest, List.forall_mem_cons]

/-- A chain without alternatives and one operand more. -/
lemma chain_concat_eq_yes_of_and {operands : Operands} (h : ∀ o ∈ operands, o.1 = .and)
    (t : Truth) : chain (operands ++ [(.and, t)]) = yes ↔ chain operands = yes ∧ t = yes := by
  have hmore : ∀ o ∈ operands ++ [(.and, t)], o.1 = .and := by
    intro o ho
    rcases List.mem_append.mp ho with ho | ho
    · exact h o ho
    · rw [List.mem_singleton.mp ho]
  rw [chain_eq_yes_of_and fun o ho => hmore o (List.mem_of_mem_tail ho),
    chain_eq_yes_of_and fun o ho => h o (List.mem_of_mem_tail ho), List.forall_mem_append,
    List.forall_mem_singleton]

end Truth

end GraphMapper.Cypher
