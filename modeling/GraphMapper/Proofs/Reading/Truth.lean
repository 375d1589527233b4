import Mathlib.Data.List.SplitBy
import GraphMapper.Proofs.Filter.Compiling
import GraphMapper.Proofs.Reading.Expression

/-!
The truth of a filter, read off the filter and not off its text.

* `Condition.rawFree`, `membersRawFree`: filters without text written by hand;
* `testTruth`: the truth of a test of a column, given that of the atoms;
* `runs`, `chainTruth`: a chain is the disjunction of its maximal runs of members joined by `AND`;
* `Condition.truth`, `Clause.truth`, `Filter.truth`: a group is one member, a negated member is the
  complement of all that it says, and members that say nothing are left out together with their
  joiner.
-/

namespace GraphMapper

open Cypher (Connective Expr Lexeme Property Test)

/-! ### The truth of a filter -/

/-- A truth value for each atom, an atom being named by its lexemes. -/
abbrev AtomTruth := List Lexeme → Bool

mutual

/-- Whether a condition is free of text written by hand. -/
def Condition.rawFree : Condition → Bool
  | .test _ _ _ => true
  | .columns _ _ _ => true
  | .group filter => membersRawFree filter
  | .raw _ _ => false
  | .related _ _ filter => membersRawFree filter

def Clause.rawFree : Clause Condition → Bool
  | ⟨_, _, condition⟩ => condition.rawFree

/-- Whether all members of a filter are free of text written by hand. -/
def membersRawFree : List (Clause Condition) → Bool
  | [] => true
  | clause :: rest => clause.rawFree && membersRawFree rest

end

lemma Filter.rawFree_append (first second : Filter) :
    membersRawFree (first ++ second) = (membersRawFree first && membersRawFree second) := by
  induction first with
  | nil => rfl
  | cons clause rest ih =>
      rw [List.cons_append, membersRawFree, membersRawFree, ih, Bool.and_assoc]

/-- The truth of a test of a column.  Its values are named by the next parameters.  A list without
items is decided at once; the complements of membership, range and pattern are true where these are
not. -/
def testTruth (truth : AtomTruth) (binder column : String) (op : Operator) (operand : Operand) :
    StateM Bindings Bool := do
  let p := Property.ofColumn binder column
  let against (t : Test) (v : Value) : StateM Bindings Bool := do
    return truth (Expr.test (.property p) t (.parameter (← Compiling.bind v))).atom
  match op, operand with
  | .compare .eq, .value .null => return truth (Expr.isNull p).atom
  | .compare .ne, .value .null => return truth (Expr.isNotNull p).atom
  | .compare c, .value v => against (.compare c) v
  | .among, .list [] => return truth (Expr.constant false).atom
  | .notAmong, .list [] => return truth (Expr.constant true).atom
  | .among, .list items => against .among (.array items)
  | .notAmong, .list items => return !(← against .among (.array items))
  | .between, .range low high => do
    let above ← against (.compare .ge) low
    let below ← against (.compare .le) high
    return above && below
  | .notBetween, .range low high => do
    let below ← against (.compare .lt) low
    let above ← against (.compare .gt) high
    return below || above
  | .null, _ => return truth (Expr.isNull p).atom
  | .notNull, _ => return truth (Expr.isNotNull p).atom
  | .like, .value (.string text) => return truth (← compileLike .like p text).atom
  | .notLike, .value (.string text) => return !truth (← compileLike .like p text).atom
  | .likeAnyCase, .value (.string text) => return truth (← compileLike .likeAnyCase p text).atom
  | _, _ => return false

/-- The maximal runs of members joined by `AND`.  The joiner of the first member has no meaning. -/
def runs (members : List (Connective × Bool)) : List (List (Connective × Bool)) :=
  members.splitBy fun _ next => next.1 = .and

/-- The truth of a chain of members, each with its joiner: some run of members is true
throughout. -/
def chainTruth (members : List (Connective × Bool)) : Option Bool :=
  if members.isEmpty then none
  else some ((runs members).any fun run => run.all (·.2))

mutual

/-- The truth of a condition about the node of a variable; `none` if it says nothing. -/
def Condition.truth (truth : AtomTruth) (binder : String) :
    Condition → StateM Bindings (Option Bool)
  | .test column op operand => return some (← testTruth truth binder column op operand)
  | .columns first op second =>
    return op.comparison?.map fun c =>
      truth (Expr.test (.property (Property.ofColumn binder first)) (.compare c)
        (.property (Property.ofColumn binder second))).atom
  | .group filter => return chainTruth (← membersTruth truth binder filter)
  | .raw _ _ => return none
  -- the subquery is one atom, named by its whole text
  | .related label correlation filter => do
    match ← (Condition.compile binder (.related label correlation filter)).run with
    | .ok (some e) => return some (truth e.atom)
    | _ => return none

/-- The truth of a member of a filter: the complement of all that it says if it is negated. -/
def Clause.truth (truth : AtomTruth) (binder : String) :
    Clause Condition → StateM Bindings (Option Bool)
  | ⟨_, negated, condition⟩ => do
    return (← condition.truth truth binder).map fun value => if negated then !value else value

/-- The members of a filter that say something, each with its joiner. -/
def membersTruth (truth : AtomTruth) (binder : String) :
    List (Clause Condition) → StateM Bindings (List (Connective × Bool))
  | [] => return []
  | clause :: rest => do
    let value ← clause.truth truth binder
    let later ← membersTruth truth binder rest
    return (value.map fun value => (clause.joiner.getD .and, value)).toList ++ later

end

/-- The truth of a filter about the node of a variable; `none` if it says nothing. -/
def Filter.truth (truth : AtomTruth) (filter : Filter) (binder : String) :
    StateM Bindings (Option Bool) :=
  return chainTruth (← membersTruth truth binder filter)

/-- The truth of the members of a filter, the first before the others. -/
lemma membersTruth_cons (truth : AtomTruth) (binder : String) (clause : Clause Condition)
    (rest : List (Clause Condition)) (b : Bindings) :
    membersTruth truth binder (clause :: rest) b =
      ((((clause.truth truth binder b).1.map fun v => (clause.joiner.getD .and, v)).toList ++
          (membersTruth truth binder rest (clause.truth truth binder b).2).1),
        (membersTruth truth binder rest (clause.truth truth binder b).2).2) := by
  rw [membersTruth]
  rfl

/-! ### Runs -/

lemma runs_append_or (members : List (Connective × Bool)) (value : Bool) :
    runs (members ++ [(.or, value)]) = runs members ++ [[(.or, value)]] := by
  rw [runs, List.splitBy_append_cons [] (by simp)]
  rfl

lemma runs_append_and {members : List (Connective × Bool)}
    {closed : List (List (Connective × Bool))} {current : List (Connective × Bool)}
    (h : runs members = closed ++ [current]) (value : Bool) :
    runs (members ++ [(.and, value)]) = closed ++ [current ++ [(.and, value)]] := by
  obtain ⟨hflat, hne, hchain, hjoin⟩ := List.splitBy_eq_iff.mp h
  have hcurrent : current ≠ [] := fun he => hne (by simp [he])
  refine List.splitBy_eq_iff.mpr ⟨?_, ?_, ?_, ?_⟩
  · simp [hflat]
  · intro hm
    rcases List.mem_append.mp hm with hm | hm
    · exact hne (List.mem_append_left _ hm)
    · simp at hm
  · intro run hrun
    rcases List.mem_append.mp hrun with hm | hm
    · exact hchain run (List.mem_append_left _ hm)
    · rw [List.mem_singleton.mp hm, List.isChain_append]
      exact ⟨hchain current (by simp), by simp, by simp⟩
  · rw [List.isChain_append] at hjoin ⊢
    refine ⟨hjoin.1, by simp, fun run hrun next hnext => ?_⟩
    obtain ⟨hr, hn, hbreak⟩ := hjoin.2.2 run hrun current (by simp)
    obtain rfl : current ++ [(.and, value)] = next := by simpa using hnext
    exact ⟨hr, by simp, by rwa [List.head_append_of_ne_nil hn]⟩

end GraphMapper
