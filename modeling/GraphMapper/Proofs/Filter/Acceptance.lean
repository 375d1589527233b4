import GraphMapper.Proofs.Filter.Compiling

/-!
Which filters can be written.

* `Decided`: a compilation that succeeds or fails whatever is bound before it;
* `Condition.accepted`, `membersAccepted`: conditions and members that can be written;
  `Filter.accepted_append` splits a filter in two;
* `Condition.compile_decided`, `compileChain_decided`: these are just the ones whose compilation
  succeeds.
-/

namespace GraphMapper

variable {α β : Type}

/-- A compilation that succeeds if `ok` says so and fails otherwise, whatever is bound before it. -/
def Decided (x : Compiling α) (ok : Bool) : Prop :=
  ∀ b, (x.on b).1.isOk = ok

namespace Decided

lemma pure (a : α) : Decided (pure a) true := fun _ => rfl

lemma throw (e : CompileError) : Decided (throw e : Compiling α) false := fun _ => rfl

lemma lift (s : StateM Bindings α) : Decided (liftM s) true := fun _ => rfl

lemma bind {x : Compiling α} {f : α → Compiling β} {ok ok' : Bool} (hx : Decided x ok)
    (hf : ∀ a, Decided (f a) ok') : Decided (x >>= f) (ok && ok') := by
  intro b
  have hok := hx b
  rw [Compiling.on_bind]
  generalize x.on b = r at hok ⊢
  obtain ⟨e | a, after⟩ := r
  · rw [← hok]
    rfl
  · rw [← hok, show (Except.ok a : Except CompileError α).isOk = true from rfl, Bool.true_and]
    exact hf a after

lemma bind_pure {x : Compiling α} {f : α → β} {ok : Bool} (hx : Decided x ok) :
    Decided (x >>= fun a => Pure.pure (f a)) ok := by
  have h := hx.bind fun a => Decided.pure (f a)
  rwa [Bool.and_true] at h

lemma lift_bind {s : StateM Bindings α} {f : α → Compiling β} {ok : Bool}
    (hf : ∀ a, Decided (f a) ok) : Decided (liftM s >>= f) ok := by
  have h := (Decided.lift s).bind hf
  rwa [Bool.true_and] at h

end Decided

/-! ### Filters that can be written -/

mutual

/-- Whether a condition can be written. -/
def Condition.accepted : Condition → Bool
  | .test column op operand => (TestForm.of column op operand).isOk
  | .columns _ op _ => op.comparison?.isSome
  | .group filter => membersAccepted 0 filter
  | .raw text values => (Raw.places none text.toList).count none = values.length
  | .related _ _ filter => membersAccepted 0 filter

def Clause.accepted : Clause Condition → Bool
  | ⟨_, _, condition⟩ => condition.accepted

/-- Whether the members of a filter from a place on can be written: each but the first of all is
joined. -/
def membersAccepted (index : ℕ) : List (Clause Condition) → Bool
  | [] => true
  | clause :: rest =>
    (index = 0 || clause.joiner.isSome) && (clause.accepted && membersAccepted (index + 1) rest)

end

namespace Filter

lemma accepted_append (index : ℕ) (first second : Filter) :
    membersAccepted index (first ++ second) =
      (membersAccepted index first && membersAccepted (index + first.length) second) := by
  induction first generalizing index with
  | nil => rfl
  | cons clause rest ih =>
      rw [List.cons_append, membersAccepted, membersAccepted, ih, List.length_cons,
        show index + 1 + rest.length = index + (rest.length + 1) by omega, Bool.and_assoc,
        Bool.and_assoc]

/-- A member that is joined may stand anywhere. -/
lemma accepted_singleton (index : ℕ) (c : Cypher.Connective) (negated : Bool) (condition : Condition) :
    membersAccepted index [⟨some c, negated, condition⟩] = condition.accepted := by
  simp [membersAccepted, Clause.accepted]

end Filter

/-! ### Compilations that succeed -/

lemma compileTest_decided (binder column : String) (op : Operator) (operand : Operand) :
    Decided (compileTest binder column op operand) (TestForm.of column op operand).isOk := by
  rw [compileTest_eq]
  cases TestForm.of column op operand with
  | error e => exact .throw e
  | ok form => exact .lift _

lemma Raw.fill_decided (text : String) (supplied : ℕ) (places : List (Option Char))
    (values : List Value) :
    Decided (fill text supplied places values) (places.count none = values.length) := by
  induction places generalizing values with
  | nil =>
      cases values with
      | nil => exact .pure _
      | cons v rest => exact .throw _
  | cons place rest ih =>
      cases place with
      | some c =>
          rw [fill, List.count_cons_of_ne (by simp)]
          exact (ih values).bind_pure
      | none =>
          cases values with
          | nil =>
              rw [fill, List.count_cons_self]
              exact .throw _
          | cons v values =>
              rw [fill, List.count_cons_self, List.length_cons]
              have hsame : decide (rest.count none + 1 = values.length + 1) =
                  decide (rest.count none = values.length) := by simp
              rw [hsame]
              exact .lift_bind fun name => (ih values).bind_pure

mutual

theorem Condition.compile_decided : ∀ (condition : Condition) (binder : String),
    Decided (condition.compile binder) condition.accepted
  | .test column op operand, binder => by
      rw [Condition.compile, Condition.accepted]
      exact (compileTest_decided binder column op operand).bind_pure
  | .columns first op second, binder => by
      rw [Condition.compile, Condition.accepted]
      cases op.comparison? with
      | none => exact .throw _
      | some c => exact .pure _
  | .group filter, binder => by
      rw [Condition.compile, Condition.accepted]
      exact (compileChain_decided filter binder 0 none).bind_pure
  | .raw text values, binder => by
      rw [Condition.compile, Condition.accepted, compileRaw]
      exact (Raw.fill_decided text _ _ values).bind_pure.bind_pure
  | .related label correlation filter, binder => by
      rw [Condition.compile, Condition.accepted]
      exact .lift_bind fun inner => .lift_bind fun found =>
        (compileChain_decided filter inner 0 none).bind_pure

theorem Clause.compile_decided : ∀ (clause : Clause Condition) (binder : String),
    Decided (clause.compile binder) clause.accepted
  | ⟨joiner, negated, condition⟩, binder => by
      rw [Clause.compile_eq, Clause.accepted, map_eq_pure_bind]
      exact (Condition.compile_decided condition binder).bind_pure

theorem compileChain_decided : ∀ (rest : List (Clause Condition)) (binder : String) (index : ℕ)
    (chain : Option Cypher.Expr),
    Decided (compileChain binder index chain rest) (membersAccepted index rest)
  | [], binder, index, chain => by
      rw [compileChain, membersAccepted]
      exact .pure _
  | clause :: rest, binder, index, chain => by
      rw [compileChain_cons, membersAccepted]
      split_ifs with hunjoined
      · have hrefused : (decide (index = 0) || clause.joiner.isSome) = false := by
          simp [hunjoined]
        rw [hrefused]
        exact .throw _
      · have hjoined : (decide (index = 0) || clause.joiner.isSome) = true := by
          rw [Bool.or_eq_true, decide_eq_true_iff, Option.isSome_iff_ne_none]
          exact or_iff_not_imp_left.mpr fun hne hnone => hunjoined ⟨hne, hnone⟩
        rw [hjoined, Bool.true_and]
        exact (Clause.compile_decided clause binder).bind fun r =>
          compileChain_decided rest binder (index + 1) _

end

end GraphMapper
