import GraphMapper.Proofs.Shape.Alike

/-!
Filters of one shape are compiled to one condition.

* `Operand.SameShape`, `Condition.SameShape`, `membersSameShape`: filters that differ in their
  values alone;
* `TestForm.SameShape`, `TestForm.both_of_sameShape`: the tests of operands of one shape come to
  forms of one shape;
* `Condition.compile_alike`, `Clause.compile_alike`, `compileChain_alike`: the induction over the
  filter.
-/

namespace GraphMapper

open Cypher (Comparison Connective Expr Match Piece Property)

/-! ### Shapes -/

/-- The kind of the pattern that a value is, if it is a text. -/
def Value.patternKind? (v : Value) : Option Like.Shape.Kind :=
  v.asString?.map fun text => (Like.shape text.toList).kind

/-- Operands that differ in their values alone: of two compared values both or none are null, of two
lists of items both or none are empty, and patterns are of one kind. -/
def Operand.SameShape (op : Operator) : Operand → Operand → Prop
  | .value v, .value w =>
    match op with
    | .compare _ => v.isNull = w.isNull
    | .like | .notLike | .likeAnyCase => v.patternKind? = w.patternKind?
    | _ => True
  | .list items, .list others =>
    match op with
    | .among | .notAmong => items.isEmpty = others.isEmpty
    | _ => True
  | .range _ _, .range _ _ => True
  | .none, .none => True
  | _, _ => False

mutual

/-- Conditions that differ in their values alone. -/
def Condition.SameShape : Condition → Condition → Prop
  | .test column op operand, .test column' op' operand' =>
    column = column' ∧ op = op' ∧ operand.SameShape op operand'
  | .columns first op second, .columns first' op' second' =>
    first = first' ∧ op = op' ∧ second = second'
  | .group filter, .group filter' => membersSameShape filter filter'
  | .raw text values, .raw text' values' => text = text' ∧ values.length = values'.length
  | .related label correlation filter, .related label' correlation' filter' =>
    label = label' ∧ correlation = correlation' ∧ membersSameShape filter filter'
  | _, _ => False

/-- Members with one joiner and one negation whose conditions differ in their values alone. -/
def Clause.SameShape : Clause Condition → Clause Condition → Prop
  | ⟨joiner, negated, condition⟩, ⟨joiner', negated', condition'⟩ =>
    joiner = joiner' ∧ negated = negated' ∧ condition.SameShape condition'

/-- Filters whose members, one by one, differ in their values alone. -/
def membersSameShape : List (Clause Condition) → List (Clause Condition) → Prop
  | [], [] => True
  | clause :: rest, clause' :: rest' => clause.SameShape clause' ∧ membersSameShape rest rest'
  | _, _ => False

end

/-! ### Tests of a column -/

namespace TestForm

/-- Forms that differ in their values alone. -/
inductive SameShape : TestForm → TestForm → Prop
  | isNull : SameShape .isNull .isNull
  | isNotNull : SameShape .isNotNull .isNotNull
  | constant (b : Bool) : SameShape (.constant b) (.constant b)
  | single (negated : Bool) (t : Cypher.Test) (v w : Value) :
      SameShape (.single negated t v) (.single negated t w)
  | range (lower : Comparison) (low low' : Value) (c : Connective) (upper : Comparison)
      (high high' : Value) :
      SameShape (.range lower low c upper high) (.range lower low' c upper high')
  | pattern (op : Operator) {text text' : String}
      (h : (Like.shape text.toList).kind = (Like.shape text'.toList).kind) :
      SameShape (.pattern op text) (.pattern op text')

lemma SameShape.refl (form : TestForm) : form.SameShape form := by
  cases form <;> constructor
  rfl

/-- Forms of one shape are written as one condition. -/
lemma SameShape.emit_inStep {form form' : TestForm} (h : form.SameShape form') (p : Property) :
    InStep (form.emit p) (form'.emit p) := by
  cases h with
  | isNull => exact .pure _
  | isNotNull => exact .pure _
  | constant b => exact .pure _
  | single negated t v w => exact (InStep.value v w).bind fun name => .pure _
  | range lower low low' c upper high high' =>
      exact (InStep.value low low').bind fun first =>
        (InStep.value high high').bind fun second => .pure _
  | pattern op hkind =>
      rw [emit, emit, compileLike_eq, compileLike_eq]
      dsimp only
      rw [hkind]
      exact (InStep.value _ _).bind fun name => .pure _

lemma of_compare {v : Value} (h : v.isNull = false) (column : String) (c : Comparison) :
    of column (.compare c) (.value v) = .ok (.single false (.compare c) v) := by
  cases c <;> cases v <;> first | rfl | cases h

/-- A comparison with null, or not, comes to the same as another. -/
lemma both_of_compare {v w : Value} (h : v.isNull = w.isNull) (column : String) (c : Comparison) :
    Both SameShape (of column (.compare c) (.value v)) (of column (.compare c) (.value w)) := by
  cases hw : w.isNull with
  | true =>
      obtain rfl : v = .null := by cases v <;> simp_all [Value.isNull]
      obtain rfl : w = .null := by cases w <;> simp_all [Value.isNull]
      cases c <;> first | exact .ok .isNull | exact .ok .isNotNull | exact .error _ _
  | false =>
      rw [of_compare hw, of_compare (h.trans hw)]
      exact .ok (.single false _ v w)

/-- The form of a pattern test, or none if the value is no text. -/
lemma of_pattern {op : Operator} (hop : op = .like ∨ op = .notLike ∨ op = .likeAnyCase)
    (column : String) (v : Value) :
    of column op (.value v) =
      match v.asString? with
      | some text => .ok (.pattern op text)
      | none => .error (.patternNotText column) := by
  rcases hop with rfl | rfl | rfl <;> cases v <;> rfl

lemma both_of_pattern {op : Operator} (hop : op = .like ∨ op = .notLike ∨ op = .likeAnyCase)
    {v w : Value} (h : v.patternKind? = w.patternKind?) (column : String) :
    Both SameShape (of column op (.value v)) (of column op (.value w)) := by
  rw [of_pattern hop, of_pattern hop]
  rw [Value.patternKind?, Value.patternKind?] at h
  cases hv : v.asString? with
  | none =>
      cases hw : w.asString? with
      | none => exact .error _ _
      | some text => simp [hv, hw] at h
  | some text =>
      cases hw : w.asString? with
      | none => simp [hv, hw] at h
      | some text' =>
          simp only [hv, hw, Option.map_some, Option.some.injEq] at h
          exact .ok (.pattern op h)

lemma both_of_list {op : Operator} (hop : op = .among ∨ op = .notAmong) {items others : List Value}
    (h : items.isEmpty = others.isEmpty) (column : String) :
    Both SameShape (of column op (.list items)) (of column op (.list others)) := by
  rcases hop with rfl | rfl <;> cases items <;> cases others <;>
    first | exact .ok (.constant _) | exact .ok (.single _ _ _ _) | cases h

/-- Operands of one shape come to forms of one shape. -/
lemma both_of_sameShape {op : Operator} {operand operand' : Operand}
    (h : operand.SameShape op operand') (column : String) :
    Both SameShape (of column op operand) (of column op operand') := by
  cases operand with
  | value v =>
      cases operand' with
      | value w =>
          cases op with
          | compare c => exact both_of_compare h column c
          | like => exact both_of_pattern (.inl rfl) h column
          | notLike => exact both_of_pattern (.inr (.inl rfl)) h column
          | likeAnyCase => exact both_of_pattern (.inr (.inr rfl)) h column
          | null => exact .ok .isNull
          | notNull => exact .ok .isNotNull
          | _ => exact .error _ _
      | _ => exact h.elim
  | list items =>
      cases operand' with
      | list others =>
          cases op with
          | among => exact both_of_list (.inl rfl) h column
          | notAmong => exact both_of_list (.inr rfl) h column
          | compare c => cases c <;> exact .error _ _
          | null => exact .ok .isNull
          | notNull => exact .ok .isNotNull
          | _ => exact .error _ _
      | _ => exact h.elim
  | range low high =>
      cases operand' with
      | range low' high' =>
          cases op with
          | between => exact .ok (.range _ _ _ _ _ _ _)
          | notBetween => exact .ok (.range _ _ _ _ _ _ _)
          | compare c => cases c <;> exact .error _ _
          | null => exact .ok .isNull
          | notNull => exact .ok .isNotNull
          | _ => exact .error _ _
      | _ => exact h.elim
  | none =>
      cases operand' with
      | none =>
          cases of column op .none with
          | error e => exact .error _ _
          | ok form => exact .ok (SameShape.refl form)
      | _ => exact h.elim

end TestForm

/-- Tests of operands of one shape are compiled alike. -/
lemma compileTest_alike {op : Operator} {operand operand' : Operand}
    (h : operand.SameShape op operand') (binder column : String) :
    Alike (compileTest binder column op operand) (compileTest binder column op operand') := by
  have hforms := TestForm.both_of_sameShape h column
  rw [compileTest_eq, compileTest_eq]
  generalize TestForm.of column op operand = r at hforms ⊢
  generalize TestForm.of column op operand' = q at hforms ⊢
  cases hforms with
  | ok hform => exact (hform.emit_inStep _).alike
  | error e e' => exact .throw e e'

/-! ### Text written by hand -/

/-- As many values are put into the marked places of one text. -/
lemma Raw.fill_alike (text : String) (supplied : ℕ) (places : List (Option Char)) :
    ∀ {values others : List Value}, values.length = others.length →
      Alike (fill text supplied places values) (fill text supplied places others) := by
  induction places with
  | nil =>
      intro values others h
      match values, others with
      | [], [] => exact .pure _
      | _ :: _, _ :: _ => exact .throw _ _
  | cons place rest ih =>
      intro values others h
      match place, values, others with
      | some c, values, others =>
          rw [fill, fill]
          exact (ih h).bind fun pieces => .pure _
      | none, [], [] => exact .throw _ _
      | none, v :: values, w :: others =>
          rw [fill, fill]
          have hrest := ih (Nat.succ.inj h)
          exact (InStep.value v w).alike.bind fun name => hrest.bind fun pieces => .pure _

/-! ### Subqueries -/

/-- The matches of a subquery do not depend on what is bound. -/
lemma Correlation.route_inStep (outer inner label : String) (correlation : Correlation) :
    InStep (correlation.route outer inner label) (correlation.route outer inner label) := by
  induction correlation generalizing outer inner label with
  | column outerColumn innerColumn => exact .pure _
  | edge edgeType direction => exact .pure _
  | through first middle second ihf ihs =>
      rw [route]
      exact (InStep.fresh "m").bind fun node =>
        (ihf outer node middle).bind fun before => (ihs node inner label).bind fun after => .pure _

/-! ### Filters -/

/-- What is written for a member depends on its shape alone. -/
lemma Condition.SameShape.written {condition condition' : Condition}
    (h : condition.SameShape condition') (negated : Bool) :
    condition.written negated = condition'.written negated := by
  funext e
  cases negated with
  | false => rfl
  | true => cases condition <;> cases condition' <;> first | rfl | simp [SameShape] at h

mutual

theorem Condition.compile_alike : ∀ {condition condition' : Condition},
    condition.SameShape condition' → ∀ binder : String,
      Alike (condition.compile binder) (condition'.compile binder)
  | .test column op operand, .test column' op' operand', h, binder => by
      rw [Condition.SameShape] at h
      obtain ⟨rfl, rfl, hoperand⟩ := h
      rw [Condition.compile, Condition.compile]
      exact (compileTest_alike hoperand binder column).bind fun e => .pure _
  | .columns first op second, .columns first' op' second', h, binder => by
      rw [Condition.SameShape] at h
      obtain ⟨rfl, rfl, rfl⟩ := h
      rw [Condition.compile]
      cases op.comparison? with
      | none => exact .throw _ _
      | some c => exact .pure _
  | .group filter, .group filter', h, binder => by
      rw [Condition.SameShape] at h
      rw [Condition.compile, Condition.compile]
      exact (compileChain_alike h binder 0 none).map _
  | .raw text values, .raw text' values', h, binder => by
      rw [Condition.SameShape] at h
      obtain ⟨rfl, hlength⟩ := h
      rw [Condition.compile, Condition.compile, compileRaw, compileRaw, hlength]
      exact ((Raw.fill_alike text _ _ hlength).bind fun pieces => .pure _).bind fun e => .pure _
  | .related label correlation filter, .related label' correlation' filter', h, binder => by
      rw [Condition.SameShape] at h
      obtain ⟨rfl, rfl, hfilter⟩ := h
      rw [Condition.compile, Condition.compile]
      exact (InStep.fresh "s").alike.bind fun inner =>
        (correlation.route_inStep binder inner label).alike.bind fun found =>
          (compileChain_alike hfilter inner 0 none).bind fun nested => .pure _

theorem Clause.compile_alike : ∀ {clause clause' : Clause Condition}, clause.SameShape clause' →
    ∀ binder : String, Alike (clause.compile binder) (clause'.compile binder)
  | ⟨joiner, negated, condition⟩, ⟨joiner', negated', condition'⟩, h, binder => by
      rw [Clause.SameShape] at h
      obtain ⟨rfl, rfl, hcondition⟩ := h
      rw [Clause.compile_eq, Clause.compile_eq, hcondition.written negated]
      exact (Condition.compile_alike hcondition binder).map _

theorem compileChain_alike : ∀ {rest rest' : List (Clause Condition)}, membersSameShape rest rest' →
    ∀ (binder : String) (index : ℕ) (chain : Option Expr),
      Alike (compileChain binder index chain rest) (compileChain binder index chain rest')
  | [], [], _, binder, index, chain => by
      rw [compileChain]
      exact .pure chain
  | clause :: rest, clause' :: rest', h, binder, index, chain => by
      rw [membersSameShape] at h
      have hjoiner : clause.joiner = clause'.joiner := by
        obtain ⟨joiner, negated, condition⟩ := clause
        obtain ⟨joiner', negated', condition'⟩ := clause'
        rw [Clause.SameShape] at h
        exact h.1.1
      rw [compileChain_cons, compileChain_cons, hjoiner]
      split_ifs
      · exact .throw _ _
      · exact (Clause.compile_alike h.1 binder).bind fun r => compileChain_alike h.2 binder _ _

end

/-- Filters of one shape are compiled alike. -/
theorem Filter.compile_alike {filter filter' : Filter} (h : membersSameShape filter filter')
    (binder : String) : Alike (filter.compile binder) (Filter.compile filter' binder) :=
  compileChain_alike h binder 0 none

end GraphMapper
