import GraphMapper.Proofs.Reading.Truth

/-!
Tests of a column are written as they are meant.

* `ReadsExpr`: conditions without text written by hand that read as an operand;
* `TestForm.truth`, `testTruth_eq`: the truth of a test is that of what it comes to;
* `TestForm.reads`: what a test comes to is written as an operand with its truth.
-/

namespace GraphMapper

open Cypher (Connective Expr Formula Frame IsWord Property ReadsChain ReadsOperand Term Test
  isWord_toString)

/-! ### Tests -/

/-- A condition without text written by hand that reads as an operand. -/
structure ReadsExpr (e : Expr) (f : Formula) : Prop where
  clean : e.Clean
  reads : ReadsOperand e.text.toList f

lemma isWord_parameterName (i : ℕ) : IsWord (Bindings.parameterName i).toList := by
  rw [Bindings.parameterName, String.toList_append]
  exact IsWord.append (by decide) (isWord_toString i)

lemma ReadsExpr.not {e : Expr} {f : Formula} (h : ReadsExpr e f) : ReadsExpr (.not e) (.not f) := by
  refine ⟨by simpa [Expr.Clean] using h.clean, ?_⟩
  have := h.reads.negated
  simpa [Expr.text] using this

/-- A chain in parentheses. -/
lemma readsExpr_group {e : Expr} {alternatives : Option Formula} {run : Formula} (hc : e.Clean)
    (h : ReadsChain e.text.toList alternatives run) :
    ReadsExpr (.group e) (Frame.disjoin alternatives run) := by
  refine ⟨by simpa [Expr.Clean] using hc, ?_⟩
  have := h.enclosed
  simpa [Expr.text] using this

lemma ReadsExpr.group {e : Expr} {f : Formula} (h : ReadsExpr e f) : ReadsExpr (.group e) f :=
  readsExpr_group h.clean h.reads.chain

lemma readsExpr_test {left right : Term} (t : Test) (hl : left.Clean) (hr : right.Clean) :
    ReadsExpr (.test left t right) (.atom (Expr.test left t right).atom) :=
  ⟨⟨hl, hr⟩, Cypher.readsOperand_test t hl hr⟩

lemma text_join (chain : Expr) (c : Connective) (e : Expr) :
    (Expr.join chain c e).text.toList =
      chain.text.toList ++ ' ' :: (c.text.toList ++ ' ' :: e.text.toList) := by
  simp [Expr.text]

/-- A chain continued by `AND`. -/
lemma ReadsExpr.reads_join_and {chain e : Expr} {alternatives : Option Formula} {run f : Formula}
    (h : ReadsExpr e f) (hc : ReadsChain chain.text.toList alternatives run) :
    ReadsChain (Expr.join chain .and e).text.toList alternatives (.and run f) := by
  rw [text_join]
  exact hc.and h.reads

/-- A chain continued by `OR`. -/
lemma ReadsExpr.reads_join_or {chain e : Expr} {alternatives : Option Formula} {run f : Formula}
    (h : ReadsExpr e f) (hc : ReadsChain chain.text.toList alternatives run) :
    ReadsChain (Expr.join chain .or e).text.toList (some (Frame.disjoin alternatives run)) f := by
  rw [text_join]
  exact hc.or h.reads

/-- A test of a property against a parameter. -/
lemma readsExpr_against {p : Property} (hp : p.Clean) (t : Test) (i : ℕ) :
    ReadsExpr (.test (.property p) t (.parameter (Bindings.parameterName i)))
      (.atom (Expr.test (.property p) t (.parameter (Bindings.parameterName i))).atom) :=
  readsExpr_test t hp (isWord_parameterName i)

/-- The truth of what a test comes to. -/
def TestForm.truth (truth : AtomTruth) (p : Property) : TestForm → StateM Bindings Bool
  | .isNull => return truth (Expr.isNull p).atom
  | .isNotNull => return truth (Expr.isNotNull p).atom
  | .constant b => return truth (Expr.constant b).atom
  | .single negated t v => do
    let value := truth (Expr.test (.property p) t (.parameter (← Compiling.bind v))).atom
    return if negated then !value else value
  | .range lower low c upper high => do
    let first := truth
      (Expr.test (.property p) (.compare lower) (.parameter (← Compiling.bind low))).atom
    let second := truth
      (Expr.test (.property p) (.compare upper) (.parameter (← Compiling.bind high))).atom
    return match c with
      | .and => first && second
      | .or => first || second
  | .pattern op text => do
    let shape := Like.shape text.toList
    let name ← Compiling.bind (.string (String.ofList (shape.bound (op = .likeAnyCase))))
    let value := truth (likeTest (op = .likeAnyCase) p shape.kind name).atom
    return if op = .notLike then !value else value

lemma testTruth_eq {column : String} {op : Operator} {operand : Operand} {form : TestForm}
    (h : TestForm.of column op operand = .ok form) (truth : AtomTruth) (binder : String) :
    testTruth truth binder column op operand =
      form.truth truth (Property.ofColumn binder column) := by
  cases op with
  | compare c =>
      cases operand with
      | value v => cases c <;> cases v <;> cases h <;> rfl
      | _ => cases c <;> cases h
  | among => rcases operand with v | (_ | items) | _ | _ <;> cases h <;> rfl
  | notAmong => rcases operand with v | (_ | items) | _ | _ <;> cases h <;> rfl
  | like =>
      rcases operand with (_ | _ | _ | _ | _ | _) | _ | _ | _ <;> cases h
      simp only [testTruth, compileLike_eq]
      rfl
  | notLike =>
      rcases operand with (_ | _ | _ | _ | _ | _) | _ | _ | _ <;> cases h
      simp only [testTruth, compileLike_eq]
      rfl
  | likeAnyCase =>
      rcases operand with (_ | _ | _ | _ | _ | _) | _ | _ | _ <;> cases h
      simp only [testTruth, compileLike_eq]
      rfl
  | _ => cases operand <;> cases h <;> rfl

lemma readsExpr_likeTest {p : Property} (hp : p.Clean) (anyCase : Bool) (kind : Like.Shape.Kind)
    (i : ℕ) :
    ReadsExpr (likeTest anyCase p kind (Bindings.parameterName i))
      (.atom (likeTest anyCase p kind (Bindings.parameterName i)).atom) := by
  have hparam : (Term.parameter (Bindings.parameterName i)).Clean := isWord_parameterName i
  cases kind with
  | simple t => cases anyCase <;> exact readsExpr_test t hp hparam
  | regex => exact readsExpr_test .matching hp hparam

/-- What a test comes to is written as it is meant. -/
lemma TestForm.reads {p : Property} (hp : p.Clean) (form : TestForm) (b : Bindings) :
    ∃ f, ReadsExpr (form.emit p b).1 f ∧
      ∀ truth, form.truth truth p b = (f.holds truth, (form.emit p b).2) := by
  cases form with
  | isNull => exact ⟨_, ⟨hp, Cypher.readsOperand_isNull hp⟩, fun _ => rfl⟩
  | isNotNull => exact ⟨_, ⟨hp, Cypher.readsOperand_isNotNull hp⟩, fun _ => rfl⟩
  | constant value => exact ⟨_, ⟨trivial, Cypher.readsOperand_constant value⟩, fun _ => rfl⟩
  | single negated t v =>
      have h := readsExpr_against hp t b.values.length
      cases negated with
      | false => exact ⟨_, h, fun _ => rfl⟩
      | true => exact ⟨_, h.not, fun _ => rfl⟩
  | range lower low c upper high =>
      have hl := readsExpr_against hp (.compare lower) b.values.length
      have hu := readsExpr_against hp (.compare upper) (b.values ++ [low]).length
      cases c with
      | and =>
          have hjoin := hu.reads_join_and hl.reads.chain
          exact ⟨_, readsExpr_group ⟨hl.clean, hu.clean⟩ hjoin, fun _ => rfl⟩
      | or =>
          have hjoin := hu.reads_join_or hl.reads.chain
          exact ⟨_, readsExpr_group ⟨hl.clean, hu.clean⟩ hjoin, fun _ => rfl⟩
  | pattern op text =>
      have h := readsExpr_likeTest hp (op = .likeAnyCase) (Like.shape text.toList).kind
        b.values.length
      rw [TestForm.emit, compileLike_eq]
      cases op with
      | notLike => exact ⟨_, h.group.not, fun _ => rfl⟩
      | _ => exact ⟨_, h, fun _ => rfl⟩

end GraphMapper
