import GraphMapper.Proofs.Graph.Selection

/-!
A selection bounded in one of its columns.

* `compileChain_append`: a chain is written member by member;
* `Conjunctive`: a condition whose operands are all joined by `AND`, with `compileChain_conjunctive`
  for filters without alternatives; `conditionTruth_continueChain`: such a condition and one operand
  more;
* `Filter.bound`, `Filter.compile_merge_bound`: a bound merged into a filter holds beside the filter,
  alternatives included;
* `Selection.matched_restrict_bound` (**a bound cuts off**): the nodes that are matched by a bounded
  selection are those of the selection whose value lies on the right side of the bound.
-/

namespace GraphMapper

open Cypher (Comparison Connective Env Expr Graph Interpretation Property Truth conditionTruth)

variable {I : Interpretation} {g : Graph} {params : Row} {row : Env} {binder : String}

/-! ### Chains of members -/

/-- Members are written one after the other. -/
lemma compileChain_append (index : ℕ) (chain : Option Expr) (first second : Filter) :
    compileChain binder index chain (first ++ second) =
      compileChain binder index chain first >>= fun r =>
        compileChain binder (index + first.length) r second := by
  induction first generalizing index chain with
  | nil => rw [List.nil_append, compileChain, pure_bind, List.length_nil, Nat.add_zero]
  | cons clause rest ih =>
      rw [List.cons_append, compileChain_cons, compileChain_cons]
      split_ifs
      · rfl
      · rw [bind_assoc]
        refine congrArg (clause.compile binder >>= ·) (funext fun r => ?_)
        rw [ih, List.length_cons, Nat.add_assoc, Nat.add_comm 1]

/-- A last member that is joined continues the chain. -/
lemma compileChain_joined (index : ℕ) (chain : Option Expr) (condition : Condition)
    {b after : Bindings} {r : Option Expr} (h : (condition.compile binder).on b = (.ok r, after)) :
    (compileChain binder index chain [⟨some .and, false, condition⟩]).on b =
      (.ok (continueChain chain (some .and) r), after) := by
  have hclause : (Clause.compile binder ⟨some .and, false, condition⟩).on b = (.ok r, after) := by
    rw [Clause.compile_eq, Compiling.on_map_eq_ok]
    exact ⟨r, h, by cases r <;> rfl⟩
  rw [compileChain_cons, if_neg (by simp)]
  refine Compiling.on_bind_eq_ok.mpr ⟨r, after, hclause, ?_⟩
  rw [compileChain]
  rfl

lemma Condition.compile_group {filter : Filter} {b after : Bindings} {r : Option Expr}
    (h : (filter.compile binder).on b = (.ok r, after)) :
    (Condition.compile binder (.group filter)).on b = (.ok (r.map .group), after) := by
  rw [Condition.compile]
  exact Compiling.on_bind_eq_ok.mpr ⟨r, after, h, rfl⟩

/-! ### Conditions without alternatives -/

/-- All operands of a condition are joined by `AND`. -/
def Conjunctive (I : Interpretation) (g : Graph) (params : Row) (row : Env) (r : Option Expr) : Prop :=
  ∀ o ∈ writtenOperands I g params row r, o.1 = .and

lemma Conjunctive.none : Conjunctive I g params row none := by
  simp [Conjunctive, writtenOperands]

lemma Conjunctive.of_means {r : Option Expr} {t : Option Truth} (h : Means I g params row r t) :
    Conjunctive I g params row r := by
  cases r with
  | none => exact .none
  | some e =>
      cases t with
      | none => simp [Means] at h
      | some t =>
          have he : e.operands I g params row = [(.and, t)] := by simpa [Means] using h
          simp [Conjunctive, writtenOperands, he]

lemma means_of_operands {e : Expr} {t : Truth} (h : e.operands I g params row = [(.and, t)]) :
    ∃ t, Means I g params row (some e) t :=
  ⟨some t, congrArg some h⟩

lemma Means.ne_raw {e : Expr} {t : Option Truth} (h : Means I g params row (some e) t) :
    e ≠ .raw [] := by
  rintro rfl
  cases t <;> simp [Means, Expr.operands] at h

/-- A member opens a chain whatever it is joined by. -/
lemma Means.continueChain_none {r : Option Expr} {t : Option Truth} (h : Means I g params row r t)
    (joiner : Option Connective) : continueChain none joiner r = r := by
  cases r with
  | none => rfl
  | some e => exact extendChain_none h.ne_raw _

lemma Conjunctive.continued {chain r : Option Expr} {t : Option Truth}
    (hchain : Conjunctive I g params row chain) (h : Means I g params row r t)
    {joiner : Option Connective} (hjoiner : joiner.getD .and = .and) :
    Conjunctive I g params row (continueChain chain joiner r) := by
  cases r with
  | none => exact hchain
  | some e =>
      cases chain with
      | none =>
          rw [h.continueChain_none]
          exact .of_means h
      | some before =>
          have he : ∀ o ∈ e.operands I g params row, o.1 = .and := Conjunctive.of_means h
          intro o ho
          change o ∈ (Expr.join before _ e).operands I g params row at ho
          rw [Expr.operands, hjoiner] at ho
          rcases List.mem_append.mp ho with ho | ho
          · exact hchain o ho
          · exact Truth.joinedBy_fst he o ho

/-- A condition without text written by hand is one operand, whatever row it is asked of. -/
lemma Condition.compile_means {condition : Condition} (hraw : condition.rawFree) {b after : Bindings}
    {r : Option Expr} (h : (condition.compile binder).on b = (.ok r, after))
    (hs : after.Supplies params) (row : Env) : ∃ t, Means I g params row r t := by
  cases condition with
  | test column op operand =>
      obtain ⟨form, -, rfl, rfl⟩ := Condition.compile_test_eq_ok.mp h
      exact ⟨some _, congrArg some (form.emit_meaning rfl hs)⟩
  | columns first op second =>
      obtain ⟨c, -, rfl, rfl⟩ := Condition.compile_columns_eq_ok.mp h
      exact means_of_operands (by rw [Expr.operands])
  | group filter =>
      obtain ⟨r', -, rfl⟩ := Condition.compile_group_eq_ok.mp h
      cases r' with
      | none => exact ⟨none, rfl⟩
      | some e => exact means_of_operands (by rw [Expr.operands])
  | raw text values => simp [Condition.rawFree] at hraw
  | related label correlation filter =>
      obtain ⟨nested, rfl, -⟩ := Condition.compile_related_eq_ok.mp h
      exact means_of_operands (by rw [Expr.operands])

lemma Clause.compile_means {clause : Clause Condition} (hraw : clause.rawFree) {b after : Bindings}
    {r : Option Expr} (h : (clause.compile binder).on b = (.ok r, after))
    (hs : after.Supplies params) (row : Env) : ∃ t, Means I g params row r t := by
  obtain ⟨joiner, negated, condition⟩ := clause
  rw [Clause.rawFree] at hraw
  rw [Clause.compile_eq, Compiling.on_map_eq_ok] at h
  obtain ⟨r', h, rfl⟩ := h
  obtain ⟨t, ht⟩ := Condition.compile_means (I := I) (g := g) hraw h hs row
  exact ⟨_, ht.written condition negated⟩

/-- Members that are all joined by `AND` continue a chain without alternatives. -/
lemma compileChain_conjunctive {members : Filter} (hraw : membersRawFree members)
    (hjoined : ∀ clause ∈ members, clause.joiner ≠ some .or) {index : ℕ} {chain : Option Expr}
    {b after : Bindings} {r : Option Expr}
    (h : (compileChain binder index chain members).on b = (.ok r, after)) (hs : after.Supplies params)
    (hchain : Conjunctive I g params row chain) : Conjunctive I g params row r := by
  induction members generalizing index chain b with
  | nil =>
      rw [compileChain] at h
      simp only [Compiling.on_pure, Prod.mk.injEq, Except.ok.injEq] at h
      exact h.1 ▸ hchain
  | cons clause rest ih =>
      rw [membersRawFree, Bool.and_eq_true] at hraw
      obtain ⟨hjoiner, hrest⟩ := List.forall_mem_cons.mp hjoined
      rw [compileChain_cons] at h
      split_ifs at h with hunjoined
      · simp at h
      · obtain ⟨e, mid, he, h⟩ := Compiling.on_bind_eq_ok.mp h
        have hlater := ((compileChain_adds (I := I) (g := g) rest binder (index + 1) _ mid).of_eq_ok h).1
        obtain ⟨t, ht⟩ := Clause.compile_means (I := I) (g := g) hraw.1 he (hs.mono hlater) row
        refine ih hraw.2 hrest h (hchain.continued ht ?_)
        rcases hj : clause.joiner with _ | _ | _
        · rfl
        · rfl
        · exact absurd hj hjoiner

/-- A filter without alternatives is written as a condition without alternatives. -/
lemma Filter.compile_conjunctive {filter : Filter} (hraw : membersRawFree filter)
    (halternatives : filter.hasAlternatives = false) {b after : Bindings} {r : Option Expr}
    (h : (filter.compile binder).on b = (.ok r, after)) (hs : after.Supplies params) :
    Conjunctive I g params row r := by
  cases filter with
  | nil =>
      rw [Filter.compile, compileChain] at h
      simp only [Compiling.on_pure, Prod.mk.injEq, Except.ok.injEq] at h
      exact h.1 ▸ .none
  | cons clause rest =>
      have hjoined : ∀ clause ∈ rest, clause.joiner ≠ some .or := by
        simpa [hasAlternatives] using halternatives
      rw [membersRawFree, Bool.and_eq_true] at hraw
      rw [Filter.compile, compileChain_cons] at h
      split_ifs at h with hunjoined
      · simp at h
      · obtain ⟨e, mid, he, h⟩ := Compiling.on_bind_eq_ok.mp h
        have hlater := ((compileChain_adds (I := I) (g := g) rest binder (0 + 1) _ mid).of_eq_ok h).1
        obtain ⟨t, ht⟩ := Clause.compile_means (I := I) (g := g) hraw.1 he (hs.mono hlater) row
        -- the joiner of the first member has no meaning
        rw [ht.continueChain_none] at h
        exact compileChain_conjunctive hraw.2 hjoined h hs (.of_means ht)

/-- In parentheses a condition is one operand. -/
lemma Conjunctive.group (r : Option Expr) : Conjunctive I g params row (r.map .group) := by
  cases r with
  | none => exact .none
  | some e => simp [Conjunctive, writtenOperands, Expr.operands]

lemma conditionTruth_group (r : Option Expr) :
    conditionTruth I g params (r.map .group) row = conditionTruth I g params r row := by
  cases r with
  | none => rfl
  | some e => simp [conditionTruth, Expr.truth, Expr.operands]

/-- A condition without alternatives, and one operand more. -/
theorem conditionTruth_continueChain {chain : Option Expr} {e : Expr} {t : Truth}
    (hchain : Conjunctive I g params row chain) (he : e.operands I g params row = [(.and, t)]) :
    conditionTruth I g params (continueChain chain (some .and) (some e)) row = .yes ↔
      conditionTruth I g params chain row = .yes ∧ t = .yes := by
  cases chain with
  | none =>
      obtain ⟨t', hmeans⟩ := means_of_operands he
      rw [hmeans.continueChain_none, conditionTruth, conditionTruth, Option.elim_some, Expr.truth, he]
      simp
  | some before =>
      change (Expr.join before .and e).truth I g params row = .yes ↔ _
      rw [Expr.truth, Expr.operands, he]
      exact Truth.chain_concat_eq_yes_of_and hchain t

/-! ### Bounds -/

/-- A filter that bounds one column. -/
def Filter.bound (column : String) (c : Comparison) (v : Value) : Filter :=
  Filter.and [] (.test column (.compare c) (.value v))

section

variable {column : String} {c : Comparison} {v : Value}

/-- What is written of a bound after other values were bound. -/
def boundExpr (binder column : String) (c : Comparison) (b : Bindings) : Expr :=
  .test (.property (Property.ofColumn binder column)) (.compare c)
    (.parameter (Bindings.parameterName b.values.length))

lemma compile_bound (hv : v ≠ .null) (b : Bindings) :
    (Condition.compile binder (.test column (.compare c) (.value v))).on b =
      (.ok (some (boundExpr binder column c b)), (Compiling.bind v b).2) := by
  have hform : TestForm.of column (.compare c) (.value v) = .ok (.single false (.compare c) v) := by
    cases v with
    | null => exact absurd rfl hv
    | _ => cases c <;> rfl
  rw [Condition.compile, compileTest_eq, hform]
  rfl

lemma operands_boundExpr {b : Bindings} (hs : (Compiling.bind v b).2.Supplies params) :
    (boundExpr binder column c b).operands I g params row =
      [(.and, I.compare c (row.value g (Property.ofColumn binder column)) v)] := by
  rw [boundExpr, operands_test rfl, parameterValue_bind hs]
  rfl

/-- **A bound merged into a filter**: it holds beside the filter, whose alternatives do not escape
it. -/
theorem Filter.compile_merge_bound (column : String) (c : Comparison) {filter : Filter}
    (hraw : membersRawFree filter) (hv : v ≠ .null)
    {b : Bindings} {r : Option Expr} (h : (filter.compile binder).on {} = (.ok r, b)) :
    ∃ r', ((Filter.merge filter (Filter.bound column c v)).compile binder).on {} =
        (.ok r', (Compiling.bind v b).2) ∧
      ∀ ⦃params : Row⦄, (Compiling.bind v b).2.Supplies params → ∀ row : Env,
        conditionTruth I g params r' row = .yes ↔
          conditionTruth I g params r row = .yes ∧
            I.compare c (row.value g (Property.ofColumn binder column)) v = .yes := by
  have hgrows := Compiling.bind_grows v b
  have hbound (b : Bindings) : ((Filter.bound column c v).compile binder).on b =
      (.ok (some (boundExpr binder column c b)), (Compiling.bind v b).2) :=
    compileChain_joined 0 none _ (compile_bound hv b)
  have hgroup {chain : Option Expr} {params : Row} {row : Env}
      (hs : (Compiling.bind v b).2.Supplies params) (hchain : Conjunctive I g params row chain) :
      conditionTruth I g params
          (continueChain chain (some .and) (some (.group (boundExpr binder column c b)))) row = .yes ↔
        conditionTruth I g params chain row = .yes ∧
          I.compare c (row.value g (Property.ofColumn binder column)) v = .yes :=
    conditionTruth_continueChain hchain (by rw [Expr.operands, operands_boundExpr hs]; rfl)
  rw [Filter.merge, if_neg (by simp [Filter.bound, Filter.and])]
  split_ifs with hempty halternatives
  -- an empty filter takes the bound as it is
  · obtain rfl := List.isEmpty_iff.mp hempty
    rw [Filter.compile, compileChain] at h
    simp only [Compiling.on_pure, Prod.mk.injEq, Except.ok.injEq] at h
    obtain ⟨rfl, rfl⟩ := h
    refine ⟨_, hbound {}, fun params hs row => ?_⟩
    exact conditionTruth_continueChain .none (operands_boundExpr hs)
  -- alternatives stay together in a group of their own
  · refine ⟨continueChain (r.map .group) (some .and) (some (.group (boundExpr binder column c b))), ?_,
      fun params hs row => ?_⟩
    · have hfirst := compileChain_joined 0 none _ (Condition.compile_group h)
      have hnone : continueChain none (some .and) (r.map .group) = r.map .group := by
        cases r <;> rfl
      rw [hnone] at hfirst
      rw [Filter.compile, Filter.and, compileChain_append]
      refine Compiling.on_bind_eq_ok.mpr ⟨_, b, hfirst, ?_⟩
      exact compileChain_joined _ _ _ (Condition.compile_group (hbound b))
    · rw [hgroup hs (.group r), conditionTruth_group]
  -- a filter without alternatives is continued by the bound
  · refine ⟨continueChain r (some .and) (some (.group (boundExpr binder column c b))), ?_,
      fun params hs row => ?_⟩
    · rw [Filter.compile, Filter.and, compileChain_append]
      refine Compiling.on_bind_eq_ok.mpr ⟨r, b, h, ?_⟩
      exact compileChain_joined _ _ _ (Condition.compile_group (hbound b))
    · exact hgroup hs (Filter.compile_conjunctive hraw (by simpa using halternatives) h
        (hs.mono hgrows))

end

namespace Selection

/-- The value of a node in a column. -/
def valueAt (g : Graph) (s : Selection) (column : String) (i : ℕ) : Value :=
  (nodeRow s.binder i).value g (Property.ofColumn s.binder column)

/-- **A bound cuts off**: a bounded selection can be written whenever the selection can, and matches
the nodes of the selection whose value lies on the right side of the bound. -/
theorem matched_restrict_bound {s : Selection} (hraw : membersRawFree s.filter) {r : Option Expr}
    {b : Bindings} (h : s.compiled = .ok (r, b)) (column : String) (c : Comparison) {v : Value}
    (hv : v ≠ .null) :
    (∃ r' b', (s.restrict (Filter.bound column c v)).compiled = .ok (r', b')) ∧
      (s.restrict (Filter.bound column c v)).matched I g =
        (s.matched I g).filter fun i => I.compare c (s.valueAt g column i) v = .yes := by
  obtain ⟨r', hr', htruth⟩ := Filter.compile_merge_bound (I := I) (g := g) column c hraw hv
    (on_of_compiled h)
  have hcompiled : (s.restrict (Filter.bound column c v)).compiled =
      .ok (r', (Compiling.bind v b).2) := by
    rw [compiled, Compiling.start_eq, restrict, hr']
  have hsettled := ((s.filter.compile_adds (I := I) (g := g) s.binder {}).of_eq_ok
    (on_of_compiled h)).2
  have hs := (Compiling.bind v b).2.supplies_parameters
  refine ⟨⟨r', _, hcompiled⟩, ?_⟩
  rw [matched_of_compiled hcompiled, matched_of_compiled h, List.filter_filter]
  refine List.filter_congr fun i _ => ?_
  have hsame : conditionTruth I g (Compiling.bind v b).2.parameters r (nodeRow s.binder i) =
      conditionTruth I g b.parameters r (nodeRow s.binder i) := by
    cases r with
    | none => rfl
    | some e =>
        rw [conditionTruth, conditionTruth, Option.elim_some, Option.elim_some, Expr.truth, Expr.truth,
          hsettled e rfl (hs.mono (Compiling.bind_grows v b)) b.supplies_parameters]
  rw [← Bool.decide_and, decide_eq_decide, and_comm, ← hsame]
  exact htruth hs _

end Selection

end GraphMapper
