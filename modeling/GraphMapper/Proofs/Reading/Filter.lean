import GraphMapper.Proofs.Reading.Test

/-!
Filters are written as they are meant.

* `routeClean_route`, `routeClean_addCondition`: the matches of a subquery, with its condition, are
  made of words;
* `ChainReads`: what has been written of a chain reads as the members that it was made of;
  `ChainReads.extend` adds a member;
* `Condition.compile_reads`, `Clause.compile_reads`, `compileChain_reads`: the induction over the
  filter;
* `Filter.compile_readText`: the text of a filter reads as a formula with the truth of the filter.
-/

namespace GraphMapper

open Cypher (Connective Expr Formula Frame IsWord Match Pattern Property ReadsChain Term Test
  conditionsClean isWord_toString routeClean)

/-! ### Subqueries -/

lemma routeClean_append {first second : List (Match Expr)} (hf : routeClean first)
    (hs : routeClean second) : routeClean (first ++ second) := by
  induction first with
  | nil => exact hs
  | cons m rest ih =>
      rw [routeClean] at hf
      rw [List.cons_append, routeClean]
      exact ⟨hf.1, ih hf.2⟩

lemma routeClean_modify {f : Match Expr → Match Expr}
    (hf : ∀ m, Match.Clean m → Match.Clean (f m)) {route : List (Match Expr)}
    (h : routeClean route) (i : ℕ) : routeClean (route.modify i f) := by
  induction route generalizing i with
  | nil => simpa using h
  | cons m rest ih =>
      rw [routeClean] at h
      cases i with
      | zero =>
          rw [List.modify_zero_cons, routeClean]
          exact ⟨hf m h.1, h.2⟩
      | succ i =>
          rw [List.modify_succ_cons, routeClean]
          exact ⟨h.1, ih h.2 i⟩

lemma conditionsClean_append {first second : List Expr} (hf : conditionsClean first)
    (hs : conditionsClean second) : conditionsClean (first ++ second) := by
  induction first with
  | nil => exact hs
  | cons e rest ih =>
      rw [conditionsClean] at hf
      rw [List.cons_append, conditionsClean]
      exact ⟨hf.1, ih hf.2⟩

/-- The condition of a subquery is clean in its place. -/
lemma routeClean_addCondition {route : List (Match Expr)} (h : routeClean route)
    {condition : Option Expr} (hc : ∀ e, condition = some e → e.Clean) :
    routeClean (addCondition route condition) := by
  cases condition with
  | none => exact h
  | some e =>
      refine routeClean_modify (fun m hm => ?_) h _
      have he : conditionsClean [Expr.group e] := ⟨hc e rfl, trivial⟩
      obtain ⟨pattern, conditions⟩ := m
      rw [Match.Clean] at hm ⊢
      exact ⟨hm.1, conditionsClean_append hm.2 he⟩

/-- A variable that is given out is a word. -/
lemma isWord_numbered {letter : String} (h : IsWord letter.toList) (i : ℕ) :
    IsWord (letter ++ toString i).toList := by
  rw [String.toList_append]
  exact h.append (isWord_toString i)

lemma routeClean_route {outer inner : String} (ho : IsWord outer.toList)
    (hi : IsWord inner.toList) (label : String) (correlation : Correlation) (b : Bindings) :
    routeClean (correlation.route outer inner label b).1 := by
  induction correlation generalizing outer inner label b with
  | column outerColumn innerColumn =>
      have hleft : (Property.ofColumn inner innerColumn).Clean := Cypher.isWord_ofColumn hi _
      have hright : (Property.ofColumn outer outerColumn).Clean := Cypher.isWord_ofColumn ho _
      exact ⟨⟨hi, ⟨hleft, hright⟩, trivial⟩, trivial⟩
  | edge edgeType direction =>
      have hempty : IsWord "".toList := by decide
      exact ⟨⟨⟨ho, hempty, hi⟩, trivial⟩, trivial⟩
  | through first middle second ihf ihs =>
      have hletter : IsWord "m".toList := by decide
      have hm := isWord_numbered hletter b.subqueries
      exact routeClean_append (ihf ho hm middle _) (ihs hm hi label _)

/-! ### Chains -/

/-- What has been written of a chain reads as the members that it was made of.  The runs before the
last `OR` are the alternatives of the reader, the run after it is its current run. -/
def ChainReads (chain : Option Expr) (members : AtomTruth → List (Connective × Bool)) : Prop :=
  match chain with
  | none => ∀ truth, members truth = []
  | some e => e.Clean ∧ ∃ alternatives run, ReadsChain e.text.toList alternatives run ∧
      ∀ truth, ∃ closed current, runs (members truth) = closed ++ [current] ∧
        (alternatives.map (Formula.holds truth)).getD false = closed.any (·.all (·.2)) ∧
        run.holds truth = current.all (·.2)

lemma holds_disjoin (truth : AtomTruth) (alternatives : Option Formula) (run : Formula) :
    (Frame.disjoin alternatives run).holds truth =
      ((alternatives.map (Formula.holds truth)).getD false || run.holds truth) := by
  cases alternatives <;> simp [Frame.disjoin, Formula.holds]

lemma chainReads_none : ChainReads none fun _ => [] := fun _ => rfl

/-- A member that says something is added to a chain. -/
lemma ChainReads.extend {chain : Option Expr} {members : AtomTruth → List (Connective × Bool)}
    (h : ChainReads chain members) {e : Expr} {f : Formula} (he : ReadsExpr e f) (c : Connective) :
    ChainReads (extendChain chain c e) fun truth => members truth ++ [(c, f.holds truth)] := by
  cases chain with
  | none =>
      have hextend : extendChain none c e = some e := by
        cases e with
        | raw pieces => exact absurd he.clean (by simp [Expr.Clean])
        | _ => rfl
      rw [hextend]
      refine ⟨he.clean, none, f, he.reads.chain, fun truth => ⟨[], [(c, f.holds truth)], ?_⟩⟩
      simp only [h truth]
      exact ⟨rfl, rfl, by simp⟩
  | some before =>
      obtain ⟨hclean, alternatives, run, hreads, hruns⟩ := h
      cases c with
      | and =>
          refine ⟨⟨hclean, he.clean⟩, _, _, he.reads_join_and hreads, fun truth => ?_⟩
          obtain ⟨closed, current, hsplit, halts, hrun⟩ := hruns truth
          refine ⟨closed, _, runs_append_and hsplit _, halts, ?_⟩
          simp [Formula.holds, hrun]
      | or =>
          refine ⟨⟨hclean, he.clean⟩, _, _, he.reads_join_or hreads, fun truth => ?_⟩
          obtain ⟨closed, current, hsplit, halts, hrun⟩ := hruns truth
          refine ⟨closed ++ [current], [(.or, f.holds truth)], ?_, ?_, by simp⟩
          · rw [runs_append_or, hsplit]
          · simp [holds_disjoin, halts, hrun]

/-- A condition, if there is one, is written as it is meant. -/
def OptionReads (r : Option Expr) (value : AtomTruth → Option Bool) : Prop :=
  match r with
  | none => ∀ truth, value truth = none
  | some e => ∃ f, ReadsExpr e f ∧ ∀ truth, value truth = some (f.holds truth)

/-- The runs of a chain together have its truth. -/
lemma ChainReads.runs {e : Expr} {members : AtomTruth → List (Connective × Bool)}
    (h : ChainReads (some e) members) :
    ∃ alternatives run, ReadsChain e.text.toList alternatives run ∧
      ∀ truth, chainTruth (members truth) =
        some ((Frame.disjoin alternatives run).holds truth) := by
  obtain ⟨_, alternatives, run, hreads, hruns⟩ := h
  refine ⟨alternatives, run, hreads, fun truth => ?_⟩
  obtain ⟨closed, current, hsplit, halts, hrun⟩ := hruns truth
  have hne : (members truth).isEmpty = false := by
    cases hm : members truth with
    | nil => simp [hm, GraphMapper.runs] at hsplit
    | cons _ _ => rfl
  simp [chainTruth, hne, hsplit, holds_disjoin, halts, hrun]

/-- A chain in parentheses is one operand, with the truth of the chain. -/
lemma ChainReads.group {chain : Option Expr} {members : AtomTruth → List (Connective × Bool)}
    (h : ChainReads chain members) :
    OptionReads (chain.map .group) fun truth => chainTruth (members truth) := by
  cases chain with
  | none =>
      intro truth
      simp only [h truth]
      rfl
  | some e =>
      obtain ⟨alternatives, run, hreads, htruth⟩ := h.runs
      exact ⟨_, readsExpr_group h.1 hreads, htruth⟩

/-- A chain on its own reads as a formula with its truth, and as no condition if it says nothing. -/
lemma ChainReads.readText {chain : Option Expr} {members : AtomTruth → List (Connective × Bool)}
    (h : ChainReads chain members) :
    ∃ f : Option Formula, Cypher.readText ((chain.map Expr.text).getD "") = some f ∧
      ∀ truth, chainTruth (members truth) = f.map (Formula.holds truth) := by
  cases chain with
  | none =>
      refine ⟨none, by decide, fun truth => ?_⟩
      rw [h truth]
      rfl
  | some e =>
      obtain ⟨alternatives, run, hreads, htruth⟩ := h.runs
      exact ⟨_, hreads.readText, htruth⟩

/-- A member is written as it is meant, negated or not. -/
lemma OptionReads.written {r : Option Expr} {value : AtomTruth → Option Bool}
    (h : OptionReads r value) (condition : Condition) (negated : Bool) :
    OptionReads (r.map (condition.written negated)) fun truth =>
      (value truth).map fun v => if negated then !v else v := by
  cases r with
  | none =>
      intro truth
      simp only [h truth]
      rfl
  | some e =>
      obtain ⟨f, he, hf⟩ := h
      cases negated with
      | false => exact ⟨f, he, fun truth => by simp [hf truth]⟩
      | true =>
          refine ⟨.not f, ?_, fun truth => by simp [hf truth, Formula.holds]⟩
          cases condition with
          | group filter => exact he.not
          | _ => exact he.group.not

lemma ChainReads.continue {chain r : Option Expr}
    {members : AtomTruth → List (Connective × Bool)} (h : ChainReads chain members)
    {value : AtomTruth → Option Bool} (hr : OptionReads r value) (joiner : Option Connective) :
    ChainReads (continueChain chain joiner r) fun truth =>
      members truth ++ ((value truth).map fun v => (joiner.getD .and, v)).toList := by
  cases r with
  | none =>
      have hnone : ∀ truth, value truth = none := hr
      simpa [hnone, continueChain] using h
  | some e =>
      obtain ⟨f, he, hf⟩ := hr
      have := h.extend he (joiner.getD .and)
      simpa [hf, continueChain] using this

/-! ### Filters -/

lemma ChainReads.clean {chain : Option Expr} {members : AtomTruth → List (Connective × Bool)}
    (h : ChainReads chain members) {e : Expr} (he : chain = some e) : e.Clean := by
  subst he
  exact h.1

mutual

/-- A condition is written as it is meant. -/
theorem Condition.compile_reads {binder : String} (hw : IsWord binder.toList) :
    ∀ {condition : Condition}, condition.rawFree → ∀ {b after : Bindings} {r : Option Expr},
      (condition.compile binder).on b = (.ok r, after) →
      OptionReads r (fun truth => (condition.truth truth binder b).1) ∧
        ∀ truth, (condition.truth truth binder b).2 = after
  | .test column op operand, _, b, after, r, h => by
      obtain ⟨form, hform, rfl, rfl⟩ := Condition.compile_test_eq_ok.mp h
      have hp : (Property.ofColumn binder column).Clean := Cypher.isWord_ofColumn hw column
      obtain ⟨f, he, hf⟩ := form.reads hp b
      have htruth (truth : AtomTruth) :
          (Condition.test column op operand).truth truth binder b =
            (some (f.holds truth), (form.emit (Property.ofColumn binder column) b).2) := by
        rw [Condition.truth, testTruth_eq hform]
        change (some (form.truth truth _ b).1, (form.truth truth _ b).2) = _
        rw [hf truth]
      simp only [htruth]
      exact ⟨⟨f, he, fun _ => rfl⟩, fun _ => trivial⟩
  | .columns first op second, _, b, after, r, h => by
      obtain ⟨c, hop, rfl, rfl⟩ := Condition.compile_columns_eq_ok.mp h
      have hfirst : (Term.property (Property.ofColumn binder first)).Clean :=
        Cypher.isWord_ofColumn hw first
      have hsecond : (Term.property (Property.ofColumn binder second)).Clean :=
        Cypher.isWord_ofColumn hw second
      have htruth (truth : AtomTruth) :
          (Condition.columns first op second).truth truth binder after =
            (some (truth (Expr.test (.property (Property.ofColumn binder first)) (.compare c)
              (.property (Property.ofColumn binder second))).atom), after) := by
        rw [Condition.truth, hop]
        rfl
      simp only [htruth]
      exact ⟨⟨_, readsExpr_test (.compare c) hfirst hsecond, fun _ => rfl⟩, fun _ => trivial⟩
  | .group filter, hraw, b, after, r, h => by
      obtain ⟨chain, hchain, rfl⟩ := Condition.compile_group_eq_ok.mp h
      rw [Condition.rawFree] at hraw
      obtain ⟨hreads, hafter⟩ := compileChain_reads hw hraw chainReads_none hchain
      have htruth (truth : AtomTruth) : (Condition.group filter).truth truth binder b =
          (chainTruth (membersTruth truth binder filter b).1,
            (membersTruth truth binder filter b).2) := by
        rw [Condition.truth]
        rfl
      simp only [htruth]
      exact ⟨by simpa using hreads.group, hafter⟩
  | .raw _ _, hraw, _, _, _, _ => by simp [Condition.rawFree] at hraw
  | .related label correlation filter, hraw, b, after, r, h => by
      have htruth (truth : AtomTruth) :
          (Condition.related label correlation filter).truth truth binder b =
            (r.map fun e => truth e.atom, after) := by
        rw [Condition.truth]
        change (match ((Condition.compile binder (.related label correlation filter)).on b).1 with
          | .ok (some e) => pure (some (truth e.atom))
          | _ => pure none : StateM Bindings (Option Bool))
            ((Condition.compile binder (.related label correlation filter)).on b).2 = _
        rw [h]
        cases r <;> rfl
      obtain ⟨nested, rfl, hnested⟩ := Condition.compile_related_eq_ok.mp h
      have hi : IsWord (Compiling.fresh "s" b).1.toList :=
        isWord_numbered (by decide) b.subqueries
      rw [Condition.rawFree] at hraw
      have hchain := (compileChain_reads hi hraw chainReads_none hnested).1
      have hroute := routeClean_route hw hi label correlation (Compiling.fresh "s" b).2
      have hquery := routeClean_addCondition hroute fun _ he => hchain.clean he
      simp only [htruth]
      exact ⟨⟨_, ⟨hquery, Cypher.readsOperand_subquery hquery⟩, fun _ => rfl⟩, fun _ => trivial⟩

theorem Clause.compile_reads {binder : String} (hw : IsWord binder.toList) :
    ∀ {clause : Clause Condition}, clause.rawFree → ∀ {b after : Bindings} {r : Option Expr},
      (clause.compile binder).on b = (.ok r, after) →
      OptionReads r (fun truth => (clause.truth truth binder b).1) ∧
        ∀ truth, (clause.truth truth binder b).2 = after
  | ⟨joiner, negated, condition⟩, hraw, b, after, r, h => by
      rw [Clause.compile_eq] at h
      obtain ⟨said, hsaid, rfl⟩ := Compiling.on_map_eq_ok.mp h
      rw [Clause.rawFree] at hraw
      obtain ⟨hreads, hafter⟩ := Condition.compile_reads hw hraw hsaid
      have htruth (truth : AtomTruth) : Clause.truth truth binder ⟨joiner, negated, condition⟩ b =
          ((condition.truth truth binder b).1.map fun v => if negated then !v else v,
            (condition.truth truth binder b).2) := by
        rw [Clause.truth]
        rfl
      simp only [htruth]
      exact ⟨hreads.written condition negated, hafter⟩

/-- The rest of a chain is written as it is meant after what has been written of it. -/
theorem compileChain_reads {binder : String} (hw : IsWord binder.toList) :
    ∀ {rest : List (Clause Condition)}, membersRawFree rest → ∀ {index : ℕ} {chain : Option Expr}
      {seen : AtomTruth → List (Connective × Bool)}, ChainReads chain seen →
      ∀ {b after : Bindings} {r : Option Expr},
      (compileChain binder index chain rest).on b = (.ok r, after) →
      ChainReads r (fun truth => seen truth ++ (membersTruth truth binder rest b).1) ∧
        ∀ truth, (membersTruth truth binder rest b).2 = after
  | [], _, index, chain, seen, hseen, b, after, r, h => by
      rw [compileChain] at h
      obtain ⟨rfl, rfl⟩ : chain = r ∧ b = after := by simpa using h
      have htruth (truth : AtomTruth) : membersTruth truth binder [] b = ([], b) := by
        rw [membersTruth]
        rfl
      simpa [htruth] using hseen
  | clause :: rest, hraw, index, chain, seen, hseen, b, after, r, h => by
      rw [compileChain_cons] at h
      split_ifs at h
      · simp at h
      · obtain ⟨said, between, hsaid, hrest⟩ := Compiling.on_bind_eq_ok.mp h
        rw [membersRawFree, Bool.and_eq_true] at hraw
        obtain ⟨hreads, hbetween⟩ := Clause.compile_reads hw hraw.1 hsaid
        obtain ⟨hchain, hafter⟩ :=
          compileChain_reads hw hraw.2 (hseen.continue hreads clause.joiner) hrest
        simp only [membersTruth_cons, hbetween]
        exact ⟨by simpa using hchain, hafter⟩

end

/-- The truth of a filter that is not in doubt about the bindings after it. -/
lemma Filter.truth_eq {filter : Filter} {binder : String} {b after : Bindings}
    (h : ∀ truth, (membersTruth truth binder filter b).2 = after) (truth : AtomTruth) :
    filter.truth truth binder b = (chainTruth (membersTruth truth binder filter b).1, after) := by
  rw [← h truth]
  rfl

/-- **A filter is written as it is meant.**  Whatever the filter, once it is compiled its text reads
as a formula with the truth of the filter, and as no condition if the filter says nothing. -/
theorem Filter.compile_readText {filter : Filter} (hraw : membersRawFree filter) {binder : String}
    (hw : IsWord binder.toList) {b after : Bindings} {r : Option Expr}
    (h : (filter.compile binder).on b = (.ok r, after)) :
    ∃ f : Option Formula, Cypher.readText ((r.map Expr.text).getD "") = some f ∧
      ∀ truth, filter.truth truth binder b = (f.map (Formula.holds truth), after) := by
  obtain ⟨hreads, hafter⟩ := compileChain_reads hw hraw chainReads_none h
  obtain ⟨f, htext, htruth⟩ := hreads.readText
  refine ⟨f, htext, fun truth => ?_⟩
  rw [Filter.truth_eq hafter truth, ← htruth truth, List.nil_append]

/-- Of a group that says nothing, of a negated member and of another group only the last two are
left, joined by the joiner of the second. -/
theorem Filter.compile_readText_groups :
    ∃ f, Cypher.readText "NOT (n.a IN $p0) AND (n.b IS NULL)" = some f ∧
      ∀ truth, (Filter.truth truth [⟨none, false, .group []⟩,
          ⟨some .or, true, .oneOf "a" [.bool true]⟩,
          ⟨some .and, false, .group [⟨none, false, .missing "b"⟩]⟩] "n" {}).1 =
        f.map (Formula.holds truth) := by
  have hcompile : (Filter.compile [⟨none, false, .group []⟩,
      ⟨some .or, true, .oneOf "a" [.bool true]⟩,
      ⟨some .and, false, .group [⟨none, false, .missing "b"⟩]⟩] "n").on {} =
      (.ok (some (.join (.not (.group (.test (.property ⟨"n", "a"⟩) .among (.parameter "p0"))))
        .and (.group (.isNull ⟨"n", "b"⟩)))), { values := [.array [.bool true]] }) := by
    rfl
  obtain ⟨f, hf, htruth⟩ := Filter.compile_readText (by rfl) (by decide) hcompile
  refine ⟨f, ?_, fun truth => by rw [htruth truth]⟩
  rw [← hf]
  rfl

/-- The condition of a subquery is written as it is meant, about the variable that is given out for
the related node. -/
theorem Condition.compile_related_readText {label : String} {correlation : Correlation}
    {filter : Filter} (hraw : membersRawFree filter) {binder : String} {b after : Bindings}
    {r : Option Expr}
    (h : (Condition.compile binder (.related label correlation filter)).on b = (.ok r, after)) :
    let inner := Compiling.fresh "s" b
    let found := correlation.route binder inner.1 label inner.2
    ∃ nested f, r = some (.subquery (addCondition found.1 nested)) ∧
      Cypher.readText ((nested.map Expr.text).getD "") = some f ∧
      ∀ truth, filter.truth truth inner.1 found.2 = (f.map (Formula.holds truth), after) := by
  obtain ⟨nested, rfl, hnested⟩ := Condition.compile_related_eq_ok.mp h
  have hi : IsWord (Compiling.fresh "s" b).1.toList := isWord_numbered (by decide) b.subqueries
  obtain ⟨hreads, hafter⟩ := compileChain_reads hi hraw chainReads_none hnested
  obtain ⟨f, htext, htruth⟩ := hreads.readText
  refine ⟨nested, f, rfl, htext, fun truth => ?_⟩
  rw [Filter.truth_eq hafter truth, ← htruth truth, List.nil_append]

end GraphMapper
