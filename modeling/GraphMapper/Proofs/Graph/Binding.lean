import GraphMapper.Proofs.Filter.Compiling
import GraphMapper.Proofs.Graph.Evaluation
import GraphMapper.Proofs.Value.Fields

/-!
The values that a compiled condition stands on.

* `Bindings.Grows`: bindings that keep what was bound before;
* `Bindings.Supplies`: parameters among which are the values of bindings;
* `Adds`: a compilation only adds to the bindings, and its result is as stated about the bindings after
  it; `Adds.bind` puts two of them together;
* `Settled`: a condition that means the same whatever is bound later;
* `Condition.compile_adds`, `compileChain_adds`: the induction over the filter.
-/

namespace GraphMapper

open Cypher (Connective Env Expr Graph Interpretation Match Piece Property Term Test conditionsOperands
  parameterValue routeRows)

variable {α β : Type}

/-! ### Bindings -/

namespace Bindings

/-- What was bound and given out before is kept. -/
structure Grows (b after : Bindings) : Prop where
  values : b.values <+: after.values
  subqueries : b.subqueries ≤ after.subqueries

lemma Grows.refl (b : Bindings) : b.Grows b :=
  ⟨List.prefix_rfl, le_rfl⟩

lemma Grows.trans {b mid after : Bindings} (h : b.Grows mid) (h' : mid.Grows after) :
    b.Grows after :=
  ⟨h.values.trans h'.values, h.subqueries.trans h'.subqueries⟩

lemma Grows.getElem? {b after : Bindings} (h : b.Grows after) {k : ℕ} {v : Value}
    (hk : b.values[k]? = some v) : after.values[k]? = some v := by
  obtain ⟨later, hlater⟩ := h.values
  rw [← hlater, List.getElem?_append_left (List.getElem?_eq_some_iff.mp hk).1, hk]

/-- A name is that of the parameter of a value. -/
def Names (b : Bindings) (name : String) (v : Value) : Prop :=
  ∃ k, b.values[k]? = some v ∧ name = parameterName k

lemma Names.mono {b after : Bindings} (h : b.Grows after) {name : String} {v : Value}
    (hn : b.Names name v) : after.Names name v := by
  obtain ⟨k, hk, rfl⟩ := hn
  exact ⟨k, h.getElem? hk, rfl⟩

/-- Among the parameters are those of the values. -/
def Supplies (b : Bindings) (params : Row) : Prop :=
  ∀ k v, b.values[k]? = some v → Fields.get? params (parameterName k) = some v

lemma supplies_parameters (b : Bindings) : b.Supplies b.parameters := fun _ _ h =>
  get?_parameters h

lemma Supplies.mono {b after : Bindings} (h : b.Grows after) {params : Row}
    (hs : after.Supplies params) : b.Supplies params := fun k v hk =>
  hs k v (h.getElem? hk)

lemma Supplies.value {b : Bindings} {params : Row} (hs : b.Supplies params) {name : String}
    {v : Value} (hn : b.Names name v) : parameterValue params name = v := by
  obtain ⟨k, hk, rfl⟩ := hn
  rw [parameterValue, hs k v hk]
  rfl

end Bindings

lemma Compiling.bind_grows (v : Value) (b : Bindings) : b.Grows (Compiling.bind v b).2 :=
  ⟨List.prefix_append _ _, le_rfl⟩

/-! ### Compilations that add -/

/-- A compilation that keeps what was bound, and whose result, if there is one, is as `P` says of the
bindings after it. -/
structure Adds (b : Bindings) (x : Compiling α) (P : α → Bindings → Prop) : Prop where
  grows : b.Grows (x.on b).2
  result : ∀ a, (x.on b).1 = .ok a → P a (x.on b).2

namespace Adds

variable {b : Bindings} {x : Compiling α} {P : α → Bindings → Prop}

lemma of_eq_ok (h : Adds b x P) {a : α} {after : Bindings} (hx : x.on b = (.ok a, after)) :
    b.Grows after ∧ P a after := by
  obtain ⟨hgrows, hresult⟩ := h
  rw [hx] at hgrows hresult
  exact ⟨hgrows, hresult a rfl⟩

lemma pure {a : α} (h : P a b) : Adds b (pure a) P := by
  refine ⟨.refl b, fun r hr => ?_⟩
  obtain rfl : a = r := by simpa using hr
  exact h

lemma throw (e : CompileError) : Adds b (throw e) P :=
  ⟨.refl b, fun _ hr => by simp at hr⟩

lemma bind {Q : β → Bindings → Prop} {f : α → Compiling β} (hx : Adds b x P)
    (hf : ∀ a mid, b.Grows mid → P a mid → Adds mid (f a) Q) : Adds b (x >>= f) Q := by
  obtain ⟨hgrows, hresult⟩ := hx
  constructor
  · rw [Compiling.on_bind]
    generalize x.on b = r at hgrows hresult ⊢
    obtain ⟨e | a, mid⟩ := r
    · exact hgrows
    · exact hgrows.trans (hf a mid hgrows (hresult a rfl)).grows
  · intro r hr
    rw [Compiling.on_bind] at hr ⊢
    generalize x.on b = s at hgrows hresult hr ⊢
    obtain ⟨e | a, mid⟩ := s
    · simp at hr
    · exact (hf a mid hgrows (hresult a rfl)).result r hr

lemma map {Q : β → Bindings → Prop} (f : α → β) (hx : Adds b x P)
    (h : ∀ a after, P a after → Q (f a) after) : Adds b (f <$> x) Q := by
  rw [map_eq_pure_bind]
  exact hx.bind fun a mid _ ha => .pure (h a mid ha)

lemma mono {Q : α → Bindings → Prop} (hx : Adds b x P)
    (h : ∀ a after, b.Grows after → P a after → Q a after) : Adds b x Q :=
  ⟨hx.grows, fun a ha => h a _ hx.grows (hx.result a ha)⟩

/-- A computation that cannot fail, in two parts. -/
lemma lift_bind {P : α → Bindings → Prop} {Q : β → Bindings → Prop} {s : StateM Bindings α}
    {f : α → StateM Bindings β} (hs : Adds b (liftM s) P)
    (hf : ∀ a mid, b.Grows mid → P a mid → Adds mid (liftM (f a)) Q) :
    Adds b (liftM (s >>= f)) Q := by
  change Adds b (liftM s >>= fun a => liftM (f a)) Q
  exact hs.bind hf

lemma lift_pure {P : α → Bindings → Prop} {a : α} (h : P a b) :
    Adds b (liftM (Pure.pure a : StateM Bindings α)) P :=
  Adds.pure h

/-- Binding a value gives out the name of its parameter. -/
lemma value (v : Value) :
    Adds b (liftM (Compiling.bind v)) fun name after => after.Names name v := by
  refine ⟨Compiling.bind_grows v b, fun name hname => ?_⟩
  obtain rfl : Bindings.parameterName b.values.length = name := by
    simpa [Compiling.bind_value] using hname
  exact ⟨b.values.length, by simp [Compiling.bind_value], rfl⟩

lemma fresh (letter : String) :
    Adds b (liftM (Compiling.fresh letter)) fun _ _ => True :=
  ⟨⟨List.prefix_rfl, Nat.le_succ _⟩, fun _ _ => trivial⟩

end Adds

/-! ### Conditions whose meaning is settled -/

variable {I : Interpretation} {g : Graph}

/-- A condition means the same under all parameters that supply the values. -/
def Settled (I : Interpretation) (g : Graph) (b : Bindings) (e : Expr) : Prop :=
  ∀ ⦃params params' : Row⦄, b.Supplies params → b.Supplies params' → ∀ row : Env,
    e.operands I g params row = e.operands I g params' row

/-- The same of matches, as for the rows that they have. -/
def RouteSettled (I : Interpretation) (g : Graph) (b : Bindings) (route : List (Match Expr)) : Prop :=
  ∀ ⦃params params' : Row⦄, b.Supplies params → b.Supplies params' → ∀ row : Env,
    routeRows I g params route row = routeRows I g params' route row

namespace Settled

variable {b after : Bindings} {e e' : Expr}

lemma mono (he : Settled I g b e) (h : b.Grows after) : Settled I g after e :=
  fun _ _ hp hp' row => he (hp.mono h) (hp'.mono h) row

lemma of_test {p : Property} (t : Test) {name : String} {v : Value} (hn : b.Names name v) :
    Settled I g b (.test (.property p) t (.parameter name)) := fun params params' hp hp' row => by
  rw [Expr.operands, Expr.operands, Term.value, Term.value, Term.value, Term.value, hp.value hn,
    hp'.value hn]

lemma not (he : Settled I g b e) : Settled I g b (.not e) := fun params params' hp hp' row => by
  rw [Expr.operands, Expr.operands, he hp hp']

lemma group (he : Settled I g b e) : Settled I g b (.group e) := fun params params' hp hp' row => by
  rw [Expr.operands, Expr.operands, he hp hp']

lemma join (he : Settled I g b e) (he' : Settled I g b e') (c : Connective) :
    Settled I g b (.join e c e') := fun params params' hp hp' row => by
  rw [Expr.operands, Expr.operands, he hp hp', he' hp hp']

lemma of_likeExpr (op : Operator) (p : Property) (kind : Like.Shape.Kind) {name : String} {v : Value}
    (hn : b.Names name v) : Settled I g b (likeExpr op p kind name) := by
  have htest (anyCase : Bool) : Settled I g b (likeTest anyCase p kind name) := by
    intro params params' hp hp' row
    cases anyCase <;> cases kind <;>
      simp [likeTest, Expr.operands, Term.value, hp.value hn, hp'.value hn]
  rw [likeExpr]
  split_ifs
  · exact (htest _).group.not
  · exact htest _

/-- The rows of settled matches in which a settled condition is true are settled. -/
lemma addCondition {route : List (Match Expr)} (hne : route ≠ [])
    (htests : ∀ m ∈ route, m.TestsOnly) (hroute : RouteSettled I g b route) {r : Option Expr}
    (hr : ∀ e ∈ r, Settled I g b e) : RouteSettled I g b (addCondition route r) := by
  intro params params' hp hp' row
  rw [Cypher.routeRows_addCondition hne htests, Cypher.routeRows_addCondition hne htests,
    hroute hp hp']
  refine List.filter_congr fun row _ => ?_
  cases r with
  | none => rfl
  | some e => rw [Cypher.conditionTruth, Cypher.conditionTruth, Option.elim_some, Option.elim_some,
      Expr.truth, Expr.truth, hr e rfl hp hp']

end Settled

/-! ### Leaves -/

variable {b : Bindings}

lemma TestForm.emit_adds (p : Property) (form : TestForm) :
    Adds b (liftM (form.emit p)) fun e after => Settled I g after e := by
  cases form with
  | isNull => exact .lift_pure fun _ _ _ _ _ => rfl
  | isNotNull => exact .lift_pure fun _ _ _ _ _ => rfl
  | constant value => exact .lift_pure fun _ _ _ _ _ => rfl
  | single negated t v =>
      refine (Adds.value v).lift_bind fun name mid _ hname => .lift_pure ?_
      cases negated
      · exact .of_test t hname
      · exact (Settled.of_test t hname).not
  | range lower low c upper high =>
      refine (Adds.value low).lift_bind fun first mid _ hfirst => ?_
      refine (Adds.value high).lift_bind fun second after hgrows hsecond => .lift_pure ?_
      exact ((Settled.of_test _ (hfirst.mono hgrows)).join (.of_test _ hsecond) c).group
  | pattern op text =>
      rw [TestForm.emit, compileLike_eq]
      refine (Adds.value _).lift_bind fun name mid _ hname => .lift_pure ?_
      exact .of_likeExpr op p _ hname

lemma compileTest_adds (binder column : String) (op : Operator) (operand : Operand) :
    Adds b (compileTest binder column op operand) fun e after => Settled I g after e := by
  rw [compileTest_eq]
  cases TestForm.of column op operand with
  | error e => exact .throw e
  | ok form => exact form.emit_adds _

/-- The values at the marked places of a text written by hand are settled. -/
lemma Raw.fill_adds (text : String) (supplied : ℕ) (places : List (Option Char))
    (values : List Value) (b : Bindings) :
    Adds b (fill text supplied places values) fun pieces after =>
      ∀ ⦃params params' : Row⦄, after.Supplies params → after.Supplies params' →
        pieces.map (Piece.value params) = pieces.map (Piece.value params') := by
  induction places generalizing values b with
  | nil =>
      cases values with
      | nil => exact .pure fun _ _ _ _ => rfl
      | cons v rest => exact .throw _
  | cons place rest ih =>
      cases place with
      | some c =>
          rw [fill]
          refine (ih values b).bind fun pieces mid _ hp => .pure fun params params' h h' => ?_
          rw [List.map_cons, List.map_cons, hp h h']
          rfl
      | none =>
          cases values with
          | nil => exact .throw _
          | cons v values =>
              rw [fill]
              refine (Adds.value v).bind fun name mid _ hname => ?_
              refine (ih values mid).bind fun pieces after hgrows hp =>
                .pure fun params params' h h' => ?_
              rw [List.map_cons, List.map_cons, hp h h', Piece.value, Piece.value,
                h.value (hname.mono hgrows), h'.value (hname.mono hgrows)]

lemma compileRaw_adds (text : String) (values : List Value) :
    Adds b (compileRaw text values) fun e after => Settled I g after e := by
  rw [compileRaw]
  refine (Raw.fill_adds text _ _ values b).bind fun pieces mid _ hp =>
    .pure fun params params' h h' row => ?_
  rw [Expr.operands, Expr.operands, hp h h']

/-! ### Subqueries -/

/-- The matches that lead to a related node are tests of columns, and ask for no parameter. -/
lemma Correlation.route_adds (outer inner label : String) (correlation : Correlation) (b : Bindings) :
    Adds b (liftM (correlation.route outer inner label)) fun route after =>
      route ≠ [] ∧ (∀ m ∈ route, m.TestsOnly) ∧ RouteSettled I g after route := by
  induction correlation generalizing outer inner label b with
  | column outerColumn innerColumn =>
      refine .lift_pure ⟨by simp, ?_, fun _ _ _ _ row => rfl⟩
      simp [Cypher.Match.TestsOnly, Expr.equals]
  | edge edgeType direction =>
      refine .lift_pure ⟨by simp, ?_, fun _ _ _ _ row => rfl⟩
      simp [Cypher.Match.TestsOnly]
  | through first middleLabel second ihf ihs =>
      refine (Adds.fresh "m").lift_bind fun middle mid _ _ => ?_
      refine (ihf outer middle middleLabel mid).lift_bind fun before mid' _ hbefore => ?_
      refine (ihs middle inner label mid').lift_bind fun later after hgrows hlater => .lift_pure ?_
      obtain ⟨hne, htests, hbefore⟩ := hbefore
      obtain ⟨_, htests', hlater⟩ := hlater
      refine ⟨by simp [hne], List.forall_mem_append.mpr ⟨htests, htests'⟩,
        fun params params' h h' row => ?_⟩
      rw [Cypher.routeRows_append, Cypher.routeRows_append, hbefore (h.mono hgrows) (h'.mono hgrows)]
      exact List.flatMap_congr fun row _ => hlater h h' row

/-- What was bound before stays bound. -/
lemma Correlation.route_grows (correlation : Correlation) (outer inner label : String)
    (b : Bindings) : b.Grows (correlation.route outer inner label b).2 := by
  induction correlation generalizing outer inner label b with
  | column outerColumn innerColumn => exact .refl b
  | edge edgeType direction => exact .refl b
  | through first middleLabel second ihf ihs =>
      let fresh := Compiling.fresh "m" b
      have hfresh : b.Grows fresh.2 := ⟨List.prefix_rfl, Nat.le_succ _⟩
      exact hfresh.trans ((ihf outer fresh.1 middleLabel fresh.2).trans (ihs fresh.1 inner label _))

/-! ### Filters -/

/-- What is written, if anything, is settled. -/
def OptionSettled (I : Interpretation) (g : Graph) (r : Option Expr) (b : Bindings) : Prop :=
  ∀ e ∈ r, Settled I g b e

namespace OptionSettled

variable {r chain : Option Expr}

lemma none : OptionSettled I g none b := by
  simp [OptionSettled]

lemma some {e : Expr} (h : Settled I g b e) : OptionSettled I g (some e) b := by
  simpa [OptionSettled] using h

lemma written (h : OptionSettled I g r b) (condition : Condition) (negated : Bool) :
    OptionSettled I g (r.map (condition.written negated)) b := by
  cases r with
  | none => exact .none
  | some e =>
      have he := h e rfl
      cases negated with
      | false => exact .some he
      | true =>
          cases condition with
          | group filter => exact .some he.not
          | test column op operand => exact .some he.group.not
          | columns first op second => exact .some he.group.not
          | raw text values => exact .some he.group.not
          | related label correlation filter => exact .some he.group.not

lemma extended (hc : OptionSettled I g chain b) (hr : OptionSettled I g r b)
    (joiner : Option Connective) : OptionSettled I g (continueChain chain joiner r) b := by
  cases r with
  | none => exact hc
  | some e =>
      cases chain with
      | none =>
          rw [continueChain, extendChain.eq_def]
          split
          · exact .none
          · exact hr
          · rename_i heq
            cases heq
      | some before => exact .some ((hc before rfl).join (hr e rfl) _)

end OptionSettled

mutual

theorem Condition.compile_adds : ∀ (condition : Condition) (binder : String) (b : Bindings),
    Adds b (condition.compile binder) (OptionSettled I g)
  | .test column op operand, binder, b => by
      rw [Condition.compile]
      exact (compileTest_adds binder column op operand).bind fun e mid _ he => .pure (.some he)
  | .columns first op second, binder, b => by
      rw [Condition.compile]
      cases op.comparison? with
      | none => exact .throw _
      | some c => exact .pure (.some fun _ _ _ _ _ => rfl)
  | .group filter, binder, b => by
      rw [Condition.compile]
      refine (compileChain_adds filter binder 0 none b).map _ fun r after hr => ?_
      cases r with
      | none => exact .none
      | some e => exact .some (hr .none e rfl).group
  | .raw text values, binder, b => by
      rw [Condition.compile]
      exact (compileRaw_adds text values).bind fun e mid _ he => .pure (.some he)
  | .related label correlation filter, binder, b => by
      rw [Condition.compile]
      refine (Adds.fresh "s").bind fun inner mid _ _ => ?_
      have hadds := correlation.route_adds (I := I) (g := g) binder inner label mid
      refine hadds.bind fun found mid' _ hfound => ?_
      refine (compileChain_adds filter inner 0 none mid').bind fun nested after hgrows hnested =>
        .pure (.some fun params params' h h' row => ?_)
      obtain ⟨hne, htests, hfound⟩ := hfound
      have hroute : RouteSettled I g after found := fun _ _ h h' row =>
        hfound (h.mono hgrows) (h'.mono hgrows) row
      rw [Expr.operands, Expr.operands,
        Settled.addCondition hne htests hroute (hnested .none) h h' row]

theorem Clause.compile_adds : ∀ (clause : Clause Condition) (binder : String) (b : Bindings),
    Adds b (clause.compile binder) (OptionSettled I g)
  | ⟨joiner, negated, condition⟩, binder, b => by
      rw [Clause.compile_eq]
      exact (Condition.compile_adds condition binder b).map _ fun r after hr =>
        hr.written condition negated

/-- The rest of a chain is settled if the chain so far is. -/
theorem compileChain_adds : ∀ (rest : List (Clause Condition)) (binder : String) (index : ℕ)
    (chain : Option Expr) (b : Bindings),
      Adds b (compileChain binder index chain rest) fun r after =>
        OptionSettled I g chain b → OptionSettled I g r after
  | [], binder, index, chain, b => by
      rw [compileChain]
      exact .pure id
  | clause :: rest, binder, index, chain, b => by
      rw [compileChain_cons]
      split_ifs
      · exact .throw _
      · refine (Clause.compile_adds clause binder b).bind fun r mid hgrows hr => ?_
        refine (compileChain_adds rest binder (index + 1) _ mid).mono fun r after _ hrest hchain => ?_
        have hchain : OptionSettled I g chain mid := fun e he => (hchain e he).mono hgrows
        exact hrest (hchain.extended hr clause.joiner)

end

/-- A filter keeps what was bound before it, and what is written of it is settled by what is bound
after it. -/
theorem Filter.compile_adds (filter : Filter) (binder : String) (b : Bindings) :
    Adds b (filter.compile binder) (OptionSettled I g) :=
  (compileChain_adds filter binder 0 none b).mono fun _ _ _ h => h .none

end GraphMapper
