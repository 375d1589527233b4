import GraphMapper.Proofs.Graph.Compiled
import GraphMapper.Proofs.Parameter.Calls
import GraphMapper.Proofs.Scope.Expression

/-!
The variables of subqueries do not collide.

* `Given`: variables given out while the count goes from one number to another, each of them once;
* `Way`: matches that lead to a node; `Way.addCondition`: with a condition about that node;
* `Leading`, `Correlation.route_leading`: the matches of a correlation introduce the related node last,
  and before it the nodes on the way;
* `Enclosed`, `Condition.compile_enclosed`, `compileChain_enclosed`: what a compiled condition
  introduces and speaks of, by induction over the filter;
* `Call.written`, `conditionsOf`: the conditions that calls on one set of bindings write;
* `Call.variables_apart` (**subquery variables never collide**): over all calls each variable is
  introduced once, and all others are in scope.
-/

namespace GraphMapper

open Cypher (Connective Expr Match Pattern Property Step Term Test conditionsIntroduce
  conditionsIntroduce_append conditionsScoped_iff patternsIntroduce routeIntroduces
  routeIntroduces_append routeScoped routeScoped_append stepsText)

/-! ### Variables given out -/

/-- The variable that is given out with a number: for a related node, or for one on the way to it. -/
def Numbered (k : ℕ) (name : String) : Prop :=
  name = subqueryName k ∨ name = middleName k

lemma Numbered.injective {k l : ℕ} {name : String} (h : Numbered k name) (h' : Numbered l name) :
    k = l := by
  rcases h with rfl | rfl <;> rcases h' with h' | h'
  · exact subqueryName_injective h'
  · exact absurd h' (subqueryName_ne_middleName k l)
  · exact absurd h'.symm (subqueryName_ne_middleName l k)
  · exact middleName_injective h'

lemma not_numbered {name : String} (h : isGenerated name = false) (k : ℕ) : ¬ Numbered k name := by
  rintro (rfl | rfl)
  · simp [isGenerated_subqueryName] at h
  · simp [isGenerated_middleName] at h

/-- Variables given out with numbers from `first` up to `last`, each of them once. -/
structure Given (first last : ℕ) (names : List String) : Prop where
  nodup : names.Nodup
  numbered : ∀ name ∈ names, ∃ k, first ≤ k ∧ k < last ∧ Numbered k name

namespace Given

variable {first mid last : ℕ} {names later : List String}

lemma nil : Given first last [] :=
  ⟨List.nodup_nil, by simp⟩

lemma single {name : String} (h : Numbered first name) : Given first (first + 1) [name] :=
  ⟨List.nodup_singleton name, by simpa using ⟨first, le_rfl, le_rfl, h⟩⟩

lemma mono (h : Given first last names) {first' last' : ℕ} (hle : first' ≤ first)
    (hle' : last ≤ last') : Given first' last' names := by
  refine ⟨h.nodup, fun name hname => ?_⟩
  obtain ⟨k, hk, hklast, hkname⟩ := h.numbered name hname
  exact ⟨k, hle.trans hk, hklast.trans_le hle', hkname⟩

/-- Variables given out one after the other: their numbers tell them apart. -/
lemma append (h : Given first mid names) (h' : Given mid last later) (hle : first ≤ mid)
    (hle' : mid ≤ last) : Given first last (names ++ later) := by
  constructor
  · refine List.nodup_append.mpr ⟨h.nodup, h'.nodup, ?_⟩
    rintro name hname _ hlater rfl
    obtain ⟨k, -, hk, hkname⟩ := h.numbered name hname
    obtain ⟨l, hl, -, hlname⟩ := h'.numbered name hlater
    have := hkname.injective hlname
    omega
  · exact List.forall_mem_append.mpr ⟨(h.mono le_rfl hle').numbered, (h'.mono hle le_rfl).numbered⟩

lemma perm (h : Given first last names) (hp : names.Perm later) : Given first last later :=
  ⟨hp.nodup_iff.mp h.nodup, fun name hname => h.numbered name (hp.mem_iff.mpr hname)⟩

end Given

lemma Adds.given (letter : String) (b : Bindings) :
    Adds b (liftM (Compiling.fresh letter)) fun name after =>
      name = letter ++ toString b.subqueries ∧ after.subqueries = b.subqueries + 1 := by
  refine ⟨(Adds.fresh letter).grows, fun name hname => ⟨?_, rfl⟩⟩
  simpa [Compiling.fresh_apply] using hname.symm

/-! ### Matches that lead to a related node -/

variable {byHand : Prop}

/-- Matches that lead from variables in scope to another one: the last of them introduces that
variable. -/
structure Way (byHand : Prop) (scope : List String) (inner : String) (route : List (Match Expr)) :
    Prop where
  arrives : ∃ front m, route = front ++ [m] ∧ m.pattern.target.binder = inner
  reaches : inner ∈ patternsIntroduce route
  inScope : routeScoped byHand scope route

namespace Way

variable {scope : List String} {middle inner : String} {before later route : List (Match Expr)}

/-- Two ways, the second of which starts where the first arrives. -/
lemma append (h : Way byHand scope middle before) (h' : Way byHand [middle] inner later) :
    Way byHand scope inner (before ++ later) := by
  obtain ⟨front, m, rfl, hm⟩ := h'.arrives
  refine ⟨⟨before ++ front, m, by rw [List.append_assoc], hm⟩, ?_,
    routeScoped_append.mpr ⟨h.inScope, h'.inScope.mono ?_⟩⟩
  · rw [patternsIntroduce, List.flatMap_append]
    exact List.mem_append_right _ h'.reaches
  · simpa using Or.inr h.reaches

/-- A condition about the node that is arrived at may be added. -/
lemma addCondition (h : Way byHand scope inner route) {nested : Option Expr}
    (hnested : ∀ e ∈ nested, e.Scoped byHand [inner] [inner]) :
    routeScoped byHand scope (addCondition route nested) := by
  cases nested with
  | none => exact h.inScope
  | some e =>
      obtain ⟨front, ⟨pattern, conditions⟩, rfl, hm⟩ := h.arrives
      have hadded : e.Scoped byHand [pattern.target.binder]
          (scope ++ patternsIntroduce front ++ pattern.introduces) := by
        refine (hnested e rfl).mono (by simp [hm]) ?_
        have hreaches := h.reaches
        simp only [patternsIntroduce, List.flatMap_append, List.flatMap_singleton] at hreaches
        simpa [patternsIntroduce] using Or.inr hreaches
      obtain ⟨hfront, hlast⟩ := routeScoped_append.mp h.inScope
      rw [routeScoped, conditionsScoped_iff] at hlast
      rw [Cypher.addCondition_concat]
      refine routeScoped_append.mpr ⟨hfront, ?_⟩
      rw [routeScoped, conditionsScoped_iff, List.forall_mem_append]
      exact ⟨hlast.1, ⟨hlast.2.1, by simpa [Expr.Scoped] using hadded⟩, trivial⟩

end Way

/-- A column without a variable of its own is a property of the node at hand. -/
lemma ofColumn_of_within_empty {column : String} (h : columnWithin ∅ column) (binder : String) :
    Property.ofColumn binder column = ⟨binder, column⟩ :=
  ofColumn_of_columnOwner_eq (h.resolve_right (Set.notMem_empty _)) binder

/-- Matches that lead from one variable to another by nodes whose variables have numbers in the given
range. -/
structure Leading (byHand : Prop) (outer inner : String) (first last : ℕ)
    (route : List (Match Expr)) : Prop extends Way byHand [outer] inner route where
  passes : ∃ middles, routeIntroduces route = middles ++ [inner] ∧ Given first last middles

/-- Two ways with a node between them, which is given out first. -/
lemma Leading.append {outer middle inner : String} {first start mid last : ℕ}
    {before later : List (Match Expr)} (h : Leading byHand outer middle start mid before)
    (h' : Leading byHand middle inner mid last later) (hmiddle : Numbered first middle)
    (hstart : start = first + 1) (hmid : start ≤ mid) (hlast : mid ≤ last) :
    Leading byHand outer inner first last (before ++ later) := by
  obtain ⟨early, hearly, hgiven⟩ := h.passes
  obtain ⟨late, hlate, hgiven'⟩ := h'.passes
  refine ⟨h.toWay.append h'.toWay, early ++ [middle] ++ late, ?_, ?_⟩
  · rw [routeIntroduces_append, hearly, hlate, ← List.append_assoc]
  · subst hstart
    have hwith : Given first mid (early ++ [middle]) :=
      ((Given.single hmiddle).append hgiven (Nat.le_succ _) hmid).perm List.perm_append_comm
    exact hwith.append hgiven' (by omega) hlast

variable (byHand) in
lemma Correlation.route_leading (outer inner label : String) (correlation : Correlation)
    (h : correlation.Within ∅) (b : Bindings) :
    Adds b (liftM (correlation.route outer inner label)) fun route after =>
      Leading byHand outer inner b.subqueries after.subqueries route := by
  induction correlation generalizing outer inner label b with
  | column outerColumn innerColumn =>
      refine .lift_pure ⟨⟨⟨[], _, rfl, rfl⟩, ?_, ?_⟩, [], rfl, .nil⟩
      · simp [patternsIntroduce, Pattern.introduces, Cypher.Node.introduces]
      · simp [routeScoped, conditionsScoped_iff, Expr.equals, Expr.Scoped, Term.uses, Pattern.uses,
          Pattern.introduces, Cypher.Node.uses, Cypher.Node.introduces, ofColumn_of_within_empty h.1,
          ofColumn_of_within_empty h.2]
  | edge edgeType direction =>
      refine .lift_pure ⟨⟨⟨[], _, rfl, rfl⟩, ?_, ?_⟩, [], rfl, .nil⟩
      · simp [patternsIntroduce, Pattern.introduces, Cypher.Node.introduces, Cypher.Edge.introduces]
      · simp [routeScoped, conditionsScoped_iff, Pattern.uses, Cypher.Node.uses]
  | through front middleLabel back ihf ihb =>
      -- the node between the two is numbered before those of either part
      refine (Adds.given "m" b).lift_bind fun middle mid _ hmiddle => ?_
      refine (ihf outer middle middleLabel h.1 mid).lift_bind fun before mid' hgrows hbefore => ?_
      refine (ihb middle inner label h.2 mid').lift_bind fun later after hgrows' hlater =>
        .lift_pure ?_
      obtain ⟨rfl, hmid⟩ := hmiddle
      exact hbefore.append hlater (.inr rfl) hmid hgrows.subqueries hgrows'.subqueries

/-! ### Conditions -/

/-- A condition about the node of a variable: its subqueries introduce variables with numbers in the
given range, and every other variable is in scope. -/
structure Enclosed (byHand : Prop) (binder : String) (first last : ℕ) (e : Expr) : Prop where
  given : Given first last e.introduces
  inScope : e.Scoped byHand [binder] [binder]

namespace Enclosed

variable {binder : String} {first mid last : ℕ} {e e' : Expr}

lemma of_nil (h : e.introduces = []) (hs : e.Scoped byHand [binder] [binder]) :
    Enclosed byHand binder first last e :=
  ⟨h ▸ .nil, hs⟩

lemma mono (h : Enclosed byHand binder first last e) {first' last' : ℕ} (hle : first' ≤ first)
    (hle' : last ≤ last') : Enclosed byHand binder first' last' e :=
  ⟨h.given.mono hle hle', h.inScope⟩

lemma not (h : Enclosed byHand binder first last e) : Enclosed byHand binder first last (.not e) :=
  ⟨by simpa only [Expr.introduces] using h.given, by simpa only [Expr.Scoped] using h.inScope⟩

lemma group (h : Enclosed byHand binder first last e) : Enclosed byHand binder first last (.group e) :=
  ⟨by simpa only [Expr.introduces] using h.given, by simpa only [Expr.Scoped] using h.inScope⟩

lemma join (h : Enclosed byHand binder first mid e) (h' : Enclosed byHand binder mid last e')
    (c : Connective) (hle : first ≤ mid) (hle' : mid ≤ last) :
    Enclosed byHand binder first last (.join e c e') := by
  refine ⟨?_, ?_⟩
  · rw [Expr.introduces]
    exact h.given.append h'.given hle hle'
  · rw [Expr.Scoped]
    exact ⟨h.inScope, h'.inScope⟩

lemma written (h : Enclosed byHand binder first last e) (condition : Condition) (negated : Bool) :
    Enclosed byHand binder first last (condition.written negated e) := by
  cases negated with
  | false => exact h
  | true => cases condition <;> first | exact h.group.not | exact h.not

lemma of_likeExpr (op : Operator) (name : String) (kind : Like.Shape.Kind) (parameter : String) :
    Enclosed byHand binder first last (likeExpr op ⟨binder, name⟩ kind parameter) := by
  have htest (anyCase : Bool) :
      Enclosed byHand binder first last (likeTest anyCase ⟨binder, name⟩ kind parameter) := by
    refine .of_nil ?_ ?_ <;> cases anyCase <;> cases kind <;>
      simp [likeTest, Expr.introduces, Expr.Scoped, Term.uses]
  rw [likeExpr]
  split_ifs
  · exact (htest _).group.not
  · exact htest _

/-- A condition that is added to the matches that lead to its node makes a subquery: the node comes
between those on the way to it and those that the condition introduces. -/
lemma subquery {outer inner : String} {start : ℕ} {route : List (Match Expr)} {nested : Option Expr}
    (hinner : Numbered first inner) (hstart : start = first + 1)
    (hroute : Leading byHand outer inner start mid route)
    (hnested : ∀ e ∈ nested, Enclosed byHand inner mid last e)
    (hmid : start ≤ mid) (hlast : mid ≤ last) :
    Enclosed byHand outer first last (.subquery (addCondition route nested)) := by
  obtain ⟨front, ⟨pattern, conditions⟩, rfl, hm⟩ := hroute.arrives
  obtain ⟨middles, hmiddles, hgiven⟩ := hroute.passes
  subst hstart
  have hwith : Given first mid (middles ++ [inner]) :=
    ((Given.single hinner).append hgiven (Nat.le_succ _) hmid).perm List.perm_append_comm
  constructor
  · rw [Expr.introduces]
    cases nested with
    | none =>
        rw [addCondition, hmiddles]
        exact hwith.mono le_rfl hlast
    | some e =>
        have hsplit : routeIntroduces (front ++ [⟨pattern, conditions ++ [.group e]⟩]) =
            routeIntroduces (front ++ [⟨pattern, conditions⟩]) ++ e.introduces := by
          simp [routeIntroduces_append, routeIntroduces, Match.introduces,
            conditionsIntroduce_append, conditionsIntroduce, Expr.introduces]
        rw [Cypher.addCondition_concat, hsplit, hmiddles]
        exact hwith.append (hnested e rfl).given (by omega) hlast
  · rw [Expr.Scoped]
    exact hroute.toWay.addCondition fun e he => (hnested e he).inScope

end Enclosed

/-! ### Filters -/

/-- A test introduces nothing, and speaks of its node. -/
lemma TestForm.emit_enclosed (binder column : String) (form : TestForm) (b : Bindings) :
    Adds b (liftM (form.emit ⟨binder, column⟩)) fun e _ =>
      ∀ first last, Enclosed byHand binder first last e := by
  cases form with
  | isNull => exact .lift_pure fun _ _ => .of_nil rfl (by simp [Expr.Scoped])
  | isNotNull => exact .lift_pure fun _ _ => .of_nil rfl (by simp [Expr.Scoped])
  | constant value => exact .lift_pure fun _ _ => .of_nil rfl (by simp [Expr.Scoped])
  | single negated t v =>
      refine (Adds.value v).lift_bind fun name _ _ _ => .lift_pure fun first last => ?_
      have htest : Enclosed byHand binder first last
          (.test (.property ⟨binder, column⟩) t (.parameter name)) :=
        .of_nil rfl (by simp [Expr.Scoped, Term.uses])
      cases negated
      · exact htest
      · exact htest.not
  | range lower low c upper high =>
      refine (Adds.value low).lift_bind fun name _ _ _ => ?_
      refine (Adds.value high).lift_bind fun name' _ _ _ => .lift_pure fun first last => ?_
      exact .of_nil rfl (by simp [Expr.Scoped, Term.uses])
  | pattern op text =>
      rw [TestForm.emit, compileLike_eq]
      exact (Adds.value _).lift_bind fun name _ _ _ => .lift_pure fun _ _ => .of_likeExpr op _ _ name

variable (byHand) in
lemma compileTest_enclosed {binder column : String} (h : columnWithin ∅ column) (op : Operator)
    (operand : Operand) (b : Bindings) :
    Adds b (compileTest binder column op operand) fun e _ =>
      ∀ first last, Enclosed byHand binder first last e := by
  rw [compileTest_eq, ofColumn_of_within_empty h]
  cases TestForm.of column op operand with
  | error e => exact .throw e
  | ok form => exact form.emit_enclosed binder column b

lemma compileRaw_enclosed (h : byHand) (binder text : String) (values : List Value) (b : Bindings) :
    Adds b (compileRaw text values) fun e _ => ∀ first last, Enclosed byHand binder first last e := by
  rw [compileRaw]
  exact (Raw.fill_adds text _ _ values b).bind fun pieces _ _ _ =>
    .pure fun _ _ => .of_nil rfl (by simpa only [Expr.Scoped] using h)

/-- What is written, if anything, introduces only variables with numbers in the range. -/
def OptionEnclosed (byHand : Prop) (binder : String) (first last : ℕ) (r : Option Expr) : Prop :=
  ∀ e ∈ r, Enclosed byHand binder first last e

/-- A chain is continued by what is numbered after it. -/
lemma OptionEnclosed.continued {binder : String} {first mid last : ℕ} {chain r : Option Expr}
    (h : OptionEnclosed byHand binder first mid chain) (h' : OptionEnclosed byHand binder mid last r)
    (joiner : Option Connective) (hle : first ≤ mid) (hle' : mid ≤ last) :
    OptionEnclosed byHand binder first last (continueChain chain joiner r) := by
  intro e he
  cases r with
  | none => exact (h e he).mono le_rfl hle'
  | some e' =>
      have hlater := h' e' rfl
      cases chain with
      | none =>
          rw [continueChain, extendChain.eq_def] at he
          split at he
          · simp at he
          · obtain rfl := Option.some.inj he
            exact hlater.mono hle le_rfl
          · rename_i heq
            cases heq
      | some before =>
          obtain rfl : Expr.join before (joiner.getD .and) e' = e := by
            simpa [continueChain, extendChain] using he
          exact (h before rfl).join hlater _ hle hle'

mutual

theorem Condition.compile_enclosed : ∀ (condition : Condition) (binder : String) (b : Bindings),
    condition.Within ∅ → byHand ∨ condition.rawFree →
    Adds b (condition.compile binder) fun r after =>
      OptionEnclosed byHand binder b.subqueries after.subqueries r
  | .test column op operand, binder, b, h, _ => by
      rw [Condition.Within] at h
      rw [Condition.compile]
      refine (compileTest_enclosed byHand h op operand b).bind fun e _ _ he => .pure ?_
      rintro _ ⟨⟩
      exact he _ _
  | .columns first op second, binder, b, h, _ => by
      rw [Condition.Within] at h
      rw [Condition.compile, ofColumn_of_within_empty h.1, ofColumn_of_within_empty h.2]
      cases op.comparison? with
      | none => exact .throw _
      | some c =>
          refine .pure ?_
          rintro _ ⟨⟩
          exact .of_nil rfl (by simp [Expr.Scoped, Term.uses])
  | .group filter, binder, b, h, hraw => by
      rw [Condition.Within] at h
      rw [Condition.rawFree] at hraw
      rw [Condition.compile]
      refine (compileChain_enclosed filter binder 0 none b h hraw).map _ fun r after hr e he => ?_
      obtain ⟨inside, hinside, rfl⟩ := Option.mem_map.mp he
      exact (hr b.subqueries le_rfl (by simp [OptionEnclosed]) inside hinside).group
  | .raw text values, binder, b, _, hraw => by
      have hbyHand : byHand := by simpa [Condition.rawFree] using hraw
      rw [Condition.compile]
      refine (compileRaw_enclosed hbyHand binder text values b).bind fun e _ _ he => .pure ?_
      rintro _ ⟨⟩
      exact he _ _
  | .related label correlation filter, binder, b, h, hraw => by
      rw [Condition.Within] at h
      rw [Condition.rawFree] at hraw
      rw [Condition.compile]
      refine (Adds.given "s" b).bind fun inner mid _ hinner => ?_
      have hroute := correlation.route_leading byHand binder inner label h.1 mid
      refine hroute.bind fun found mid' hgrows hfound => ?_
      refine (compileChain_enclosed filter inner 0 none mid' h.2 hraw).bind
        fun nested after hgrows' hnested => .pure ?_
      rintro _ ⟨⟩
      obtain ⟨rfl, hmid⟩ := hinner
      have hnested := hnested mid'.subqueries le_rfl (by simp [OptionEnclosed])
      exact .subquery (.inl rfl) hmid hfound hnested hgrows.subqueries hgrows'.subqueries

theorem Clause.compile_enclosed : ∀ (clause : Clause Condition) (binder : String) (b : Bindings),
    clause.Within ∅ → byHand ∨ clause.rawFree →
    Adds b (clause.compile binder) fun r after =>
      OptionEnclosed byHand binder b.subqueries after.subqueries r
  | ⟨joiner, negated, condition⟩, binder, b, h, hraw => by
      rw [Clause.Within] at h
      rw [Clause.rawFree] at hraw
      rw [Clause.compile_eq]
      refine (Condition.compile_enclosed condition binder b h hraw).map _ fun r after hr e he => ?_
      obtain ⟨inside, hinside, rfl⟩ := Option.mem_map.mp he
      exact (hr inside hinside).written condition negated

/-- The rest of a chain is numbered after the chain so far. -/
theorem compileChain_enclosed : ∀ (rest : List (Clause Condition)) (binder : String) (index : ℕ)
    (chain : Option Expr) (b : Bindings), membersWithin ∅ rest → byHand ∨ membersRawFree rest →
    Adds b (compileChain binder index chain rest) fun r after =>
      ∀ first ≤ b.subqueries, OptionEnclosed byHand binder first b.subqueries chain →
        OptionEnclosed byHand binder first after.subqueries r
  | [], binder, index, chain, b, _, _ => by
      rw [compileChain]
      exact .pure fun _ _ h => h
  | clause :: rest, binder, index, chain, b, h, hraw => by
      rw [membersWithin] at h
      rw [membersRawFree, Bool.and_eq_true] at hraw
      have hclause : byHand ∨ clause.rawFree := hraw.imp_right And.left
      have hrest : byHand ∨ membersRawFree rest := hraw.imp_right And.right
      rw [compileChain_cons]
      split_ifs
      · exact .throw _
      · refine (Clause.compile_enclosed clause binder b h.1 hclause).bind fun r mid hgrows hr => ?_
        refine (compileChain_enclosed rest binder (index + 1) _ mid h.2 hrest).mono
          fun r after _ hlater first hfirst hchain => ?_
        exact hlater first (hfirst.trans hgrows.subqueries)
          (hchain.continued hr clause.joiner hfirst hgrows.subqueries)

end

theorem Filter.compile_enclosed (filter : Filter) (binder : String) (b : Bindings)
    (h : membersWithin ∅ filter) (hraw : byHand ∨ membersRawFree filter) :
    Adds b (filter.compile binder) fun r after =>
      OptionEnclosed byHand binder b.subqueries after.subqueries r :=
  (compileChain_enclosed filter binder 0 none b h hraw).mono fun _ _ _ hr =>
    hr b.subqueries le_rfl (by simp [OptionEnclosed])

/-! ### Calls -/

lemma Compiling.on_map {α β : Type} (f : α → β) (x : Compiling α) (b : Bindings) :
    (f <$> x).on b = ((x.on b).1.map f, (x.on b).2) := by
  rw [map_eq_pure_bind, on_bind]
  rcases x.on b with ⟨e | a, after⟩ <;> rfl

namespace Call

/-- The conditions that a call compiles, and the variable that they are about. -/
def filter? : Call → Option (Filter × String)
  | .conditions filter binder | .whereClause filter binder => some (filter, binder)
  | .bind _ | .order _ _ => none

/-- What a call writes after the bindings: a condition with the variable that it is about, if it
succeeds and has something to say. -/
def written (c : Call) (b : Bindings) : Option (String × Expr) :=
  c.filter?.bind fun (filter, binder) =>
    (((filter.compile binder).on b).1.toOption.join).map fun e => (binder, e)

/-- The text that a call makes of its condition. -/
def said (c : Call) (r : Option Expr) : String :=
  match c with
  | .whereClause _ _ => stepsText (r.map Step.condition).toList
  | _ => (r.map Expr.text).getD ""

lemma compile_eq_said {c : Call} {filter : Filter} {binder : String}
    (h : c.filter? = some (filter, binder)) : c.compile = c.said <$> filter.compile binder := by
  cases c <;> simp only [filter?, Option.some.injEq, Prod.mk.injEq, reduceCtorEq] at h
  all_goals
    obtain ⟨rfl, rfl⟩ := h
    rw [map_eq_pure_bind]
    rfl

/-- The columns of the conditions of a call name no variable of their own, and the conditions are
about a variable that is not one of those given out. -/
def Outer (c : Call) : Prop :=
  ∀ filter binder, c.filter? = some (filter, binder) →
    membersWithin ∅ filter ∧ ∀ k, ¬ Numbered k binder

/-- What a call writes introduces variables with the numbers that are given out during it. -/
lemma written_enclosed {c : Call} (h : c.Outer) (b : Bindings) :
    b.Grows (c.compile.on b).2 ∧ ∀ w ∈ c.written b,
      Enclosed True w.1 b.subqueries (c.compile.on b).2.subqueries w.2 := by
  cases hc : c.filter? with
  | none =>
      refine ⟨?_, by simp [written, hc]⟩
      cases c with
      | bind v => exact Compiling.bind_grows v b
      | order orders binder => exact .refl b
      | conditions filter binder => simp [filter?] at hc
      | whereClause filter binder => simp [filter?] at hc
  | some pair =>
      obtain ⟨filter, binder⟩ := pair
      obtain ⟨hgrows, hresult⟩ := filter.compile_enclosed binder b (h filter binder hc).1 (.inl trivial)
      rw [compile_eq_said hc, Compiling.on_map, written, hc]
      refine ⟨hgrows, fun w hw => ?_⟩
      obtain ⟨e, he, rfl⟩ := Option.mem_map.mp hw
      cases hr : ((filter.compile binder).on b).1 with
      | error error => simp [hr, Except.toOption] at he
      | ok r =>
          obtain rfl : r = some e := by simpa [hr, Except.toOption] using he
          exact hresult _ hr e rfl

end Call

/-- What calls one after the other write, those that fail left out. -/
def conditionsOf : List Call → Bindings → List (String × Expr)
  | [], _ => []
  | c :: rest, b => (c.written b).toList ++ conditionsOf rest (c.compile.on b).2

/-- The numbers of the calls follow each other. -/
lemma conditionsOf_enclosed {calls : List Call} (h : ∀ c ∈ calls, c.Outer) (b : Bindings) :
    b.subqueries ≤ (runCalls calls b).subqueries ∧
      Given b.subqueries (runCalls calls b).subqueries
        ((conditionsOf calls b).flatMap fun w => w.2.introduces) ∧
      ∀ w ∈ conditionsOf calls b, w.2.Scoped True [w.1] [w.1] := by
  induction calls generalizing b with
  | nil => exact ⟨le_rfl, .nil, by simp [conditionsOf]⟩
  | cons c rest ih =>
      obtain ⟨hgrows, hwritten⟩ := Call.written_enclosed (h c (by simp)) b
      obtain ⟨hle, hgiven, hscoped⟩ := ih (fun other hm => h other (by simp [hm])) (c.compile.on b).2
      rw [conditionsOf, List.flatMap_append]
      refine ⟨hgrows.subqueries.trans hle, .append ?_ hgiven hgrows.subqueries hle,
        List.forall_mem_append.mpr ⟨fun w hw => ?_, hscoped⟩⟩
      · cases hw : c.written b with
        | none => exact .nil
        | some w => simpa using (hwritten w hw).given
      · exact (hwritten w (by simpa using hw)).inScope

/-- **Subquery variables never collide.**  Of calls one after the other, whichever of them fail, the
conditions introduce each variable once in all; each is a letter with a number that was given out, and
none of the variables that calls are about.  Everything else that they speak of is in scope: a
subquery speaks of its own node, of the nodes on the way to it and of the node that it is correlated
with.  Text that is written by hand is left to its author. -/
theorem Call.variables_apart {calls : List Call} (h : ∀ c ∈ calls, c.Outer) :
    ((conditionsOf calls {}).flatMap fun w => w.2.introduces).Nodup ∧
      ∀ w ∈ conditionsOf calls {}, w.2.Scoped True [w.1] [w.1] ∧
        ∀ name ∈ w.2.introduces, (∃ k, Numbered k name) ∧
          ∀ c ∈ calls, ∀ filter binder, c.filter? = some (filter, binder) → name ≠ binder := by
  obtain ⟨-, hgiven, hscoped⟩ := conditionsOf_enclosed h {}
  refine ⟨hgiven.nodup, fun w hw => ⟨hscoped w hw, fun name hname => ?_⟩⟩
  obtain ⟨k, -, -, hk⟩ := hgiven.numbered name (List.mem_flatMap.mpr ⟨w, hw, hname⟩)
  refine ⟨⟨k, hk⟩, ?_⟩
  rintro c hc filter binder hfilter rfl
  exact (h c hc filter name hfilter).2 k hk

/-- A call that fails for want of a value, after it has given out `s0`. -/
def failingCall : Call :=
  .conditions
    [⟨none, false, .related "Post" (.column "id" "user_id") [⟨none, false, .raw "?" []⟩]⟩] "n"

/-- A subquery over two hops with another one inside it. -/
def nestedCall : Call :=
  .whereClause
    [⟨none, false, .related "Role" (.through (.column "id" "user_id") "RoleUser"
        (.column "role_id" "id")) [⟨none, false, .related "Team" (.edge "OF" .outgoing) []⟩]⟩] "n"

/-- After a call that fails, the nodes of the two subqueries and the one on the way have variables of
their own. -/
theorem Call.variables_apart_nested :
    (conditionsOf [failingCall, nestedCall] {}).flatMap (fun w => w.2.introduces) =
      ["m2", "s1", "s3"] ∧ ["m2", "s1", "s3"].Nodup := by
  have heq : (conditionsOf [failingCall, nestedCall] {}).flatMap (fun w => w.2.introduces) =
      ["m2", "s1", "s3"] := by decide +kernel
  have hn : ∀ k, ¬ Numbered k "n" := not_numbered (by decide)
  have houter : ∀ c ∈ [failingCall, nestedCall], c.Outer := by
    have hwithin {column : String} (h : columnOwner column = "") : columnWithin ∅ column := .inl h
    simp only [List.forall_mem_cons]
    refine ⟨?_, ?_, by simp⟩
    · rintro filter binder ⟨⟩
      exact ⟨⟨⟨⟨hwithin (by decide), hwithin (by decide)⟩, trivial, trivial⟩, trivial⟩, hn⟩
    · rintro filter binder ⟨⟩
      refine ⟨⟨⟨⟨⟨hwithin (by decide), hwithin (by decide)⟩, hwithin (by decide), hwithin (by decide)⟩,
        ⟨trivial, trivial⟩, trivial⟩, trivial⟩, hn⟩
  refine ⟨heq, ?_⟩
  rw [← heq]
  exact (Call.variables_apart houter).1

/-- A subquery with a text in it that introduces `s0` itself. -/
def shadowingCall : Call :=
  .whereClause
    [⟨none, false, .related "Post" (.column "id" "user_id")
      [⟨none, false, .raw "EXISTS \x7b MATCH (s0:Comment) WHERE s0.hidden \x7d" []⟩]⟩] "n"

/-- The author of a text can take a name that is given out, so that the name is introduced twice: here
the inner `s0` is the post again, where a comment of its own was meant. -/
theorem Call.variables_shadowed :
    shadowingCall.Outer ∧ ∃ text, (shadowingCall.compile.on {}).1 = .ok text ∧
      text = "WHERE EXISTS \x7b MATCH (s0:Post) WHERE s0.user_id = n.id AND " ++
        "(EXISTS \x7b MATCH (s0:Comment) WHERE s0.hidden \x7d) \x7d" ∧
      (text.toList.tails.filter fun rest => "(s0:".toList.isPrefixOf rest).length = 2 := by
  refine ⟨?_, _, by decide +kernel, rfl, by decide +kernel⟩
  rintro filter binder ⟨⟩
  exact ⟨⟨⟨⟨.inl (by decide), .inl (by decide)⟩, trivial, trivial⟩, trivial⟩,
    not_numbered (by decide)⟩

end GraphMapper
