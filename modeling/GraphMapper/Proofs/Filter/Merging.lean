import GraphMapper.Proofs.Filter.Acceptance
import GraphMapper.Proofs.Reading.Filter

/-!
The merge of two filters is their conjunction.

* `LeafTruth`, `Filter.value`: the truth of a filter under an assignment of truth values to its
  leaves, the conditions that are no groups; a filter that says nothing is true;
* `membersAgree`, `Filter.WrittenAs`: the leaves as they are written, and what the text of a filter
  comes to once they are true as assigned; `Filter.written_value` finds its truth there;
* `Filter.value_and`, `Filter.value_merge`: one condition more, and one filter more;
* `Filter.accepted_merge`, `Filter.compile_isOk`: a merge can be written if both filters can;
* `Filter.SameMeaning`, `Filter.merge_conjunction` (**merge is conjunction**), with the laws of a
  conjunction.
-/

namespace GraphMapper

open Cypher (Connective Expr Formula IsWord)

/-! ### Leaves -/

/-- A truth value for each leaf of a filter: for each condition that is no group. -/
abbrev LeafTruth := Condition → Bool

section

variable (τ : LeafTruth)

mutual

/-- The truth of a condition, given that of the leaves; `none` if it says nothing. -/
def Condition.value : Condition → Option Bool
  | .test column op operand => some (τ (.test column op operand))
  | .columns first op second => some (τ (.columns first op second))
  | .group filter => chainTruth (membersValue filter)
  | .raw _ _ => none
  | .related label correlation filter => some (τ (.related label correlation filter))

def Clause.value : Clause Condition → Option Bool
  | ⟨_, negated, condition⟩ => condition.value.map fun v => if negated then !v else v

/-- The members of a filter that say something, each with its joiner. -/
def membersValue : List (Clause Condition) → List (Connective × Bool)
  | [] => []
  | clause :: rest =>
    (clause.value.map fun v => (clause.joiner.getD .and, v)).toList ++ membersValue rest

end

/-- The truth of a filter, given that of its leaves.  A filter that says nothing is true. -/
def Filter.value (filter : Filter) : Bool :=
  (chainTruth (membersValue τ filter)).getD true

variable (truth : AtomTruth) (binder : String)

/-- A leaf that is written after the bindings `b` has the truth that is assigned to it. -/
def Condition.LeafAgrees (leaf : Condition) (b : Bindings) : Prop :=
  (leaf.truth truth binder b).1 = some (τ leaf)

mutual

/-- The leaves of a condition that is written after the bindings `b` are true as assigned. -/
def Condition.Agrees : Condition → Bindings → Prop
  | .test column op operand, b =>
    (Condition.test column op operand).LeafAgrees τ truth binder b
  | .columns first op second, b =>
    (Condition.columns first op second).LeafAgrees τ truth binder b
  | .group filter, b => membersAgree filter b
  | .raw _ _, _ => True
  | .related label correlation filter, b =>
    (Condition.related label correlation filter).LeafAgrees τ truth binder b

def Clause.Agrees : Clause Condition → Bindings → Prop
  | ⟨_, _, condition⟩, b => condition.Agrees b

/-- The leaves of the members, each written after what the members before it bind, are true as
assigned. -/
def membersAgree : List (Clause Condition) → Bindings → Prop
  | [], _ => True
  | clause :: rest, b => clause.Agrees b ∧ membersAgree rest (clause.truth truth binder b).2

end

/-- Wherever the filter can be written, its text reads as a condition with the truth `v`, for all
atoms under which its leaves are true as assigned.  No condition at all counts as true. -/
def Filter.WrittenAs (filter : Filter) (v : Bool) : Prop :=
  ∀ {binder : String}, IsWord binder.toList → ∀ {b after : Bindings} {r : Option Expr},
    (filter.compile binder).on b = (.ok r, after) →
    ∃ f : Option Formula, Cypher.readText ((r.map Expr.text).getD "") = some f ∧
      ∀ truth : AtomTruth, membersAgree τ truth binder filter b →
        (f.map (Formula.holds truth)).getD true = v

end

variable {τ : LeafTruth} {truth : AtomTruth} {binder : String}

mutual

/-- A condition whose leaves are true as assigned has the truth that follows. -/
lemma Condition.truth_of_agrees : ∀ (condition : Condition) {b : Bindings},
    condition.Agrees τ truth binder b → (condition.truth truth binder b).1 = condition.value τ
  | .test _ _ _, _, h => h
  | .columns _ _ _, _, h => h
  | .group filter, b, h => by
      have hmembers := membersTruth_of_agree filter h
      rw [Condition.value, ← hmembers, Condition.truth]
      rfl
  | .raw _ _, _, _ => rfl
  | .related _ _ _, _, h => h

lemma Clause.truth_of_agrees : ∀ (clause : Clause Condition) {b : Bindings},
    clause.Agrees τ truth binder b → (clause.truth truth binder b).1 = clause.value τ
  | ⟨_, negated, condition⟩, b, h => by
      have hcondition := Condition.truth_of_agrees condition h
      rw [Clause.value, ← hcondition, Clause.truth]
      rfl

lemma membersTruth_of_agree : ∀ (filter : List (Clause Condition)) {b : Bindings},
    membersAgree τ truth binder filter b →
    (membersTruth truth binder filter b).1 = membersValue τ filter
  | [], _, _ => rfl
  | clause :: rest, b, h => by
      obtain ⟨hclause, hrest⟩ := h
      rw [membersTruth_cons, membersValue, Clause.truth_of_agrees clause hclause,
        membersTruth_of_agree rest hrest]

end

/-- The text of a filter has the truth of the filter. -/
theorem Filter.written_value {filter : Filter} (hraw : membersRawFree filter) (τ : LeafTruth) :
    filter.WrittenAs τ (filter.value τ) := by
  intro binder hw b after r h
  obtain ⟨hreads, -⟩ := compileChain_reads hw hraw chainReads_none h
  obtain ⟨f, hf, htruth⟩ := hreads.readText
  refine ⟨f, hf, fun truth hagree => ?_⟩
  have hmembers := membersTruth_of_agree filter hagree
  have htext : chainTruth (membersTruth truth binder filter b).1 = f.map (Formula.holds truth) := by
    rw [← htruth truth, List.nil_append]
  rw [Filter.value, ← hmembers, htext]

/-! ### Chains without alternatives -/

/-- Members joined by `AND` form one run. -/
lemma runs_of_and {members : List (Connective × Bool)} (hne : members ≠ [])
    (h : ∀ m ∈ members.tail, m.1 = .and) : runs members = [members] := by
  have hchain : members.IsChain fun _ next => decide (next.1 = Connective.and) = true := by
    cases members with
    | nil => exact .nil
    | cons first rest =>
        clear hne
        induction rest generalizing first with
        | nil => exact .singleton _
        | cons next later ih =>
            refine .cons_cons (by simpa using h next (by simp)) (ih next fun m hm => ?_)
            exact h m (List.mem_cons_of_mem _ hm)
  refine List.splitBy_eq_iff.mpr ⟨by simp, by simpa using hne.symm, ?_, by simp⟩
  intro run hrun
  rwa [List.mem_singleton.mp hrun]

/-- A chain without alternatives is true if all its members are. -/
lemma chainTruth_of_and {members : List (Connective × Bool)}
    (h : ∀ m ∈ members.tail, m.1 = .and) :
    (chainTruth members).getD true = members.all (·.2) := by
  cases members with
  | nil => rfl
  | cons first rest =>
      rw [chainTruth, runs_of_and (by simp) h]
      simp

namespace Filter

lemma membersValue_append (first second : Filter) :
    membersValue τ (first ++ second) = membersValue τ first ++ membersValue τ second := by
  induction first with
  | nil => rfl
  | cons clause rest ih =>
      rw [List.cons_append, membersValue, membersValue, ih, List.append_assoc]

lemma membersValue_joiner {filter : Filter} {c : Connective}
    (h : ∀ clause ∈ filter, clause.joiner.getD .and = c) :
    ∀ m ∈ membersValue τ filter, m.1 = c := by
  induction filter with
  | nil => simp [membersValue]
  | cons clause rest ih =>
      intro m hm
      rw [membersValue, List.mem_append] at hm
      rcases hm with hm | hm
      · have hclause : clause.joiner.getD .and = c := h clause List.mem_cons_self
        obtain ⟨v, -, rfl⟩ : ∃ v, clause.value τ = some v ∧ (clause.joiner.getD .and, v) = m := by
          simpa using hm
        exact hclause
      · exact ih (fun clause hclause => h clause (List.mem_cons_of_mem _ hclause)) m hm

/-- The members of a filter without alternatives that say something form a chain without
alternatives, also if its first member says nothing. -/
lemma membersValue_tail {filter : Filter} (h : filter.hasAlternatives = false) :
    ∀ m ∈ (membersValue τ filter).tail, m.1 = .and := by
  cases filter with
  | nil => simp [membersValue]
  | cons clause rest =>
      have hrest : ∀ m ∈ membersValue τ rest, m.1 = .and :=
        membersValue_joiner (joiner_of_hasAlternatives h)
      rw [membersValue]
      cases clause.value τ with
      | none => exact fun m hm => hrest m (List.mem_of_mem_tail hm)
      | some v => exact hrest

/-! ### Conjunctions -/

@[simp] lemma value_nil : Filter.value τ [] = true := rfl

/-- A group says what its filter says. -/
lemma value_group (filter : Filter) :
    Filter.value τ (Filter.and [] (.group filter)) = filter.value τ := by
  rw [Filter.and, List.nil_append, Filter.value, Filter.value, membersValue, membersValue,
    Clause.value, Condition.value]
  cases chainTruth (membersValue τ filter) with
  | none => rfl
  | some v =>
      have hone : (chainTruth [(Connective.and, v)]).getD true = _ := chainTruth_of_and (by simp)
      simpa using hone

/-- One condition more holds as well as a filter without alternatives. -/
lemma value_and {filter : Filter} (h : filter.hasAlternatives = false) (c : Condition) :
    (filter.and c).value τ = (filter.value τ && Filter.value τ (Filter.and [] c)) := by
  have hone : Filter.value τ (Filter.and [] c) =
      (membersValue τ [⟨some .and, false, c⟩]).all (·.2) :=
    chainTruth_of_and (membersValue_tail rfl)
  have hmore : (filter.and c).value τ = (membersValue τ (filter.and c)).all (·.2) :=
    chainTruth_of_and (membersValue_tail ((hasAlternatives_concat_and filter false c).trans h))
  rw [hone, hmore, Filter.and, membersValue_append, List.all_append]
  congr 1
  exact (chainTruth_of_and (membersValue_tail h)).symm

/-- One filter more: a merge is true if both filters are. -/
theorem value_merge (first second : Filter) (τ : LeafTruth) :
    (merge first second).value τ = (first.value τ && second.value τ) := by
  rw [merge]
  split_ifs with hsecond hfirst halternatives
  · rw [List.isEmpty_iff.mp hsecond, value_nil, Bool.and_true]
  · rw [List.isEmpty_iff.mp hfirst, value_nil, Bool.true_and]
  · rw [value_and rfl, value_group, value_group]
  · rw [value_and (by simpa using halternatives), value_group]

/-! ### Compilations -/

/-- A merge can be written if both filters can. -/
theorem accepted_merge (first second : Filter) :
    membersAccepted 0 (merge first second) =
      (membersAccepted 0 first && membersAccepted 0 second) := by
  have hgroup (filter : Filter) (index : ℕ) :
      membersAccepted index [⟨some .and, false, .group filter⟩] = membersAccepted 0 filter := by
    rw [accepted_singleton, Condition.accepted]
  rw [merge]
  split_ifs with hsecond hfirst halternatives
  · rw [List.isEmpty_iff.mp hsecond, membersAccepted, Bool.and_true]
  · rw [List.isEmpty_iff.mp hfirst, membersAccepted, Bool.true_and]
  · rw [Filter.and, Filter.and, List.nil_append, accepted_append, hgroup, hgroup]
  · rw [Filter.and, accepted_append, hgroup]

lemma compile_isOk (filter : Filter) (binder : String) (b : Bindings) :
    ((filter.compile binder).on b).1.isOk = membersAccepted 0 filter :=
  compileChain_decided filter binder 0 none b

/-! ### The laws of a conjunction -/

/-- Two filters that can be written in the same places, that are true under the same assignments,
and whose texts say so. -/
structure SameMeaning (first second : Filter) : Prop where
  compiles : ∀ binder b,
    ((first.compile binder).on b).1.isOk = ((second.compile binder).on b).1.isOk
  value : ∀ τ, first.value τ = second.value τ
  written : ∀ τ, first.WrittenAs τ (first.value τ) ∧ second.WrittenAs τ (second.value τ)

variable {first second : Filter}

lemma SameMeaning.of_rawFree (hfirst : membersRawFree first) (hsecond : membersRawFree second)
    (haccepted : membersAccepted 0 first = membersAccepted 0 second)
    (hvalue : ∀ τ, first.value τ = second.value τ) : SameMeaning first second where
  compiles binder b := by rw [compile_isOk, compile_isOk, haccepted]
  value := hvalue
  written τ := ⟨written_value hfirst τ, written_value hsecond τ⟩

lemma rawFree_merge (hfirst : membersRawFree first) (hsecond : membersRawFree second) :
    membersRawFree (merge first second) := by
  have hgroup {filter : Filter} (h : membersRawFree filter) (joiner : Option Connective) :
      membersRawFree [⟨joiner, false, .group filter⟩] := by
    simpa [membersRawFree, Clause.rawFree, Condition.rawFree] using h
  rw [merge]
  split_ifs
  · exact hfirst
  · exact hsecond
  · rw [Filter.and, Filter.and, List.nil_append, rawFree_append, hgroup hfirst, hgroup hsecond]
    rfl
  · rw [Filter.and, rawFree_append, hfirst, hgroup hsecond]
    rfl

lemma merge_nil (filter : Filter) : merge filter [] = filter := rfl

lemma nil_merge (filter : Filter) : merge [] filter = filter := by
  cases filter <;> rfl

lemma merge_assoc {third : Filter} (hfirst : membersRawFree first)
    (hsecond : membersRawFree second) (hthird : membersRawFree third) :
    SameMeaning (merge (merge first second) third) (merge first (merge second third)) := by
  refine .of_rawFree (rawFree_merge (rawFree_merge hfirst hsecond) hthird)
    (rawFree_merge hfirst (rawFree_merge hsecond hthird)) ?_ fun τ => ?_
  · simp only [accepted_merge, Bool.and_assoc]
  · simp only [value_merge, Bool.and_assoc]

lemma merge_comm (hfirst : membersRawFree first) (hsecond : membersRawFree second) :
    SameMeaning (merge first second) (merge second first) := by
  refine .of_rawFree (rawFree_merge hfirst hsecond) (rawFree_merge hsecond hfirst) ?_ fun τ => ?_
  · rw [accepted_merge, accepted_merge, Bool.and_comm]
  · rw [value_merge, value_merge, Bool.and_comm]

lemma merge_self (hfirst : membersRawFree first) : SameMeaning (merge first first) first := by
  refine .of_rawFree (rawFree_merge hfirst hfirst) hfirst ?_ fun τ => ?_
  · rw [accepted_merge, Bool.and_self]
  · rw [value_merge, Bool.and_self]

/-- **Merge is conjunction.**  A merge of two filters can be written just where both of them can,
and its text holds under an assignment of truth values to the leaves just if the texts of both of
them do.  So, up to meaning, merges may be regrouped and reordered, a filter merged with itself says
nothing more, and neither does a merge with the empty filter. -/
theorem merge_conjunction (hfirst : membersRawFree first) (hsecond : membersRawFree second) :
    (∀ binder b, (((merge first second).compile binder).on b).1.isOk =
        (((first.compile binder).on b).1.isOk && ((second.compile binder).on b).1.isOk)) ∧
      (∀ τ, first.WrittenAs τ (first.value τ) ∧ second.WrittenAs τ (second.value τ) ∧
        (merge first second).WrittenAs τ (first.value τ && second.value τ)) ∧
      (∀ third, membersRawFree third →
        SameMeaning (merge (merge first second) third) (merge first (merge second third))) ∧
      SameMeaning (merge first second) (merge second first) ∧
      SameMeaning (merge first first) first ∧
      merge first [] = first ∧ merge [] first = first := by
  refine ⟨fun binder b => ?_, fun τ => ⟨?_, ?_, ?_⟩, fun third hthird => ?_, ?_, ?_, ?_, ?_⟩
  · simp only [compile_isOk, accepted_merge]
  · exact written_value hfirst τ
  · exact written_value hsecond τ
  · rw [← value_merge]
    exact written_value (rawFree_merge hfirst hsecond) τ
  · exact merge_assoc hfirst hsecond hthird
  · exact merge_comm hfirst hsecond
  · exact merge_self hfirst
  · exact merge_nil first
  · exact nil_merge first

/-- The alternative of the first filter stays inside its parentheses: the merge does not hold, as
the second filter does not.  Both filters also have a group that says nothing. -/
theorem merge_conjunction_alternatives :
    ∃ f, Cypher.readText "(NOT (n.a IS NULL) OR n.b = $p0) AND (n.c = $p1)" = some (some f) ∧
      f.holds (fun atom => atom.head? = some (.word "n.b".toList)) = false := by
  let first : Filter := [⟨none, false, .group []⟩, ⟨some .and, true, .missing "a"⟩,
    ⟨some .or, false, .equals "b" (.int 1)⟩]
  let second : Filter := [⟨some .or, false, .equals "c" (.int 2)⟩, ⟨some .or, true, .group []⟩]
  let truth : AtomTruth := fun atom => atom.head? = some (.word "n.b".toList)
  let τ : LeafTruth := fun
    | .test "b" _ _ => true
    | _ => false
  have hwritten : (merge first second).WrittenAs τ (first.value τ && second.value τ) :=
    ((merge_conjunction (by rfl) (by rfl)).2.1 τ).2.2
  have hcompile : ((merge first second).compile "n").on {} =
      (.ok (some (.join (.group (.join (.not (.group (.isNull ⟨"n", "a"⟩))) .or
        (.test (.property ⟨"n", "b"⟩) (.compare .eq) (.parameter "p0")))) .and
        (.group (.test (.property ⟨"n", "c"⟩) (.compare .eq) (.parameter "p1"))))),
        { values := [.int 1, .int 2] }) := by
    rfl
  have ha : (Condition.missing "a").LeafAgrees τ truth "n" {} := by rfl
  have hb : (Condition.equals "b" (.int 1)).LeafAgrees τ truth "n" {} := by rfl
  have hc : (Condition.equals "c" (.int 2)).LeafAgrees τ truth "n" { values := [.int 1] } := by rfl
  have hagree : membersAgree τ truth "n" (merge first second) {} :=
    ⟨⟨trivial, ha, hb, trivial⟩, ⟨hc, trivial, trivial⟩, trivial⟩
  obtain ⟨f, hf, htruth⟩ := hwritten (by decide) hcompile
  have hholds : (f.map (Formula.holds truth)).getD true = false := htruth truth hagree
  cases f with
  | none => simp at hholds
  | some f => exact ⟨f, hf, hholds⟩

end Filter

end GraphMapper
