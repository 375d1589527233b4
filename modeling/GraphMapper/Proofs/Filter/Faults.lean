import GraphMapper.Proofs.Filter.Compiling
import GraphMapper.Proofs.Parameter.Marks

/-!
Filters that are well formed, and what is reported of the others.

* `membersClauses`: the clauses of a filter at every depth, each before those inside it, with their
  places in their chains;
* `Operator.Takes`, `Condition.Sound`, `Filter.WellFormed`: what a clause has to be like;
* `Condition.Fault`, `Clause.Fault`, `Filter.FirstFault`: what is reported of a clause, and of a
  filter;
* `Judged`: a compilation that fails for one reason or never, whatever is bound before it;
* `Condition.compile_judged`, `compileChain_judged`: the induction over the filter;
* `Filter.Fluent`: filters made by the calls that add to a filter;
* `Filter.compile_wellFormed` (**just the well-formed filters can be written**): of any other the
  first fault is reported.
-/

namespace GraphMapper

open Cypher (Comparison Connective)

variable {α β : Type}

/-! ### Clauses at every depth -/

mutual

/-- The clauses inside a condition: those of its group, or of its subquery. -/
def Condition.clauses : Condition → List (ℕ × Clause Condition)
  | .group filter | .related _ _ filter => membersClauses 0 filter
  | .test _ _ _ | .columns _ _ _ | .raw _ _ => []

def Clause.clauses : Clause Condition → List (ℕ × Clause Condition)
  | ⟨_, _, condition⟩ => condition.clauses

/-- The clauses of a chain and those inside them, each with its place in its own chain: from left to
right, a clause before what is inside it. -/
def membersClauses (index : ℕ) : List (Clause Condition) → List (ℕ × Clause Condition)
  | [] => []
  | clause :: rest => (index, clause) :: (clause.clauses ++ membersClauses (index + 1) rest)

end

/-- All clauses of a filter, in the order in which they are met. -/
def Filter.clauses (filter : Filter) : List (ℕ × Clause Condition) :=
  membersClauses 0 filter

/-! ### Well-formed filters -/

/-- An operator takes an operand. -/
inductive Operator.Takes : Operator → Operand → Prop where
  | equal (v : Value) : Takes (.compare .eq) (.value v)
  | unequal (v : Value) : Takes (.compare .ne) (.value v)
  | ordered {c : Comparison} {v : Value} (h : v ≠ .null) : Takes (.compare c) (.value v)
  | among (items : List Value) : Takes .among (.list items)
  | notAmong (items : List Value) : Takes .notAmong (.list items)
  | between (low high : Value) : Takes .between (.range low high)
  | notBetween (low high : Value) : Takes .notBetween (.range low high)
  | null (operand : Operand) : Takes .null operand
  | notNull (operand : Operand) : Takes .notNull operand
  | like (text : String) : Takes .like (.value (.string text))
  | notLike (text : String) : Takes .notLike (.value (.string text))
  | likeAnyCase (text : String) : Takes .likeAnyCase (.value (.string text))

/-- A condition that is in order, whatever is inside it. -/
def Condition.Sound : Condition → Prop
  | .test _ op operand => op.Takes operand
  | .columns _ op _ => ∃ c, op = .compare c
  | .raw text values => (Raw.marks text.toList).length = values.length
  | .group _ | .related _ _ _ => True

/-- A clause that is joined to the one before it, unless it is the first of its chain. -/
def Clause.Joined (index : ℕ) (clause : Clause Condition) : Prop :=
  index = 0 ∨ clause.joiner.isSome

/-- In every chain, at every depth, the clauses are joined and in order. -/
def Filter.WellFormed (filter : Filter) : Prop :=
  ∀ index clause, (index, clause) ∈ filter.clauses → clause.Joined index ∧ clause.condition.Sound

/-! ### Faults -/

/-- An operand of the shape that an operator works with. -/
def Operator.Shapes : Operator → Operand → Prop
  | .compare _, .value _ | .like, .value _ | .notLike, .value _ | .likeAnyCase, .value _ => True
  | .among, .list _ | .notAmong, .list _ => True
  | .between, .range _ _ | .notBetween, .range _ _ => True
  | .null, _ | .notNull, _ => True
  | _, _ => False

/-- What is reported of a condition, whatever is inside it. -/
inductive Condition.Fault : Condition → CompileError → Prop where
  | unknown (column symbol : String) (operand : Operand) :
    Fault (.test column (.unknown symbol) operand) (.unknownOperator symbol column)
  | nullOrder (column : String) {c : Comparison} (heq : c ≠ .eq) (hne : c ≠ .ne) :
    Fault (.test column (.compare c) (.value .null)) (.nullOrder column (.compare c))
  | patternNotText (column : String) {op : Operator} {v : Value}
    (hop : op ∈ [.like, .notLike, .likeAnyCase]) (hv : ∀ text, v ≠ .string text) :
    Fault (.test column op (.value v)) (.patternNotText column)
  | shape (column : String) {op : Operator} {operand : Operand}
    (hknown : ∀ symbol, op ≠ .unknown symbol) (h : ¬ op.Shapes operand) :
    Fault (.test column op operand) (.operandShape op column operand)
  | notComparison (first second : String) {op : Operator} (h : ∀ c, op ≠ .compare c) :
    Fault (.columns first op second) (.columnOperator op first second)
  | tooFew {text : String} {values : List Value}
    (h : values.length < (Raw.marks text.toList).length) :
    Fault (.raw text values) (.tooFewValues text values.length)
  | tooMany {text : String} {values : List Value}
    (h : (Raw.marks text.toList).length < values.length) :
    Fault (.raw text values)
      (.tooManyValues text (Raw.marks text.toList).length values.length)

/-- What is reported of a clause at a place of its chain: that it is not joined comes first. -/
inductive Clause.Fault (index : ℕ) (clause : Clause Condition) : CompileError → Prop where
  | unjoined (h : ¬ clause.Joined index) : Fault index clause (.unjoined index)
  | condition {e : CompileError} (h : clause.Joined index) (he : clause.condition.Fault e) :
    Fault index clause e

/-- The report of the first clause that has one. -/
def Filter.FirstFault (filter : Filter) (e : CompileError) : Prop :=
  ∃ before index clause after, filter.clauses = before ++ (index, clause) :: after ∧
    clause.Fault index e ∧
    ∀ earlier place, (place, earlier) ∈ before → ∀ e', ¬ earlier.Fault place e'

/-! ### Faults found -/

/-- The error of a result, if it is one. -/
def failure? {ε : Type} : Except ε α → Option ε
  | .ok _ => none
  | .error e => some e

/-- What is reported of a condition. -/
def Condition.fault? : Condition → Option CompileError
  | .test column op operand => failure? (TestForm.of column op operand)
  | .columns first op second =>
    if op.comparison?.isSome then none else some (.columnOperator op first second)
  | .raw text values =>
    let marks := (Raw.places none text.toList).count none
    if values.length < marks then some (.tooFewValues text values.length)
    else if marks < values.length then some (.tooManyValues text marks values.length)
    else none
  | .group _ | .related _ _ _ => none

/-- What is reported of a clause at a place of its chain. -/
def Clause.fault? (index : ℕ) (clause : Clause Condition) : Option CompileError :=
  if index ≠ 0 ∧ clause.joiner = none then some (.unjoined index) else clause.condition.fault?

/-- The first report about the clauses of a list. -/
def firstFault? (clauses : List (ℕ × Clause Condition)) : Option CompileError :=
  clauses.findSome? fun (index, clause) => clause.fault? index

lemma firstFault?_cons (index : ℕ) (clause : Clause Condition)
    (rest : List (ℕ × Clause Condition)) :
    firstFault? ((index, clause) :: rest) = (clause.fault? index).or (firstFault? rest) := by
  rw [firstFault?, List.findSome?_cons]
  dsimp only
  cases clause.fault? index <;> rfl

lemma firstFault?_append (first second : List (ℕ × Clause Condition)) :
    firstFault? (first ++ second) = (firstFault? first).or (firstFault? second) :=
  List.findSome?_append

/-- A test comes to something just if its operator takes its operand. -/
lemma TestForm.of_spec (column : String) (op : Operator) (operand : Operand) :
    match of column op operand with
    | .ok _ => op.Takes operand
    | .error e => (Condition.test column op operand).Fault e := by
  fun_cases of column op operand with
  | case1 _ symbol => exact .unknown column symbol _
  | case2 => exact .equal .null
  | case3 => exact .unequal .null
  | case4 c heq hne => exact .nullOrder column heq hne
  | case5 c v _ _ hv => exact .ordered hv
  | case6 => exact .among []
  | case7 => exact .notAmong []
  | case8 items => exact .among items
  | case9 items => exact .notAmong items
  | case10 low high => exact .between low high
  | case11 low high => exact .notBetween low high
  | case12 => exact .null operand
  | case13 => exact .notNull operand
  | case14 text => exact .like text
  | case15 text => exact .notLike text
  | case16 text => exact .likeAnyCase text
  | case17 v hv => exact .patternNotText column (by simp) hv
  | case18 v hv => exact .patternNotText column (by simp) hv
  | case19 v hv => exact .patternNotText column (by simp) hv
  | case20 _ _ hunknown =>
      refine .shape column hunknown fun hshapes => ?_
      cases op <;> cases operand <;> simp_all [Operator.Shapes]

lemma Condition.fault?_spec (condition : Condition) :
    match condition.fault? with
    | none => condition.Sound
    | some e => condition.Fault e := by
  cases condition with
  | test column op operand =>
      have hspec := TestForm.of_spec column op operand
      rw [fault?]
      cases hform : TestForm.of column op operand <;> rw [hform] at hspec <;> exact hspec
  | columns first op second =>
      cases op with
      | compare c => exact ⟨c, rfl⟩
      | _ => exact .notComparison first second (by simp)
  | raw text values =>
      rw [fault?, ← Raw.length_marks]
      split_ifs with hfew hmany
      · exact .tooFew hfew
      · exact .tooMany hmany
      · exact Nat.le_antisymm (not_lt.mp hfew) (not_lt.mp hmany)
  | group filter => trivial
  | related label correlation filter => trivial

/-- What an operator takes has the shape that it works with. -/
lemma Operator.Takes.shapes {op : Operator} {operand : Operand} (h : op.Takes operand) :
    op.Shapes operand := by
  cases h <;> trivial

lemma Condition.Fault.not_sound {condition : Condition} {e : CompileError} (h : condition.Fault e) :
    ¬ condition.Sound := by
  intro hsound
  cases h with
  | unknown => cases hsound
  | nullOrder column heq hne =>
      cases hsound with
      | equal => exact heq rfl
      | unequal => exact hne rfl
      | ordered hv => exact hv rfl
  | patternNotText column hop hv =>
      cases hsound with
      | like text => exact hv text rfl
      | notLike text => exact hv text rfl
      | likeAnyCase text => exact hv text rfl
      | _ => simp at hop
  | shape column hknown hshapes => exact hshapes hsound.shapes
  | notComparison first second hop =>
      obtain ⟨c, hc⟩ := hsound
      exact hop c hc
  | tooFew hfew => exact hfew.ne' hsound
  | tooMany hmany => exact hmany.ne hsound

/-- There is one report of a condition. -/
lemma Condition.Fault.unique {condition : Condition} {e e' : CompileError} (h : condition.Fault e)
    (h' : condition.Fault e') : e = e' := by
  cases h with
  | unknown column symbol operand =>
      cases h' with
      | unknown => rfl
      | patternNotText _ hop => simp at hop
      | shape _ hknown => exact absurd rfl (hknown symbol)
  | nullOrder column heq hne =>
      cases h' with
      | nullOrder => rfl
      | patternNotText _ hop => simp at hop
      | shape _ _ hshapes => exact absurd trivial hshapes
  | patternNotText column hop hv =>
      cases h' with
      | unknown => simp at hop
      | nullOrder => simp at hop
      | patternNotText => rfl
      | shape _ _ hshapes =>
          refine absurd ?_ hshapes
          simp only [List.mem_cons, List.not_mem_nil, or_false] at hop
          rcases hop with rfl | rfl | rfl <;> trivial
  | shape column hknown hshapes =>
      cases h' with
      | unknown _ symbol => exact absurd rfl (hknown symbol)
      | nullOrder => exact absurd trivial hshapes
      | patternNotText _ hop =>
          refine absurd ?_ hshapes
          simp only [List.mem_cons, List.not_mem_nil, or_false] at hop
          rcases hop with rfl | rfl | rfl <;> trivial
      | shape => rfl
  | notComparison => cases h'; rfl
  | tooFew hfew =>
      cases h' with
      | tooFew => rfl
      | tooMany hmany => exact absurd hfew hmany.not_gt
  | tooMany hmany =>
      cases h' with
      | tooFew hfew => exact absurd hfew hmany.not_gt
      | tooMany => rfl

lemma Clause.not_joined {index : ℕ} {clause : Clause Condition} :
    ¬ clause.Joined index ↔ index ≠ 0 ∧ clause.joiner = none := by
  rw [Joined, not_or, Option.not_isSome_iff_eq_none]

lemma Clause.fault?_spec (index : ℕ) (clause : Clause Condition) :
    match clause.fault? index with
    | none => clause.Joined index ∧ clause.condition.Sound
    | some e => clause.Fault index e := by
  rw [fault?]
  split_ifs with hunjoined
  · exact .unjoined (not_joined.mpr hunjoined)
  · have hjoined : clause.Joined index := not_not.mp fun h => hunjoined (not_joined.mp h)
    have hspec := clause.condition.fault?_spec
    cases hfault : clause.condition.fault? <;> rw [hfault] at hspec
    · exact ⟨hjoined, hspec⟩
    · exact .condition hjoined hspec

lemma Clause.fault?_eq_some {index : ℕ} {clause : Clause Condition} {e : CompileError} :
    clause.fault? index = some e ↔ clause.Fault index e := by
  have hspec := clause.fault?_spec index
  constructor
  · intro h
    rwa [h] at hspec
  · intro h
    cases hfault : clause.fault? index with
    | none =>
        rw [hfault] at hspec
        cases h with
        | unjoined hunjoined => exact absurd hspec.1 hunjoined
        | condition _ he => exact absurd hspec.2 he.not_sound
    | some e' =>
        rw [hfault] at hspec
        cases h with
        | unjoined hunjoined =>
            cases hspec with
            | unjoined => rfl
            | condition hjoined => exact absurd hjoined hunjoined
        | condition hjoined he =>
            cases hspec with
            | unjoined hunjoined => exact absurd hjoined hunjoined
            | condition _ he' => rw [he.unique he']

lemma Clause.fault?_eq_none {index : ℕ} {clause : Clause Condition} :
    clause.fault? index = none ↔ clause.Joined index ∧ clause.condition.Sound := by
  have hspec := clause.fault?_spec index
  constructor
  · intro h
    rwa [h] at hspec
  · rintro ⟨hjoined, hsound⟩
    rw [Option.eq_none_iff_forall_ne_some]
    intro e he
    cases fault?_eq_some.mp he with
    | unjoined hunjoined => exact hunjoined hjoined
    | condition _ he => exact he.not_sound hsound

namespace Filter

lemma firstFault?_eq_none {filter : Filter} :
    firstFault? filter.clauses = none ↔ filter.WellFormed := by
  rw [firstFault?, List.findSome?_eq_none_iff, WellFormed]
  constructor
  · exact fun h index clause hm => Clause.fault?_eq_none.mp (h (index, clause) hm)
  · rintro h ⟨index, clause⟩ hm
    exact Clause.fault?_eq_none.mpr (h index clause hm)

lemma firstFault?_eq_some {filter : Filter} {e : CompileError} :
    firstFault? filter.clauses = some e ↔ filter.FirstFault e := by
  have hnone {index : ℕ} {clause : Clause Condition} :
      clause.fault? index = none ↔ ∀ e', ¬ clause.Fault index e' := by
    rw [Option.eq_none_iff_forall_ne_some]
    exact forall_congr' fun e' => not_congr Clause.fault?_eq_some
  rw [firstFault?, List.findSome?_eq_some_iff, FirstFault]
  constructor
  · rintro ⟨before, ⟨index, clause⟩, after, hclauses, hfault, hbefore⟩
    refine ⟨before, index, clause, after, hclauses, Clause.fault?_eq_some.mp hfault, ?_⟩
    exact fun earlier place hm => hnone.mp (hbefore _ hm)
  · rintro ⟨before, index, clause, after, hclauses, hfault, hbefore⟩
    refine ⟨before, (index, clause), after, hclauses, Clause.fault?_eq_some.mpr hfault, ?_⟩
    exact fun earlier hm => hnone.mpr (hbefore earlier.2 earlier.1 hm)

end Filter

/-! ### Compilations that fail for one reason -/

/-- A compilation that fails for the given reason, or never if there is none, whatever is bound before
it. -/
def Judged (x : Compiling α) (fault : Option CompileError) : Prop :=
  ∀ b, failure? (x.on b).1 = fault

namespace Judged

lemma pure (a : α) : Judged (pure a) none := fun _ => rfl

lemma throw (e : CompileError) : Judged (throw e : Compiling α) (some e) := fun _ => rfl

lemma lift (s : StateM Bindings α) : Judged (liftM s) none := fun _ => rfl

/-- Of two parts the second is only come to if the first does not fail. -/
lemma bind {x : Compiling α} {f : α → Compiling β} {fault fault' : Option CompileError}
    (hx : Judged x fault) (hf : ∀ a, Judged (f a) fault') : Judged (x >>= f) (fault.or fault') := by
  intro b
  have hfault := hx b
  rw [Compiling.on_bind]
  generalize x.on b = r at hfault ⊢
  obtain ⟨e | a, after⟩ := r
  · rw [← hfault]
    rfl
  · rw [← hfault]
    exact hf a after

lemma bind_pure {x : Compiling α} {f : α → β} {fault : Option CompileError} (hx : Judged x fault) :
    Judged (x >>= fun a => Pure.pure (f a)) fault := by
  have h := hx.bind fun a => Judged.pure (f a)
  rwa [Option.or_none] at h

lemma lift_bind {s : StateM Bindings α} {f : α → Compiling β} {fault : Option CompileError}
    (hf : ∀ a, Judged (f a) fault) : Judged (liftM s >>= f) fault := by
  have h := (Judged.lift s).bind hf
  rwa [Option.none_or] at h

end Judged

lemma compileTest_judged (binder column : String) (op : Operator) (operand : Operand) :
    Judged (compileTest binder column op operand) (failure? (TestForm.of column op operand)) := by
  rw [compileTest_eq]
  cases TestForm.of column op operand with
  | error e => exact .throw e
  | ok form => exact .lift _

/-- Places are filled unless they are more or fewer than the values that are left; the report speaks of
all values and of the places filled so far. -/
lemma Raw.fill_judged (text : String) (supplied : ℕ) (places : List (Option Char))
    (values : List Value) :
    Judged (fill text supplied places values)
      (if values.length < places.count none then some (.tooFewValues text supplied)
        else if places.count none < values.length then
          some (.tooManyValues text (supplied - (values.length - places.count none)) supplied)
        else none) := by
  induction places generalizing values with
  | nil =>
      cases values with
      | nil => exact .pure _
      | cons v rest => exact .throw _
  | cons place rest ih =>
      cases place with
      | some c =>
          rw [fill, List.count_cons_of_ne (by simp)]
          exact (ih values).bind_pure
      | none =>
          cases values with
          | nil =>
              rw [fill, List.count_cons_self, if_pos (by simp)]
              exact .throw _
          | cons v values =>
              rw [fill, List.count_cons_self, List.length_cons]
              simp only [Nat.add_lt_add_iff_right, Nat.add_sub_add_right]
              exact .lift_bind fun name => (ih values).bind_pure

lemma compileRaw_judged (text : String) (values : List Value) :
    Judged (compileRaw text values) (Condition.raw text values).fault? := by
  rw [compileRaw, Condition.fault?]
  have hfill := Raw.fill_judged text values.length (Raw.places none text.toList) values
  have hused (h : (Raw.places none text.toList).count none < values.length) :
      values.length - (values.length - (Raw.places none text.toList).count none) =
        (Raw.places none text.toList).count none := by omega
  simp +contextual only [hused] at hfill
  exact hfill.bind_pure

mutual

theorem Condition.compile_judged : ∀ (condition : Condition) (binder : String),
    Judged (condition.compile binder) (condition.fault?.or (firstFault? condition.clauses))
  | .test column op operand, binder => by
      rw [Condition.compile, Condition.clauses, Condition.fault?, firstFault?, List.findSome?_nil,
        Option.or_none]
      exact (compileTest_judged binder column op operand).bind_pure
  | .columns first op second, binder => by
      rw [Condition.compile, Condition.clauses, Condition.fault?]
      cases op.comparison? with
      | none => exact .throw _
      | some c => exact .pure _
  | .group filter, binder => by
      rw [Condition.compile, Condition.clauses]
      exact (compileChain_judged filter binder 0 none).bind_pure
  | .raw text values, binder => by
      rw [Condition.compile, Condition.clauses, firstFault?, List.findSome?_nil, Option.or_none]
      exact (compileRaw_judged text values).bind_pure
  | .related label correlation filter, binder => by
      rw [Condition.compile, Condition.clauses]
      exact .lift_bind fun inner => .lift_bind fun found =>
        (compileChain_judged filter inner 0 none).bind_pure

theorem Clause.compile_judged : ∀ (clause : Clause Condition) (binder : String),
    Judged (clause.compile binder)
      (clause.condition.fault?.or (firstFault? clause.clauses))
  | ⟨joiner, negated, condition⟩, binder => by
      rw [Clause.compile_eq, Clause.clauses, map_eq_pure_bind]
      exact (Condition.compile_judged condition binder).bind_pure

/-- The rest of a chain fails for the first fault of its clauses. -/
theorem compileChain_judged : ∀ (rest : List (Clause Condition)) (binder : String) (index : ℕ)
    (chain : Option Cypher.Expr),
    Judged (compileChain binder index chain rest) (firstFault? (membersClauses index rest))
  | [], binder, index, chain => by
      rw [compileChain, membersClauses]
      exact .pure _
  | clause :: rest, binder, index, chain => by
      rw [compileChain_cons, membersClauses, firstFault?_cons, firstFault?_append, Clause.fault?]
      split_ifs with hunjoined
      · exact .throw _
      · rw [← Option.or_assoc]
        exact (Clause.compile_judged clause binder).bind fun r =>
          compileChain_judged rest binder (index + 1) _

end

/-- A statement is made unless its compilation fails. -/
lemma Judged.statement {x : Compiling (List Cypher.Step)} {fault : Option CompileError}
    (h : Judged x fault) (columns : List String) :
    failure? (Compiling.statement columns x) = fault := by
  have hfault := h {}
  rw [Compiling.statement, Compiling.start_eq]
  generalize x.on {} = r at hfault ⊢
  obtain ⟨e | steps, b⟩ := r <;> exact hfault

/-! ### Filters made by calls -/

/-- The filter inside a condition, if there is one. -/
def Condition.inner : Condition → Filter
  | .group filter | .related _ _ filter => filter
  | .test _ _ _ | .columns _ _ _ | .raw _ _ => []

namespace Filter

/-- Filters made by the calls that add a condition to a filter or merge two of them; the conditions have
such filters inside as well. -/
inductive Fluent : Filter → Prop where
  | empty : Fluent []
  | and {filter : Filter} {condition : Condition} (h : Fluent filter) (inner : Fluent condition.inner) :
    Fluent (filter.and condition)
  | or {filter : Filter} {condition : Condition} (h : Fluent filter) (inner : Fluent condition.inner) :
    Fluent (filter.or condition)
  | andNot {filter : Filter} {condition : Condition} (h : Fluent filter)
    (inner : Fluent condition.inner) : Fluent (filter.andNot condition)
  /-- Joiner and negation are given. -/
  | push {filter : Filter} {condition : Condition} (joiner : Connective) (negated : Bool)
    (h : Fluent filter) (inner : Fluent condition.inner) :
    Fluent (filter ++ [⟨some joiner, negated, condition⟩])
  | merge {first second : Filter} (h : Fluent first) (h' : Fluent second) :
    Fluent (merge first second)

/-- Every clause says how it is joined, at every depth. -/
def AllJoined (filter : Filter) : Prop :=
  ∀ index place clause, (place, clause) ∈ membersClauses index filter → clause.joiner.isSome

lemma clauses_append (index : ℕ) (first second : Filter) :
    membersClauses index (first ++ second) =
      membersClauses index first ++ membersClauses (index + first.length) second := by
  induction first generalizing index with
  | nil => rfl
  | cons clause rest ih =>
      rw [List.cons_append, membersClauses, membersClauses, ih, List.length_cons,
        show index + 1 + rest.length = index + (rest.length + 1) by omega, List.cons_append,
        List.append_assoc]

lemma AllJoined.push {filter : Filter} (h : filter.AllJoined) (joiner : Connective) (negated : Bool)
    (condition : Condition) (inner : AllJoined condition.inner) :
    AllJoined (filter ++ [⟨some joiner, negated, condition⟩]) := by
  have hinner : condition.clauses = membersClauses 0 condition.inner := by cases condition <;> rfl
  intro index place clause hm
  rw [clauses_append, List.mem_append] at hm
  rcases hm with hm | hm
  · exact h index place clause hm
  · simp only [membersClauses, Clause.clauses, hinner, List.append_nil, List.mem_cons,
      Prod.mk.injEq] at hm
    rcases hm with ⟨-, rfl⟩ | hm
    · rfl
    · exact inner 0 place clause hm

lemma allJoined_nil : AllJoined [] := fun _ _ _ hm => absurd hm List.not_mem_nil

lemma AllJoined.merge {first second : Filter} (h : first.AllJoined) (h' : second.AllJoined) :
    AllJoined (merge first second) := by
  rw [Filter.merge]
  split_ifs
  · exact h
  · exact h'
  · exact (allJoined_nil.push .and false (.group first) h).push .and false (.group second) h'
  · exact h.push .and false (.group second) h'

lemma Fluent.allJoined {filter : Filter} (h : filter.Fluent) : filter.AllJoined := by
  induction h with
  | empty => exact allJoined_nil
  | and _ _ ih inner => exact ih.push .and false _ inner
  | or _ _ ih inner => exact ih.push .or false _ inner
  | andNot _ _ ih inner => exact ih.push .and true _ inner
  | push joiner negated _ _ ih inner => exact ih.push joiner negated _ inner
  | merge _ _ ih ih' => exact ih.merge ih'

/-! ### Filters that can be written -/

lemma compile_judged (filter : Filter) (binder : String) :
    Judged (filter.compile binder) (firstFault? filter.clauses) :=
  compileChain_judged filter binder 0 none

lemma tailStatement_judged (filter : Filter) (orders : List OrderBy) (limit offset : Option ℕ) :
    failure? (tailStatement filter orders limit offset) = firstFault? filter.clauses :=
  ((compile_judged filter defaultVariable).bind_pure).statement []

lemma failure?_eq_none {ε : Type} {r : Except ε α} : failure? r = none ↔ ∃ a, r = .ok a := by
  cases r <;> simp [failure?]

lemma failure?_eq_some {ε : Type} {r : Except ε α} {e : ε} : failure? r = some e ↔ r = .error e := by
  cases r <;> simp [failure?]

/-- **Just the well-formed filters can be written**, alone or at the end of a statement, whatever is
bound before.  Of any other the fault of its first clause that has one is reported, from left to right
and each clause before what is inside it.  Filters made by calls have all their clauses joined. -/
theorem compile_wellFormed (filter : Filter) :
    (∀ binder b, (∃ r, ((filter.compile binder).on b).1 = .ok r) ↔ filter.WellFormed) ∧
      (∀ binder b e, ((filter.compile binder).on b).1 = .error e ↔ filter.FirstFault e) ∧
      (∀ orders limit offset,
        (∃ s, tailStatement filter orders limit offset = .ok s) ↔ filter.WellFormed) ∧
      (∀ orders limit offset e,
        tailStatement filter orders limit offset = .error e ↔ filter.FirstFault e) ∧
      (filter.Fluent →
        ∀ index clause, (index, clause) ∈ filter.clauses → clause.Joined index) := by
  refine ⟨fun binder b => ?_, fun binder b e => ?_, fun orders limit offset => ?_,
    fun orders limit offset e => ?_, fun h index clause hm => ?_⟩
  · rw [← failure?_eq_none, compile_judged filter binder b, firstFault?_eq_none]
  · rw [← failure?_eq_some, compile_judged filter binder b, firstFault?_eq_some]
  · rw [← failure?_eq_none, tailStatement_judged, firstFault?_eq_none]
  · rw [← failure?_eq_some, tailStatement_judged, firstFault?_eq_some]
  · exact .inr (h.allJoined 0 index clause hm)

end Filter

end GraphMapper
