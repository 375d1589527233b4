import Mathlib.Data.Set.Basic
import GraphMapper.Proofs.Filter.Compiling
import GraphMapper.Proofs.Graph.Evaluation

/-!
What a filter says of a node, without any names that a compilation gives out.

* `columnValue`, `columnWithin`: what a column stands for, and which variables it may speak of;
* `TestForm.holds`: the truth of a test of a column;
* `Correlation.reached`: the nodes that hang together with a node;
* `Condition.meaning`, `membersMeaning`: the truth of conditions and of the members of a filter;
* `Filter.holds`, `Filter.holds_iff_of_and`: whether a filter is fulfilled; one without alternatives is
  if all its members are;
* `Condition.Within`, `membersWithin`: filters whose columns speak of the node at hand or of certain
  variables.
-/

namespace GraphMapper

open Cypher (Connective Direction Entity Env Graph Interpretation Property Test Truth)

/-! ### Columns -/

/-- A column is a property of whatever it is asked of, or of one variable that it names itself. -/
lemma ofColumn_cases (column : String) :
    (∀ binder, Property.ofColumn binder column = ⟨binder, column⟩) ∨
      ∃ p : Property, p.owner ≠ "" ∧ ∀ binder, Property.ofColumn binder column = p := by
  rcases hdrop : column.toList.dropWhile (· ≠ '.') with _ | ⟨_, _ | ⟨c, rest⟩⟩
  · exact .inl fun binder => by simp only [Property.ofColumn, hdrop]
  · exact .inl fun binder => by simp only [Property.ofColumn, hdrop]
  · by_cases hplain : Cypher.Identifier.isPlain (column.toList.takeWhile (· ≠ '.'))
    · refine .inr ⟨_, fun howner => ?_, fun binder => by
        simp only [Property.ofColumn, hdrop, if_pos hplain]; rfl⟩
      have hnil : column.toList.takeWhile (· ≠ '.') = [] := by
        simpa using congrArg String.toList howner
      rw [hnil] at hplain
      exact absurd hplain (by decide)
    · exact .inl fun binder => by simp only [Property.ofColumn, hdrop, if_neg hplain]

/-- The variable that a column names itself; empty if it names none. -/
def columnOwner (column : String) : String :=
  (Property.ofColumn "" column).owner

lemma ofColumn_of_columnOwner_eq {column : String} (h : columnOwner column = "")
    (binder : String) : Property.ofColumn binder column = ⟨binder, column⟩ := by
  rcases ofColumn_cases column with hall | ⟨p, hp, hall⟩
  · exact hall binder
  · rw [columnOwner, hall] at h
    exact absurd h hp

lemma ofColumn_of_columnOwner_ne {column : String} (h : columnOwner column ≠ "")
    (binder : String) : Property.ofColumn binder column = Property.ofColumn "" column := by
  rcases ofColumn_cases column with hall | ⟨p, hp, hall⟩
  · rw [columnOwner, hall] at h
    exact absurd rfl h
  · rw [hall, hall]

/-- A column speaks of the node at hand or of one of these variables. -/
def columnWithin (names : Set String) (column : String) : Prop :=
  columnOwner column = "" ∨ columnOwner column ∈ names

/-- The value of a column for the node at hand, in a row of variables. -/
def columnValue (g : Graph) (env : Env) (i : ℕ) (column : String) : Value :=
  if columnOwner column = "" then g.value i column
  else env.value g (Property.ofColumn "" column)

lemma columnValue_of_owner_eq {g : Graph} {env : Env} {i : ℕ} {column : String}
    (h : columnOwner column = "") : columnValue g env i column = g.value i column :=
  if_pos h

/-! ### Tests -/

/-- The truth of the test that a pattern of a kind comes to, before it is negated. -/
def likeTestHolds (I : Interpretation) (anyCase : Bool) (kind : Like.Shape.Kind) (v bound : Value) :
    Truth :=
  match kind with
  | .simple t => if anyCase then t.holds I (I.lowered v) (I.lowered bound) else t.holds I v bound
  | .regex => Test.matching.holds I v bound

/-- The truth of a pattern test of a value. -/
def likeHolds (I : Interpretation) (op : Operator) (v : Value) (text : String) : Truth :=
  let shape := Like.shape text.toList
  let anyCase : Bool := op = .likeAnyCase
  Truth.signed (op = .notLike)
    (likeTestHolds I anyCase shape.kind v (.string (String.ofList (shape.bound anyCase))))

/-- The truth of a test of a value. -/
def TestForm.holds (I : Interpretation) (v : Value) : TestForm → Truth
  | .isNull => .ofBool v.isNull
  | .isNotNull => .ofBool !v.isNull
  | .constant b => .ofBool b
  | .single negated t w => Truth.signed negated (t.holds I v w)
  | .range lower low c upper high =>
    Truth.chain [(.and, I.compare lower v low), (c, I.compare upper v high)]
  | .pattern op text => likeHolds I op v text

/-! ### Filters -/

section

variable (I : Interpretation) (g : Graph) (env : Env)

/-- The nodes of the label that hang together with a node, once for each way in which they do. -/
def Correlation.reached (label : String) : Correlation → ℕ → List ℕ
  | .column outer inner, i =>
    (g.labelled label).filter fun j =>
      I.compare .eq (columnValue g env j inner) (columnValue g env i outer) = .yes
  | .edge edgeType direction, i =>
    (g.labelled label).flatMap fun j => (g.between edgeType direction i j).map fun _ => j
  | .through first middle second, i =>
    (first.reached middle i).flatMap (second.reached label)

mutual

/-- The truth of a condition for a node; `none` if it says nothing. -/
def Condition.meaning : Condition → ℕ → Option Truth
  | .test column op operand, i =>
    match TestForm.of column op operand with
    | .error _ => none
    | .ok form => some (form.holds I (columnValue g env i column))
  | .columns first op second, i =>
    op.comparison?.map fun c =>
      I.compare c (columnValue g env i first) (columnValue g env i second)
  | .group filter, i =>
    if (membersMeaning filter i).isEmpty then none else some (Truth.chain (membersMeaning filter i))
  | .raw _ _, _ => none
  | .related label correlation filter, i =>
    some (.ofBool ((correlation.reached I g env label i).any fun j =>
      Truth.chain (membersMeaning filter j) = .yes))

def Clause.meaning : Clause Condition → ℕ → Option Truth
  | ⟨_, negated, condition⟩, i => (condition.meaning i).map (Truth.signed negated)

/-- The members of a filter that say something of a node, each with its joiner. -/
def membersMeaning : List (Clause Condition) → ℕ → Truth.Operands
  | [], _ => []
  | clause :: rest, i =>
    ((clause.meaning i).map fun t => (clause.joiner.getD .and, t)).toList ++ membersMeaning rest i

end

/-- Whether a node fulfils a filter. -/
def Filter.holds (filter : Filter) (i : ℕ) : Bool :=
  Truth.chain (membersMeaning I g env filter i) = .yes

end

/-! ### Which variables a filter speaks of -/

/-- The columns of a correlation speak of its own nodes or of these variables. -/
def Correlation.Within (names : Set String) : Correlation → Prop
  | .column outer inner => columnWithin names outer ∧ columnWithin names inner
  | .edge _ _ => True
  | .through first _ second => first.Within names ∧ second.Within names

mutual

/-- The columns of a condition speak of the node at hand or of these variables. -/
def Condition.Within (names : Set String) : Condition → Prop
  | .test column _ _ => columnWithin names column
  | .columns first _ second => columnWithin names first ∧ columnWithin names second
  | .group filter => membersWithin names filter
  | .raw _ _ => True
  | .related _ correlation filter => correlation.Within names ∧ membersWithin names filter

def Clause.Within (names : Set String) : Clause Condition → Prop
  | ⟨_, _, condition⟩ => condition.Within names

/-- The columns of all members of a filter do so. -/
def membersWithin (names : Set String) : List (Clause Condition) → Prop
  | [] => True
  | clause :: rest => clause.Within names ∧ membersWithin names rest

end

/-! ### Filters without alternatives -/

variable {I : Interpretation} {g : Graph} {env : Env}

lemma mem_membersMeaning {filter : List (Clause Condition)} {i : ℕ} {o : Connective × Truth} :
    o ∈ membersMeaning I g env filter i ↔
      ∃ clause ∈ filter, ∃ t ∈ clause.meaning I g env i, o = (clause.joiner.getD .and, t) := by
  induction filter with
  | nil => simp [membersMeaning]
  | cons clause rest ih =>
      rw [membersMeaning, List.mem_append, ih, List.exists_mem_cons_iff]
      refine or_congr_left ?_
      cases clause.meaning I g env i <;> simp

/-- A member on its own. -/
lemma Filter.holds_singleton (clause : Clause Condition) (i : ℕ) :
    Filter.holds I g env [clause] i = true ↔ ∀ t ∈ clause.meaning I g env i, t = .yes := by
  rw [Filter.holds, membersMeaning, membersMeaning, List.append_nil, decide_eq_true_iff]
  cases clause.meaning I g env i with
  | none => simp [Truth.chain]
  | some t => simp

/-- A group says what its members say, if they say anything. -/
lemma Filter.holds_group (joiner : Option Connective) (filter : Filter) (i : ℕ) :
    Filter.holds I g env [⟨joiner, false, .group filter⟩] i = Filter.holds I g env filter i := by
  rw [Bool.eq_iff_iff, Filter.holds_singleton, Clause.meaning, Condition.meaning, Filter.holds,
    decide_eq_true_iff]
  by_cases hempty : membersMeaning I g env filter i = []
  · simp [hempty, Truth.chain]
  · simp [hempty, Truth.signed]

/-- **Filters without alternatives**: such a filter is fulfilled if each of its members is. -/
theorem Filter.holds_iff_of_and {filter : Filter} (h : filter.hasAlternatives = false) (i : ℕ) :
    filter.holds I g env i = true ↔ ∀ clause ∈ filter, Filter.holds I g env [clause] i = true := by
  have hjoined := joiner_of_hasAlternatives h
  have htail : ∀ o ∈ (membersMeaning I g env filter i).tail, o.1 = .and := by
    cases filter with
    | nil => simp [membersMeaning]
    | cons clause rest =>
        have hrest : ∀ o ∈ membersMeaning I g env rest i, o.1 = .and := by
          intro o ho
          obtain ⟨clause, hclause, t, _, rfl⟩ := mem_membersMeaning.mp ho
          exact hjoined clause hclause
        rw [membersMeaning]
        cases clause.meaning I g env i with
        | none => exact fun o ho => hrest o (List.mem_of_mem_tail ho)
        | some t => exact hrest
  rw [Filter.holds, decide_eq_true_iff, Truth.chain_eq_yes_of_and htail]
  constructor
  · intro hall clause hclause
    rw [Filter.holds_singleton]
    exact fun t ht => hall _ (mem_membersMeaning.mpr ⟨clause, hclause, t, ht, rfl⟩)
  · rintro hall o ho
    obtain ⟨clause, hclause, t, ht, rfl⟩ := mem_membersMeaning.mp ho
    exact (Filter.holds_singleton clause i).mp (hall clause hclause) t ht

end GraphMapper
