import GraphMapper.Proofs.Graph.Binding
import GraphMapper.Proofs.Graph.Meaning
import GraphMapper.Proofs.Reading.Truth

/-!
What is written of a filter means what the filter says.

* `isGenerated`: the names that compilations give out;
* `Sees`: a row in which the node at hand has a variable, and no name is taken that is yet to be given
  out;
* `Correlation.route_rows`: the rows of the matches that lead to a related node are those of the nodes
  reached, one for one;
* `Condition.compile_meaning`, `compileChain_meaning`: the induction over the filter;
* `Filter.compile_truth`: a filter is true in a row just if the node at hand fulfils it.
-/

namespace GraphMapper

open Cypher (Connective Direction Entity Env Expr Graph Interpretation Match Property Term Truth
  conditionTruth conditionsOperands parameterValue routeRows)

/-- Two lists that correspond have an element with corresponding properties alike. -/
lemma any_eq_of_forall₂ {α β : Type} {R : α → β → Prop} {l : List α}
    {l' : List β} (h : List.Forall₂ R l l') {p : α → Bool} {q : β → Bool}
    (hpq : ∀ a b, R a b → p a = q b) : l.any p = !(l'.filter q).isEmpty := by
  induction h with
  | nil => rfl
  | @cons a b rest rest' hab _ ih =>
      rw [List.any_cons, List.filter_cons, ih, hpq a b hab]
      cases q b <;> simp

/-! ### Names -/

/-- The variable of the `k`-th subquery. -/
def subqueryName (k : ℕ) : String :=
  "s" ++ toString k

/-- The variable of a node between two others. -/
def middleName (k : ℕ) : String :=
  "m" ++ toString k

/-- Whether a name is one of those that are given out: a letter and a number. -/
def isGenerated (name : String) : Bool :=
  match name.toList with
  | c :: rest => (c = 's' || c = 'm') && rest.all Char.isDigit
  | [] => false

lemma isDigit_of_mem_toDigits (k : ℕ) : ∀ c ∈ Nat.toDigits 10 k, c.isDigit := fun _ hc =>
  Nat.isDigit_of_mem_toDigits (by decide) (by decide) hc

lemma isGenerated_subqueryName (k : ℕ) : isGenerated (subqueryName k) := by
  simpa [isGenerated, subqueryName] using isDigit_of_mem_toDigits k

lemma isGenerated_middleName (k : ℕ) : isGenerated (middleName k) := by
  simpa [isGenerated, middleName] using isDigit_of_mem_toDigits k

lemma subqueryName_injective : Function.Injective subqueryName :=
  (append_injective "s").comp toString_injective

lemma middleName_injective : Function.Injective middleName :=
  (append_injective "m").comp toString_injective

lemma subqueryName_ne_middleName (k l : ℕ) : subqueryName k ≠ middleName l := by
  intro h
  have := congrArg String.toList h
  simp [subqueryName, middleName] at this

/-! ### Rows -/

/-- A row in which `binder` stands for the node at hand and the variables that columns may name stand
for what they stand for in `env`; no name is taken that has a number from `count` on. -/
structure Sees (names : Set String) (env : Env) (binder : String) (i count : ℕ) (row : Env) :
    Prop where
  here : row binder = some (.node i)
  named : ∀ name ∈ names, row name = env name
  free : ∀ k, count ≤ k → row (subqueryName k) = none ∧ row (middleName k) = none

/-- A variable that was given out before number `count` and stands for nothing yet. -/
structure Pending (inner : String) (count : ℕ) (row : Env) : Prop where
  generated : isGenerated inner
  unbound : row inner = none
  given : ∀ k, count ≤ k → inner ≠ subqueryName k ∧ inner ≠ middleName k

/-- A row that was extended by a node, and by nodes on the way to it whose variables are numbered from
`count` up to `after`. -/
structure Leads (inner : String) (count after : ℕ) (row : Env) (j : ℕ) (row' : Env) : Prop where
  there : row' inner = some (.node j)
  other : ∀ name, name ≠ inner → (∀ k, count ≤ k → k < after → name ≠ middleName k) →
    row' name = row name

/-- A row in which one variable stands for a node. -/
def nodeRow (binder : String) (i : ℕ) : Env :=
  Env.empty.set binder (.node i)

section

variable {I : Interpretation} {g : Graph} {params : Row} {names : Set String} {env row row' : Env}
  {binder inner : String} {i j count after : ℕ}

/-- A row sees its node if no name that is given out is bound. -/
lemma sees_of_unbound (h : row binder = some (.node i)) (hnamed : ∀ name ∈ names, row name = env name)
    (hfree : ∀ name, isGenerated name → row name = none) : Sees names env binder i 0 row :=
  ⟨h, hnamed, fun k _ => ⟨hfree _ (isGenerated_subqueryName k), hfree _ (isGenerated_middleName k)⟩⟩

lemma sees_nodeRow (hbinder : isGenerated binder = false)
    (hnamed : ∀ name ∈ names, nodeRow binder i name = env name) :
    Sees names env binder i 0 (nodeRow binder i) := by
  refine sees_of_unbound (Env.set_self _ _ _) hnamed fun name hname => Env.set_of_ne ?_ _ _
  rintro rfl
  simp [hbinder] at hname

namespace Sees

lemma mono (h : Sees names env binder i count row) (hle : count ≤ after) :
    Sees names env binder i after row :=
  ⟨h.here, h.named, fun k hk => h.free k (hle.trans hk)⟩

lemma pending_subquery (h : Sees names env binder i count row) :
    Pending (subqueryName count) (count + 1) row where
  generated := isGenerated_subqueryName count
  unbound := (h.free count le_rfl).1
  given k hk := ⟨fun he => by have := subqueryName_injective he; omega,
    subqueryName_ne_middleName count k⟩

lemma pending_middle (h : Sees names env binder i count row) :
    Pending (middleName count) (count + 1) row where
  generated := isGenerated_middleName count
  unbound := (h.free count le_rfl).2
  given k hk := ⟨fun he => subqueryName_ne_middleName k count he.symm,
    fun he => by have := middleName_injective he; omega⟩

/-- The value of a column is that of the node at hand, or of a variable that stays what it is. -/
lemma value (h : Sees names env binder i count row) {column : String}
    (hc : columnWithin names column) :
    row.value g (Property.ofColumn binder column) = columnValue g env i column := by
  rw [columnValue]
  split_ifs with howner
  · rw [ofColumn_of_columnOwner_eq howner]
    exact Env.value_of_node h.here
  · have hnamed : row (Property.ofColumn "" column).owner = env (Property.ofColumn "" column).owner :=
      h.named _ (hc.resolve_left howner)
    rw [ofColumn_of_columnOwner_ne howner, Env.value, Env.value, hnamed]

/-- The names that columns may use are not among those that are given out. -/
lemma named_of_leads (hnames : ∀ name ∈ names, isGenerated name = false)
    (h : Sees names env binder i count row) (hp : Pending inner count row)
    (hl : Leads inner count after row j row') {name : String} (hname : name ∈ names) :
    row' name = env name := by
  have hgenerated := hnames name hname
  rw [hl.other name ?_ ?_, h.named name hname]
  · rintro rfl
    simp [hp.generated] at hgenerated
  · rintro k _ _ rfl
    simp [isGenerated_middleName] at hgenerated

lemma free_of_leads (h : Sees names env binder i count row) (hp : Pending inner count row)
    (hl : Leads inner count after row j row') (hle : count ≤ after) (k : ℕ) (hk : after ≤ k) :
    row' (subqueryName k) = none ∧ row' (middleName k) = none := by
  have hgiven := hp.given k (hle.trans hk)
  have hfree := h.free k (hle.trans hk)
  rw [hl.other _ hgiven.1.symm fun l _ _ => subqueryName_ne_middleName k l,
    hl.other _ hgiven.2.symm fun l _ hl he => by have := middleName_injective he; omega]
  exact hfree

/-- The row sees the node that it leads to. -/
lemma enter (hnames : ∀ name ∈ names, isGenerated name = false)
    (h : Sees names env binder i count row) (hp : Pending inner count row)
    (hl : Leads inner count after row j row') (hle : count ≤ after) :
    Sees names env inner j after row' :=
  ⟨hl.there, fun _ hname => h.named_of_leads hnames hp hl hname, h.free_of_leads hp hl hle⟩

/-- The row still sees the node that it comes from. -/
lemma stay (hnames : ∀ name ∈ names, isGenerated name = false)
    (h : Sees names env binder i count row) (hp : Pending inner count row)
    (hl : Leads inner count after row j row') (hle : count ≤ after) :
    Sees names env binder i after row' := by
  refine ⟨?_, fun _ hname => h.named_of_leads hnames hp hl hname, h.free_of_leads hp hl hle⟩
  rw [hl.other binder ?_ ?_, h.here]
  · rintro rfl
    simpa [h.here] using hp.unbound
  · rintro k hk _ rfl
    simpa [h.here] using (h.free k hk).2

end Sees

/-! ### Matches -/

/-- A row with a node more. -/
lemma Leads.set (inner : String) (count : ℕ) (row : Env) (j : ℕ) :
    Leads inner count count row j (row.set inner (.node j)) :=
  ⟨Env.set_self row inner _, fun _ hne _ => Env.set_of_ne hne row _⟩

/-- A node on the way, and then the node itself. -/
lemma Leads.trans {j' count' : ℕ} {row'' : Env}
    (hl : Leads (middleName count) (count + 1) count' row j row')
    (hl' : Leads inner count' after row' j' row'') (hlt : count < count') (hle : count' ≤ after) :
    Leads inner count after row j' row'' := by
  refine ⟨hl'.there, fun name hne hmiddle => ?_⟩
  rw [hl'.other name hne fun k hk hk' => hmiddle k (by omega) hk',
    hl.other name (hmiddle count le_rfl (by omega)) fun k hk hk' => hmiddle k (by omega) (by omega)]

/-- A variable that is still pending when another node was entered. -/
lemma Pending.of_leads {count' : ℕ} (hp : Pending inner count row)
    (hl : Leads (middleName count) (count + 1) count' row j row') (hle : count ≤ count') :
    Pending inner count' row' where
  generated := hp.generated
  unbound := by
    rw [hl.other inner (hp.given count le_rfl).2 fun k hk _ => (hp.given k (by omega)).2]
    exact hp.unbound
  given k hk := hp.given k (hle.trans hk)

/-- The rows of the matches that lead from the node at hand to a related one are those of the nodes
reached, one for one. -/
theorem Correlation.route_rows (hnames : ∀ name ∈ names, isGenerated name = false)
    {correlation : Correlation} (hwithin : correlation.Within names) {outer label : String}
    {b : Bindings} (h : Sees names env outer i b.subqueries row)
    (hp : Pending inner b.subqueries row) :
    List.Forall₂ (Leads inner b.subqueries (correlation.route outer inner label b).2.subqueries row)
      (correlation.reached I g env label i)
      (routeRows I g params (correlation.route outer inner label b).1 row) := by
  induction correlation generalizing outer inner label b i row with
  | column outerColumn innerColumn =>
      have hroute : Correlation.route outer inner label (.column outerColumn innerColumn) b =
          ([⟨.node ⟨inner, some label⟩, [.equals (Property.ofColumn inner innerColumn)
            (.property (Property.ofColumn outer outerColumn))]⟩], b) := rfl
      rw [hroute, Cypher.routeRows_singleton, Cypher.Match.rows_node hp.unbound,
        List.forall₂_map_right_iff, Correlation.reached]
      have hsame : ∀ j, Truth.chain (conditionsOperands I g params
          [.equals (Property.ofColumn inner innerColumn)
            (.property (Property.ofColumn outer outerColumn))] (row.set inner (.node j))) =
          I.compare .eq (columnValue g env j innerColumn) (columnValue g env i outerColumn) := by
        intro j
        have hl := Leads.set inner b.subqueries row j
        rw [Cypher.chain_conditionsOperands_equals,
          (h.enter hnames hp hl le_rfl).value hwithin.2, Cypher.Term.value,
          (h.stay hnames hp hl le_rfl).value hwithin.1]
      simp only [hsame]
      exact List.forall₂_same.mpr fun j _ => Leads.set inner _ row j
  | edge edgeType direction =>
      have hroute : Correlation.route outer inner label (.edge edgeType direction) b =
          ([⟨.path ⟨outer, none⟩ ⟨"", edgeType, direction⟩ ⟨inner, some label⟩, []⟩], b) := rfl
      rw [hroute, Cypher.routeRows_singleton, Cypher.Match.rows_path h.here hp.unbound,
        Correlation.reached]
      have hmap : ((g.labelled label).flatMap fun j => (g.between edgeType direction i j).flatMap
            fun e => Cypher.Edge.meets ⟨"", edgeType, direction⟩ e (row.set inner (.node j))) =
          ((g.labelled label).flatMap fun j => (g.between edgeType direction i j).map
            fun _ => j).map fun j => row.set inner (.node j) := by
        rw [List.map_flatMap]
        refine List.flatMap_congr fun j _ => ?_
        rw [List.map_map]
        exact List.flatMap_pure_eq_map _ _
      rw [hmap, List.forall₂_map_right_iff]
      exact List.forall₂_same.mpr fun j _ => Leads.set inner _ row j
  | through first middleLabel second ihf ihs =>
      obtain ⟨hfirst, hsecond⟩ := hwithin
      -- the node between is numbered first, then come the matches up to it and those after it
      let b₁ : Bindings := { b with subqueries := b.subqueries + 1 }
      let b₂ := (first.route outer (middleName b.subqueries) middleLabel b₁).2
      have hroute : Correlation.route outer inner label (.through first middleLabel second) b =
          ((first.route outer (middleName b.subqueries) middleLabel b₁).1 ++
            (second.route (middleName b.subqueries) inner label b₂).1,
            (second.route (middleName b.subqueries) inner label b₂).2) := rfl
      have hgrows₁ : b.subqueries + 1 ≤ b₂.subqueries := (first.route_grows _ _ _ b₁).subqueries
      have hgrows₂ := (second.route_grows (middleName b.subqueries) inner label b₂).subqueries
      rw [hroute, Cypher.routeRows_append, Correlation.reached]
      refine List.rel_flatMap (ihf hfirst (h.mono (Nat.le_succ _)) h.pending_middle) ?_
      intro j row' hl
      have hsees := (h.mono (Nat.le_succ _)).enter hnames h.pending_middle hl hgrows₁
      have hpending := hp.of_leads hl ((Nat.le_succ _).trans hgrows₁)
      refine (ihs hsecond hsees hpending).imp fun j' row'' hl' => ?_
      exact hl.trans hl' (Nat.lt_of_succ_le hgrows₁) hgrows₂

/-- The matches of a subquery lead to rows that see the nodes reached. -/
lemma Correlation.subquery_sees (hnames : ∀ name ∈ names, isGenerated name = false)
    {correlation : Correlation} (hwithin : correlation.Within names) (label : String)
    (h : Sees names env binder i count row) {b : Bindings} (hb : b.subqueries = count + 1) :
    List.Forall₂
      (fun j row' => Sees names env (subqueryName count) j
        (correlation.route binder (subqueryName count) label b).2.subqueries row')
      (correlation.reached I g env label i)
      (routeRows I g params (correlation.route binder (subqueryName count) label b).1 row) := by
  have hsees : Sees names env binder i b.subqueries row := h.mono (by omega)
  have hpending : Pending (subqueryName count) b.subqueries row := hb ▸ h.pending_subquery
  refine (correlation.route_rows hnames hwithin hsees hpending).imp fun j row' hl => ?_
  exact hsees.enter hnames hpending hl (correlation.route_grows _ _ _ b).subqueries

/-! ### Tests -/

lemma parameterValue_bind {b : Bindings} {v : Value} {params : Row}
    (hs : (Compiling.bind v b).2.Supplies params) :
    parameterValue params (Bindings.parameterName b.values.length) = v :=
  hs.value ⟨b.values.length, by simp [Compiling.bind_value], rfl⟩

lemma operands_test {p : Property} {v : Value} (hv : row.value g p = v) (t : Cypher.Test)
    (name : String) :
    (Expr.test (.property p) t (.parameter name)).operands I g params row =
      [(.and, t.holds I v (parameterValue params name))] := by
  rw [Expr.operands, Term.value, Term.value, hv]

lemma operands_likeTest {p : Property} {v : Value} (hv : row.value g p = v) (anyCase : Bool)
    (kind : Like.Shape.Kind) (name : String) :
    (likeTest anyCase p kind name).operands I g params row =
      [(.and, likeTestHolds I anyCase kind v (parameterValue params name))] := by
  cases anyCase <;> cases kind <;> simp [likeTest, likeTestHolds, Expr.operands, Term.value, hv]

lemma operands_likeExpr (op : Operator) {p : Property} {v : Value} (hv : row.value g p = v)
    (kind : Like.Shape.Kind) (name : String) :
    (likeExpr op p kind name).operands I g params row =
      [(.and, Truth.signed (op = .notLike)
        (likeTestHolds I (op = .likeAnyCase) kind v (parameterValue params name)))] := by
  rw [likeExpr]
  split_ifs with hnot
  · simp [Expr.operands, operands_likeTest hv, Truth.negateFirst, Truth.signed, hnot]
  · simp [operands_likeTest hv, Truth.signed, hnot]

/-- What a test comes to is written as a condition of the same truth. -/
lemma TestForm.emit_meaning {p : Property} {v : Value} (hv : row.value g p = v) (form : TestForm)
    {b : Bindings} (hs : (form.emit p b).2.Supplies params) :
    (form.emit p b).1.operands I g params row = [(.and, form.holds I v)] := by
  cases form with
  | isNull =>
      change (Expr.isNull p).operands I g params row = _
      rw [Expr.operands, hv, TestForm.holds]
  | isNotNull =>
      change (Expr.isNotNull p).operands I g params row = _
      rw [Expr.operands, hv, TestForm.holds]
  | constant value =>
      change (Expr.constant value).operands I g params row = _
      rw [Expr.operands, TestForm.holds]
  | single negated t w =>
      have hw := parameterValue_bind (b := b) (v := w) hs
      cases negated with
      | false =>
          change (Expr.test (.property p) t (.parameter _)).operands I g params row = _
          rw [operands_test hv, hw]
          rfl
      | true =>
          change (Expr.not (.test (.property p) t (.parameter _))).operands I g params row = _
          rw [Expr.operands, operands_test hv, hw]
          rfl
  | range lower low c upper high =>
      have hgrows := Compiling.bind_grows high (Compiling.bind low b).2
      have hlow := parameterValue_bind (b := b) (v := low) (.mono hgrows hs)
      have hhigh := parameterValue_bind (b := (Compiling.bind low b).2) (v := high) hs
      change (Expr.group (.join (.test (.property p) (.compare lower) (.parameter _)) c
        (.test (.property p) (.compare upper) (.parameter
          (Bindings.parameterName (Compiling.bind low b).2.values.length))))).operands I g params row =
        _
      rw [Expr.operands, Expr.operands, operands_test hv, operands_test hv, hlow, hhigh]
      rfl
  | pattern op text =>
      rw [TestForm.emit, compileLike_eq] at hs ⊢
      have hbound := parameterValue_bind (b := b) hs
      change (likeExpr op p _ _).operands I g params row = _
      rw [operands_likeExpr op hv, hbound]
      rfl

/-! ### Chains -/

/-- The operands of what is written, if anything is. -/
def writtenOperands (I : Interpretation) (g : Graph) (params : Row) (row : Env) (r : Option Expr) :
    Truth.Operands :=
  r.elim [] fun e => e.operands I g params row

/-- What is written is one operand, or nothing where nothing is meant. -/
def Means (I : Interpretation) (g : Graph) (params : Row) (row : Env) (r : Option Expr)
    (t : Option Truth) : Prop :=
  r.map (fun e => e.operands I g params row) = t.map fun t => [(.and, t)]

/-- A chain whose operands are those of the chain so far and the members that say something.  The
connective of its first operand has no meaning. -/
structure ChainMeans (I : Interpretation) (g : Graph) (params : Row) (row : Env)
    (chain r : Option Expr) (members : Truth.Operands) : Prop where
  operands : Truth.joinedBy .and (writtenOperands I g params row r) =
    Truth.joinedBy .and (writtenOperands I g params row chain ++ members)
  nothing : r = none ↔ chain = none ∧ members = []

lemma Means.written {r : Option Expr} {t : Option Truth} (h : Means I g params row r t)
    (condition : Condition) (negated : Bool) :
    Means I g params row (r.map (condition.written negated)) (t.map (Truth.signed negated)) := by
  cases r with
  | none =>
      cases t with
      | none => rfl
      | some t => simp [Means] at h
  | some e =>
      cases t with
      | none => simp [Means] at h
      | some t =>
          have he : e.operands I g params row = [(.and, t)] := by simpa [Means] using h
          cases negated with
          | false => exact h
          | true =>
              cases condition <;>
                simp [Means, Condition.written, Expr.operands, he, Truth.negateFirst, Truth.signed]

/-- A chain from its beginning on has the truth of its members. -/
lemma ChainMeans.conditionTruth_eq {r : Option Expr} {members : Truth.Operands}
    (h : ChainMeans I g params row none r members) :
    conditionTruth I g params r row = Truth.chain members := by
  have hchain := congrArg Truth.chain h.operands
  simp only [Truth.chain_joinedBy] at hchain
  rw [← List.nil_append members]
  refine .trans ?_ hchain
  cases r <;> rfl

lemma extendChain_none {e : Expr} (h : e ≠ .raw []) (c : Connective) :
    extendChain none c e = some e := by
  rw [extendChain.eq_def]
  split
  · exact absurd rfl h
  · rfl
  · contradiction

/-- A chain continued by a member, and then by the members after it. -/
lemma ChainMeans.continued {chain e r : Option Expr} {t : Option Truth} {rest : Truth.Operands}
    (joiner : Option Connective) (he : Means I g params row e t)
    (h : ChainMeans I g params row (continueChain chain joiner e) r rest) :
    ChainMeans I g params row chain r
      ((t.map fun t => (joiner.getD .and, t)).toList ++ rest) := by
  cases e with
  | none =>
      cases t with
      | none => exact h
      | some t => simp [Means] at he
  | some e =>
      cases t with
      | none => simp [Means] at he
      | some t =>
          have he : e.operands I g params row = [(.and, t)] := by simpa [Means] using he
          cases chain with
          | none =>
              -- text without a character has no operand, so the member opens the chain
              have hopen : continueChain none joiner (some e) = some e :=
                extendChain_none (by rintro rfl; simp [Expr.operands] at he) _
              rw [hopen] at h
              refine ⟨?_, ?_⟩
              · rw [h.operands, writtenOperands, Option.elim_some, he]
                rfl
              · simpa using h.nothing
          | some before =>
              have hjoin : continueChain (some before) joiner (some e) =
                  some (.join before (joiner.getD .and) e) := rfl
              rw [hjoin] at h
              refine ⟨?_, ?_⟩
              · rw [h.operands, writtenOperands, Option.elim_some, Expr.operands, he,
                  List.append_assoc]
                rfl
              · simpa using h.nothing

/-! ### Filters -/

mutual

/-- What is written of a condition has the truth of the condition for the node that the row sees. -/
theorem Condition.compile_meaning (hnames : ∀ name ∈ names, isGenerated name = false) :
    ∀ (condition : Condition), condition.rawFree → condition.Within names →
      ∀ {binder : String} {b after : Bindings} {r : Option Expr} {i : ℕ} {row : Env},
        (condition.compile binder).on b = (.ok r, after) → after.Supplies params →
          Sees names env binder i b.subqueries row →
            Means I g params row r (condition.meaning I g env i)
  | .test column op operand, _, hwithin, binder, b, after, r, i, row, h, hs, hsees => by
      rw [Condition.Within] at hwithin
      obtain ⟨form, hform, rfl, rfl⟩ := Condition.compile_test_eq_ok.mp h
      rw [Condition.meaning, hform]
      simp only [Means, Option.map_some]
      rw [TestForm.emit_meaning (hsees.value hwithin) form hs]
  | .columns first op second, _, hwithin, binder, b, after, r, i, row, h, hs, hsees => by
      rw [Condition.Within] at hwithin
      obtain ⟨c, hop, rfl, rfl⟩ := Condition.compile_columns_eq_ok.mp h
      rw [Condition.meaning, hop]
      simp only [Means, Option.map_some]
      rw [Expr.operands, Term.value, Term.value, hsees.value hwithin.1, hsees.value hwithin.2]
      rfl
  | .group filter, hraw, hwithin, binder, b, after, r, i, row, h, hs, hsees => by
      rw [Condition.rawFree] at hraw
      rw [Condition.Within] at hwithin
      obtain ⟨r', hgroup, rfl⟩ := Condition.compile_group_eq_ok.mp h
      have hchain := compileChain_meaning hnames filter hraw hwithin hgroup hs hsees
      rw [Condition.meaning]
      cases r' with
      | none =>
          have hnil : membersMeaning I g env filter i = [] := (hchain.nothing.mp rfl).2
          simp [Means, hnil]
      | some e =>
          have hne : membersMeaning I g env filter i ≠ [] := fun hnil => by
            simpa [hnil] using hchain.nothing
          have htruth : Truth.chain (e.operands I g params row) =
              Truth.chain (membersMeaning I g env filter i) := hchain.conditionTruth_eq
          simp [Means, Expr.operands, htruth, hne]
  | .raw text values, hraw, _, binder, b, after, r, i, row, h, hs, hsees => by
      simp [Condition.rawFree] at hraw
  | .related label correlation filter, hraw, hwithin, binder, b, after, r, i, row, h, hs, hsees => by
      rw [Condition.rawFree] at hraw
      rw [Condition.Within] at hwithin
      obtain ⟨nested, rfl, hnested⟩ := Condition.compile_related_eq_ok.mp h
      let b₁ : Bindings := { b with subqueries := b.subqueries + 1 }
      let inner := subqueryName b.subqueries
      obtain ⟨hne, htests, -⟩ := (correlation.route_adds (I := I) (g := g) binder inner label b₁).result
        (correlation.route binder inner label b₁).1 rfl
      have hroute : List.Forall₂ _ (correlation.reached I g env label i)
          (routeRows I g params (correlation.route binder inner label b₁).1 row) :=
        correlation.subquery_sees hnames hwithin.1 label hsees rfl
      change Means I g params row
        (some (.subquery (addCondition (correlation.route binder inner label b₁).1 nested))) _
      rw [Condition.meaning, Means, Option.map_some, Option.map_some, Expr.operands,
        Cypher.routeRows_addCondition hne htests]
      refine congrArg (fun t => some [(Connective.and, Truth.ofBool t)]) ?_
      refine (any_eq_of_forall₂ hroute fun j row' hsees' => ?_).symm
      have hchain := compileChain_meaning hnames filter hraw hwithin.2 hnested hs hsees'
      rw [hchain.conditionTruth_eq]

theorem Clause.compile_meaning (hnames : ∀ name ∈ names, isGenerated name = false) :
    ∀ (clause : Clause Condition), clause.rawFree → clause.Within names →
      ∀ {binder : String} {b after : Bindings} {r : Option Expr} {i : ℕ} {row : Env},
        (clause.compile binder).on b = (.ok r, after) → after.Supplies params →
          Sees names env binder i b.subqueries row →
            Means I g params row r (clause.meaning I g env i)
  | ⟨joiner, negated, condition⟩, hraw, hwithin, binder, b, after, r, i, row, h, hs, hsees => by
      rw [Clause.rawFree] at hraw
      rw [Clause.Within] at hwithin
      rw [Clause.compile_eq, Compiling.on_map_eq_ok] at h
      obtain ⟨r', h, rfl⟩ := h
      rw [Clause.meaning]
      exact (Condition.compile_meaning hnames condition hraw hwithin h hs hsees).written condition
        negated

/-- The rest of a chain is written as the operands that its members mean. -/
theorem compileChain_meaning (hnames : ∀ name ∈ names, isGenerated name = false) :
    ∀ (members : List (Clause Condition)), membersRawFree members → membersWithin names members →
      ∀ {binder : String} {index : ℕ} {chain : Option Expr} {b after : Bindings} {r : Option Expr}
        {i : ℕ} {row : Env},
        (compileChain binder index chain members).on b = (.ok r, after) → after.Supplies params →
          Sees names env binder i b.subqueries row →
            ChainMeans I g params row chain r (membersMeaning I g env members i)
  | [], _, _, binder, index, chain, b, after, r, i, row, h, _, _ => by
      rw [compileChain] at h
      simp only [Compiling.on_pure, Prod.mk.injEq, Except.ok.injEq] at h
      obtain ⟨rfl, rfl⟩ := h
      rw [membersMeaning]
      exact ⟨by rw [List.append_nil], by simp⟩
  | clause :: rest, hraw, hwithin, binder, index, chain, b, after, r, i, row, h, hs, hsees => by
      rw [membersRawFree, Bool.and_eq_true] at hraw
      rw [membersWithin] at hwithin
      rw [compileChain_cons] at h
      split_ifs at h with hunjoined
      · simp at h
      · obtain ⟨e, mid, he, hrest⟩ := Compiling.on_bind_eq_ok.mp h
        have hgrows := ((Clause.compile_adds (I := I) (g := g) clause binder b).of_eq_ok he).1
        have hlater :=
          ((compileChain_adds (I := I) (g := g) rest binder (index + 1) _ mid).of_eq_ok hrest).1
        have hclause :=
          Clause.compile_meaning hnames clause hraw.1 hwithin.1 he (.mono hlater hs) hsees
        have hchain := compileChain_meaning hnames rest hraw.2 hwithin.2 hrest hs
          (hsees.mono hgrows.subqueries)
        rw [membersMeaning]
        exact hchain.continued clause.joiner hclause

end

/-- **Filters mean what they say**: what is written of a filter is true in a row just if the node that
the row sees fulfils the filter. -/
theorem Filter.compile_truth (hnames : ∀ name ∈ names, isGenerated name = false) {filter : Filter}
    (hraw : membersRawFree filter) (hwithin : membersWithin names filter) {b after : Bindings}
    {r : Option Expr} (h : (filter.compile binder).on b = (.ok r, after)) (hs : after.Supplies params)
    (hsees : Sees names env binder i b.subqueries row) :
    decide (conditionTruth I g params r row = .yes) = filter.holds I g env i := by
  have hchain := compileChain_meaning (I := I) (g := g) hnames filter hraw hwithin h hs hsees
  rw [hchain.conditionTruth_eq, Filter.holds]

end

end GraphMapper
