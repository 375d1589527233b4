import GraphMapper.Filter.Compile
import GraphMapper.Proofs.Graph.Basic

/-!
What patterns and conditions mean in a graph.

* `Term.value`, `Test.holds`: values and tests of two values;
* `Node.meets`, `Pattern.rows`: the rows of a pattern, one for each way to find it in the graph;
* `Expr.operands`, `Match.rows`, `routeRows`: conditions as the operands that their text is read as, and
  the rows of matches; the two go hand in hand, since a subquery asks for rows;
* `routeRows_append`, `routeRows_addCondition`: the rows of matches put together.
-/

namespace GraphMapper.Cypher

/-! ### Values and tests -/

/-- The lowercase form of a value; only texts have one. -/
def Interpretation.lowered (I : Interpretation) : Value → Value
  | .string s => .string (I.lower s)
  | _ => .null

/-- A test of two texts; nothing is said of other values. -/
def ofTexts (holds : String → String → Truth) : Value → Value → Truth
  | .string s, .string t => holds s t
  | _, _ => .unknown

/-- The truth of a test of two values. -/
def Test.holds (I : Interpretation) : Test → Value → Value → Truth
  | .compare c => I.compare c
  | .among => fun v w =>
    match w with
    | .array items => .any (items.map (I.compare .eq v))
    | _ => .unknown
  | .startsWith => ofTexts fun s t => .ofBool (t.toList.isPrefixOf s.toList)
  | .endsWith => ofTexts fun s t => .ofBool (t.toList.isSuffixOf s.toList)
  | .contains => ofTexts fun s t => .ofBool (decide (t.toList <:+: s.toList))
  | .matching => ofTexts I.fits

section

variable (I : Interpretation) (g : Graph) (params : Row)

/-- The value of a parameter; null if it is not given. -/
def parameterValue (name : String) : Value :=
  (Fields.get? params name).getD .null

/-- The value of a term in a row. -/
def Term.value (env : Env) : Term → Value
  | .property p => env.value g p
  | .parameter name => parameterValue params name
  | .bound name => (env name).elim .null (·.toValue g)
  | .lowered t => I.lowered (Term.value env t)

/-- A piece of text written by hand, a parameter being replaced by its value. -/
def Piece.value : Piece → Char ⊕ Value
  | .char c => .inl c
  | .parameter name => .inr (parameterValue params name)

/-! ### Patterns -/

/-- Whether a node of the graph has the label that is asked for. -/
def Node.fits (n : Node) (i : ℕ) : Bool :=
  n.label.all (· ∈ g.labels i)

/-- The nodes that a node of a pattern may be, each with the row in which it is that one: any node with
the label if its variable is new, and the node that the variable stands for otherwise. -/
def Node.meets (n : Node) (env : Env) : List (ℕ × Env) :=
  match env n.binder with
  | none => (g.nodes.filter (n.fits g)).map fun i => (i, env.set n.binder (.node i))
  | some (.node i) => if n.fits g i then [(i, env)] else []
  | some _ => []

/-- The row in which an edge of a pattern is the given edge, if it may be.  An edge without a variable
binds nothing. -/
def Edge.meets (edge : Edge) (e : ℕ) (env : Env) : List Env :=
  if edge.binder = "" then [env]
  else
    match env edge.binder with
    | none => [env.set edge.binder (.edge e)]
    | some (.edge e') => if e = e' then [env] else []
    | some _ => []

/-- The rows of a pattern: one for each node, or for each edge and its ends. -/
def Pattern.rows (env : Env) : Pattern → List Env
  | .node n => (n.meets g env).map (·.2)
  | .path left edge right =>
    (left.meets g env).flatMap fun (i, env) =>
      (right.meets g env).flatMap fun (j, env) =>
        (g.between edge.edgeType edge.direction i j).flatMap fun e => edge.meets e env

/-! ### Conditions -/

mutual

/-- The operands that a condition is read as in a row.  Negation belongs to the next operand alone. -/
def Expr.operands : Expr → Env → Truth.Operands
  | .constant b, _ => [(.and, .ofBool b)]
  | .isNull p, env => [(.and, .ofBool (env.value g p).isNull)]
  | .isNotNull p, env => [(.and, .ofBool !(env.value g p).isNull)]
  | .test left t right, env =>
    [(.and, t.holds I (left.value I g params env) (right.value I g params env))]
  | .raw pieces, env =>
    if pieces.isEmpty then [] else I.raw g env (pieces.map (Piece.value params))
  | .subquery route, env => [(.and, .ofBool !(routeRows route env).isEmpty)]
  | .not e, env => Truth.negateFirst (e.operands env)
  | .group e, env => [(.and, Truth.chain (e.operands env))]
  | .join before c e, env => before.operands env ++ Truth.joinedBy c (e.operands env)

/-- The rows of matches one after the other. -/
def routeRows : List (Match Expr) → Env → List Env
  | [], env => [env]
  | m :: rest, env => (Match.rows m env).flatMap (routeRows rest)

/-- The rows of a match: those of the pattern in which the conditions are true. -/
def Match.rows : Match Expr → Env → List Env
  | ⟨pattern, conditions⟩, env =>
    (pattern.rows g env).filter fun row =>
      Truth.chain (conditionsOperands conditions row) = .yes

/-- The operands of conditions that hold together. -/
def conditionsOperands : List Expr → Env → Truth.Operands
  | [], _ => []
  | e :: rest, env => e.operands env ++ Truth.joinedBy .and (conditionsOperands rest env)

end

/-- The truth of a condition in a row. -/
def Expr.truth (e : Expr) (env : Env) : Truth :=
  Truth.chain (e.operands I g params env)

end

variable {I : Interpretation} {g : Graph} {params : Row}

/-! ### Rows of matches -/

lemma Match.rows_eq (m : Match Expr) (env : Env) :
    m.rows I g params env =
      (m.pattern.rows g env).filter fun row =>
        Truth.chain (conditionsOperands I g params m.conditions row) = .yes := by
  rw [Match.rows]

@[simp] lemma routeRows_nil (env : Env) : routeRows I g params [] env = [env] := by
  rw [routeRows]

lemma routeRows_cons (m : Match Expr) (rest : List (Match Expr)) (env : Env) :
    routeRows I g params (m :: rest) env =
      (m.rows I g params env).flatMap (routeRows I g params rest) := by
  rw [routeRows]

@[simp] lemma flatMap_routeRows_nil (rows : List Env) :
    rows.flatMap (routeRows I g params []) = rows :=
  (List.flatMap_congr fun row _ => routeRows_nil row).trans (List.flatMap_singleton' rows)

lemma routeRows_singleton (m : Match Expr) (env : Env) :
    routeRows I g params [m] env = m.rows I g params env := by
  rw [routeRows_cons, flatMap_routeRows_nil]

lemma routeRows_append (route more : List (Match Expr)) (env : Env) :
    routeRows I g params (route ++ more) env =
      (routeRows I g params route env).flatMap (routeRows I g params more) := by
  induction route generalizing env with
  | nil => simp
  | cons m rest ih =>
      rw [List.cons_append, routeRows_cons, routeRows_cons, List.flatMap_assoc]
      exact List.flatMap_congr fun row _ => ih row

/-- The rows of a node whose variable is new. -/
lemma Match.rows_node {binder label : String} {env : Env} (h : env binder = none)
    (conditions : List Expr) :
    (Match.mk (.node ⟨binder, some label⟩) conditions).rows I g params env =
      ((g.labelled label).filter fun i => Truth.chain (conditionsOperands I g params conditions
        (env.set binder (.node i))) = .yes).map fun i => env.set binder (.node i) := by
  rw [Match.rows_eq, Pattern.rows, Node.meets, h, List.map_map, List.filter_map]
  rfl

/-- The rows of an edge from a bound node to a node whose variable is new. -/
lemma Match.rows_path {left right label : String} {edge : Edge} {env : Env} {i : ℕ}
    (hl : env left = some (.node i)) (hr : env right = none) :
    (Match.mk (.path ⟨left, none⟩ edge ⟨right, some label⟩) []).rows I g params env =
      (g.labelled label).flatMap fun j =>
        (g.between edge.edgeType edge.direction i j).flatMap fun e =>
          edge.meets e (env.set right (.node j)) := by
  have hleft : Node.meets g ⟨left, none⟩ env = [(i, env)] := by
    simp [Node.meets, hl, Node.fits]
  have hright : Node.meets g ⟨right, some label⟩ env =
      (g.labelled label).map fun j => (j, env.set right (.node j)) := by
    rw [Node.meets, hr]
    rfl
  rw [Match.rows_eq, Pattern.rows, hleft, List.flatMap_singleton]
  dsimp only
  rw [hright, List.flatMap_map]
  exact List.filter_eq_self.mpr fun row _ => by simp [conditionsOperands, Truth.chain]

lemma chain_conditionsOperands_equals (p : Property) (t : Term) (env : Env) :
    Truth.chain (conditionsOperands I g params [.equals p t] env) =
      I.compare .eq (env.value g p) (t.value I g params env) := by
  simp [conditionsOperands, Expr.equals, Expr.operands, Truth.joinedBy, Term.value, Test.holds]

/-! ### A condition more -/

/-- Whether all conditions of a match are tests of two values. -/
def Match.TestsOnly (m : Match Expr) : Prop :=
  ∀ e ∈ m.conditions, ∃ left t right, e = .test left t right

lemma conditionsOperands_of_tests {conditions : List Expr}
    (h : ∀ e ∈ conditions, ∃ left t right, e = Expr.test left t right) (env : Env) :
    ∀ o ∈ conditionsOperands I g params conditions env, o.1 = .and := by
  induction conditions with
  | nil => simp [conditionsOperands]
  | cons e rest ih =>
      obtain ⟨left, t, right, rfl⟩ := h e List.mem_cons_self
      have ih := ih fun e he => h e (List.mem_cons_of_mem _ he)
      intro o ho
      rw [conditionsOperands, Expr.operands] at ho
      rcases List.mem_append.mp ho with ho | ho
      · rw [List.mem_singleton.mp ho]
      · exact Truth.joinedBy_fst ih o ho

lemma conditionsOperands_concat_group (conditions : List Expr) (e : Expr) (env : Env) :
    conditionsOperands I g params (conditions ++ [.group e]) env =
      conditionsOperands I g params conditions env ++ [(.and, e.truth I g params env)] := by
  induction conditions with
  | nil => simp [conditionsOperands, Expr.operands, Expr.truth, Truth.joinedBy]
  | cons first rest ih =>
      rw [List.cons_append, conditionsOperands, conditionsOperands, ih, Truth.joinedBy_concat,
        List.append_assoc]

/-- The truth of a condition that need not be there. -/
def conditionTruth (I : Interpretation) (g : Graph) (params : Row) (condition : Option Expr)
    (env : Env) : Truth :=
  condition.elim .yes fun e => e.truth I g params env

lemma addCondition_concat (route : List (Match Expr)) (m : Match Expr) (e : Expr) :
    addCondition (route ++ [m]) (some e) =
      route ++ [{ m with conditions := m.conditions ++ [.group e] }] := by
  rw [addCondition, List.length_append, List.length_singleton, Nat.add_sub_cancel,
    List.modify_eq_take_cons_drop (by simp)]
  simp

/-- The rows of matches with a condition added to the last of them are those in which the condition is
true. -/
theorem routeRows_addCondition {route : List (Match Expr)} (hne : route ≠ [])
    (htests : ∀ m ∈ route, m.TestsOnly) (condition : Option Expr) (env : Env) :
    routeRows I g params (addCondition route condition) env =
      (routeRows I g params route env).filter fun row =>
        conditionTruth I g params condition row = .yes := by
  cases condition with
  | none => simp [addCondition, conditionTruth]
  | some e =>
      obtain ⟨init, m, rfl⟩ := List.eq_nil_or_concat' route |>.resolve_left hne
      have hm : m.TestsOnly := htests m (by simp)
      rw [addCondition_concat, routeRows_append, routeRows_append, List.filter_flatMap]
      refine List.flatMap_congr fun row _ => ?_
      rw [routeRows_singleton, routeRows_singleton, Match.rows_eq, Match.rows_eq, List.filter_filter]
      refine List.filter_congr fun row _ => ?_
      rw [conditionsOperands_concat_group, Bool.and_comm, ← Bool.decide_and]
      exact decide_eq_decide.mpr
        (Truth.chain_concat_eq_yes_of_and (conditionsOperands_of_tests hm row) _)

end GraphMapper.Cypher
