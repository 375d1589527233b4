import GraphMapper.Cypher.Statement
import GraphMapper.Proofs.Graph.Truth

/-!
Property graphs, and what an engine brings to the meaning of a statement.

* `Graph`: nodes with labels and edges with types, both with properties;
* `Graph.labelled`, `Graph.between`: the nodes of a label and the edges between two nodes;
* `Graph.withoutNodes`, `Graph.withoutEdges`, `Graph.addNode`, `Graph.addEdge`: changes of a graph;
* `Entity`, `Env`: what the variables of a row stand for;
* `Interpretation`: the comparisons, the sort order and the functions of an engine, and the reading of
  text written by hand; `Interpretation.EqualsJson`: values are equal if they are the same.
-/

namespace GraphMapper.Cypher

/-! ### Graphs -/

/-- A property graph.  Nodes and edges are known by numbers; what is said about other numbers has no
meaning. -/
structure Graph where
  nodes : List ℕ
  edges : List ℕ
  labels : ℕ → List String
  edgeType : ℕ → String
  source : ℕ → ℕ
  target : ℕ → ℕ
  ofNode : ℕ → Row
  ofEdge : ℕ → Row
  nodes_nodup : nodes.Nodup
  edges_nodup : edges.Nodup
  source_mem : ∀ e ∈ edges, source e ∈ nodes
  target_mem : ∀ e ∈ edges, target e ∈ nodes

namespace Graph

/-- The nodes of a label. -/
def labelled (g : Graph) (label : String) : List ℕ :=
  g.nodes.filter fun i => label ∈ g.labels i

lemma labelled_nodup (g : Graph) (label : String) : (g.labelled label).Nodup :=
  g.nodes_nodup.filter _

/-- Whether an edge leads from one node to another, as seen from the first.  Without a direction it may
lead either way; an edge from a node to itself is still one edge. -/
def joins (g : Graph) (direction : Direction) (i j e : ℕ) : Bool :=
  match direction with
  | .outgoing => g.source e = i && g.target e = j
  | .incoming => g.source e = j && g.target e = i
  | .both => (g.source e = i && g.target e = j) || (g.source e = j && g.target e = i)

/-- The edges of a type that lead from one node to another. -/
def between (g : Graph) (edgeType : String) (direction : Direction) (i j : ℕ) : List ℕ :=
  g.edges.filter fun e => g.edgeType e = edgeType && g.joins direction i j e

/-- A property of a node; null if there is none. -/
def value (g : Graph) (i : ℕ) (name : String) : Value :=
  (Fields.get? (g.ofNode i) name).getD .null

/-- A graph without edges: nodes by their labels and properties. -/
def ofNodes (nodes : List (String × Row)) : Graph where
  nodes := List.range nodes.length
  edges := []
  labels i := (nodes[i]?.map Prod.fst).toList
  edgeType _ := ""
  source _ := 0
  target _ := 0
  ofNode i := (nodes[i]?.map Prod.snd).getD []
  ofEdge _ := []
  nodes_nodup := List.nodup_range
  edges_nodup := List.nodup_nil
  source_mem := by simp
  target_mem := by simp

/-! ### Changes -/

/-- The graph without some nodes and without the edges at them. -/
def withoutNodes (g : Graph) (ids : List ℕ) : Graph where
  nodes := g.nodes.filter (· ∉ ids)
  edges := g.edges.filter fun e => g.source e ∉ ids ∧ g.target e ∉ ids
  labels := g.labels
  edgeType := g.edgeType
  source := g.source
  target := g.target
  ofNode := g.ofNode
  ofEdge := g.ofEdge
  nodes_nodup := g.nodes_nodup.filter _
  edges_nodup := g.edges_nodup.filter _
  source_mem e he := by
    obtain ⟨he, hs, -⟩ : e ∈ g.edges ∧ g.source e ∉ ids ∧ g.target e ∉ ids := by simpa using he
    exact List.mem_filter.mpr ⟨g.source_mem e he, by simpa using hs⟩
  target_mem e he := by
    obtain ⟨he, -, ht⟩ : e ∈ g.edges ∧ g.source e ∉ ids ∧ g.target e ∉ ids := by simpa using he
    exact List.mem_filter.mpr ⟨g.target_mem e he, by simpa using ht⟩

/-- The graph without some edges. -/
def withoutEdges (g : Graph) (ids : List ℕ) : Graph :=
  { g with
    edges := g.edges.filter (· ∉ ids)
    edges_nodup := g.edges_nodup.filter _
    source_mem := fun e he => g.source_mem e (List.mem_of_mem_filter he)
    target_mem := fun e he => g.target_mem e (List.mem_of_mem_filter he) }

@[simp] lemma withoutEdges_nil (g : Graph) : g.withoutEdges [] = g := by
  simp [withoutEdges]

/-- A number greater than all in a list. -/
def unused (ids : List ℕ) : ℕ :=
  ids.foldr max 0 + 1

lemma unused_notMem (ids : List ℕ) : unused ids ∉ ids := by
  have hle : ∀ i ∈ ids, i ≤ ids.foldr max 0 := by
    induction ids with
    | nil => simp
    | cons j rest ih =>
        intro i hi
        rw [List.foldr_cons]
        rcases List.mem_cons.mp hi with rfl | hi
        · exact le_max_left _ _
        · exact (ih i hi).trans (le_max_right _ _)
  intro hm
  exact absurd (hle _ hm) (by simp [unused])

lemma ne_unused {ids : List ℕ} {i : ℕ} (h : i ∈ ids) : i ≠ unused ids := by
  rintro rfl
  exact unused_notMem ids h

/-- A node more, of the given labels and without properties. -/
def addNode (g : Graph) (labels : List String) : Graph :=
  let i := unused g.nodes
  { g with
    nodes := g.nodes ++ [i]
    labels := Function.update g.labels i labels
    ofNode := Function.update g.ofNode i []
    nodes_nodup := by
      rw [← List.concat_eq_append]
      exact g.nodes_nodup.concat (unused_notMem _)
    source_mem := fun e he => List.mem_append_left _ (g.source_mem e he)
    target_mem := fun e he => List.mem_append_left _ (g.target_mem e he) }

/-- An edge more, between two nodes of the graph and without properties. -/
def addEdge (g : Graph) (edgeType : String) (i j : ℕ) (hi : i ∈ g.nodes) (hj : j ∈ g.nodes) :
    Graph :=
  let e := unused g.edges
  { g with
    edges := g.edges ++ [e]
    edgeType := Function.update g.edgeType e edgeType
    source := Function.update g.source e i
    target := Function.update g.target e j
    ofEdge := Function.update g.ofEdge e []
    edges_nodup := by
      rw [← List.concat_eq_append]
      exact g.edges_nodup.concat (unused_notMem _)
    source_mem := by
      intro e' he
      rcases List.mem_append.mp he with he | he
      · rw [Function.update_of_ne (ne_unused he)]
        exact g.source_mem e' he
      · rw [List.mem_singleton.mp he, Function.update_self]
        exact hi
    target_mem := by
      intro e' he
      rcases List.mem_append.mp he with he | he
      · rw [Function.update_of_ne (ne_unused he)]
        exact g.target_mem e' he
      · rw [List.mem_singleton.mp he, Function.update_self]
        exact hj }

end Graph

/-! ### Rows -/

/-- What a variable stands for. -/
inductive Entity where
  | node (i : ℕ)
  | edge (e : ℕ)
  | value (v : Value)
deriving DecidableEq, Repr

namespace Entity

/-- The properties of a node or an edge, or the entries of a map. -/
def properties (g : Graph) : Entity → Row
  | .node i => g.ofNode i
  | .edge e => g.ofEdge e
  | .value (.object fields) => fields
  | .value _ => []

/-- The value in a result column: a node or an edge is shown by its properties. -/
def toValue (g : Graph) : Entity → Value
  | .value v => v
  | entity => .object (entity.properties g)

end Entity

/-- The variables of a row.  One that is not bound counts as null. -/
abbrev Env := String → Option Entity

namespace Env

/-- Nothing is bound. -/
def empty : Env := fun _ => none

/-- One variable more. -/
def set (env : Env) (name : String) (entity : Entity) : Env :=
  Function.update env name (some entity)

@[simp] lemma set_self (env : Env) (name : String) (entity : Entity) :
    env.set name entity name = some entity := by
  simp [set]

lemma set_of_ne {name other : String} (h : other ≠ name) (env : Env) (entity : Entity) :
    env.set name entity other = env other := by
  simp [set, h]

/-- The node that a variable stands for. -/
def node? (env : Env) (name : String) : Option ℕ :=
  match env name with
  | some (.node i) => some i
  | _ => none

/-- The edge that a variable stands for. -/
def edge? (env : Env) (name : String) : Option ℕ :=
  match env name with
  | some (.edge e) => some e
  | _ => none

/-- Whether a variable stands for anything but null. -/
def isPresent (env : Env) (name : String) : Bool :=
  match env name with
  | none | some (.value .null) => false
  | some _ => true

/-- A property of what a variable stands for; null if there is none. -/
def value (g : Graph) (env : Env) (p : Property) : Value :=
  match env p.owner with
  | none => .null
  | some entity => (Fields.get? (entity.properties g) p.name).getD .null

lemma value_of_node {g : Graph} {env : Env} {p : Property} {i : ℕ}
    (h : env p.owner = some (.node i)) : env.value g p = g.value i p.name := by
  rw [value, h]
  rfl

end Env

/-! ### Engines -/

/-- What the meaning of a statement takes from the engine. -/
structure Interpretation where
  compare : Comparison → Value → Value → Truth
  /-- The lowercase form of a text. -/
  lower : String → String
  /-- Whether a text as a whole matches a regular expression. -/
  fits : String → String → Truth
  /-- Whether a value may come before another in increasing order. -/
  before : Value → Value → Bool
  /-- An aggregate function of the given values, with its optional second argument. -/
  aggregate : String → List Value → Option Value → Value
  /-- The operands that text written by hand is read as in a row; the parameters at its marked places
  are given by their values. -/
  raw : Graph → Env → List (Char ⊕ Value) → Truth.Operands

/-- Two values are equal if they are the same and not null; nothing is said of null. -/
def Interpretation.EqualsJson (I : Interpretation) : Prop :=
  ∀ v w, I.compare .eq v w =
    if v = .null ∨ w = .null then .unknown else .ofBool (decide (v = w))

lemma Interpretation.EqualsJson.eq_yes {I : Interpretation} (h : I.EqualsJson) {v w : Value} :
    I.compare .eq v w = .yes ↔ v = w ∧ v ≠ .null := by
  rw [h v w]
  split_ifs with hnull
  · constructor
    · simp
    · rintro ⟨rfl, hv⟩
      exact absurd (or_self_iff.mp hnull) hv
  · push Not at hnull
    simp [hnull.1]

/-- An engine that compares values as JSON does, and orders integers alone. -/
def Interpretation.json : Interpretation where
  compare c v w :=
    if v = .null ∨ w = .null then .unknown
    else
      match c, v, w with
      | .eq, v, w => .ofBool (decide (v = w))
      | .ne, v, w => .ofBool (decide (v ≠ w))
      | .lt, .number (.int m), .number (.int n) => .ofBool (decide (m < n))
      | .le, .number (.int m), .number (.int n) => .ofBool (decide (m ≤ n))
      | .gt, .number (.int m), .number (.int n) => .ofBool (decide (m > n))
      | .ge, .number (.int m), .number (.int n) => .ofBool (decide (m ≥ n))
      | _, _, _ => .unknown
  lower s := String.ofList (s.toList.map Char.toLower)
  fits _ _ := .unknown
  before v w :=
    match v, w with
    | .number (.int m), .number (.int n) => decide (m ≤ n)
    | _, _ => true
  aggregate _ _ _ := .null
  raw _ _ _ := []

lemma Interpretation.json_equalsJson : Interpretation.json.EqualsJson := fun v w => by
  rw [Interpretation.json]

end GraphMapper.Cypher
