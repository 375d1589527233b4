import GraphMapper.Proofs.Graph.Change
import GraphMapper.Proofs.Graph.Route
import GraphMapper.Relation.Pivot

/-!
Pivots as they are found in a graph.

* `Link`: a pivot with the keys of its two sides and its properties;
* `Side`: a way to keep pivots, as the statements about it see it: the pattern of a pivot, and the
  properties with the keys; `Side.nodes` for pivots that are nodes, `Side.edges` for pivots that are
  edges;
* `Side.Sound`: the rows of the pattern show the links of the graph, and nothing else;
  `Side.nodes_sound`, `Side.edges_sound`;
* `Graph.Sets`, `Graph.SameNodes`, `Graph.Around`: graphs that differ in some properties, in edges or in
  the nodes of one label, and the links of such graphs.
-/

namespace GraphMapper

open Cypher (Entity Env Expr Graph Interpretation Pattern Property Truth conditionsOperands
  parameterValue)

/-! ### Links -/

/-- A pivot, with the keys of its parent and of what it relates the parent to. -/
structure Link where
  pivot : ℕ
  parent : Value
  related : Value
  properties : String → Option Value

/-- A way to keep pivots. -/
structure Side where
  pattern : Pattern
  ofParent : Property
  ofRelated : Property
  /-- A pivot of the number, as a variable stands for it. -/
  entity : ℕ → Entity
  links : Graph → Set Link

/-- A row shows a link. -/
structure Side.Shows (side : Side) (g : Graph) (env : Env) (l : Link) : Prop where
  mem : l ∈ side.links g
  pivot : env pivotVariable = some (side.entity l.pivot)
  parent : env.value g side.ofParent = l.parent
  related : env.value g side.ofRelated = l.related

/-- The rows of the pattern show links, and each link is shown by one. -/
structure Side.Sound (side : Side) : Prop where
  entity : side.entity = .node ∨ side.entity = .edge
  shows : ∀ g, ∀ env ∈ side.pattern.rows g .empty, ∃ l, side.Shows g env l
  shown : ∀ g, ∀ l ∈ side.links g, ∃ env ∈ side.pattern.rows g .empty, side.Shows g env l

/-! ### Pivots that are nodes -/

namespace Pivot

/-- The link that a node is. -/
def linkOf (spec : Pivot) (g : Graph) (p : ℕ) : Link where
  pivot := p
  parent := g.value p spec.parentReference
  related := g.value p spec.relatedReference
  properties := Fields.get? (g.ofNode p)

/-- The links that are nodes of the label. -/
def links (spec : Pivot) (g : Graph) : Set Link :=
  spec.linkOf g '' {p | p ∈ g.labelled spec.label}

/-- The names under which a pivot node has its keys. -/
def references (spec : Pivot) : List String :=
  [spec.parentReference, spec.relatedReference]

/-- The keys of a pivot are found under two names of their own. -/
structure Plain (spec : Pivot) : Prop where
  parent : columnOwner spec.parentReference = ""
  related : columnOwner spec.relatedReference = ""
  distinct : spec.parentReference ≠ spec.relatedReference

end Pivot

namespace Side

/-- Pivots that are nodes. -/
def nodes (spec : Pivot) : Side where
  pattern := nodePattern pivotVariable spec.label
  ofParent := DirectRelation.ofPivot spec.parentReference
  ofRelated := DirectRelation.ofPivot spec.relatedReference
  entity := .node
  links := spec.links

lemma rows_nodePattern (g : Graph) (binder label : String) :
    (nodePattern binder label).rows g .empty =
      (g.labelled label).map fun i => Env.empty.set binder (.node i) := by
  rw [nodePattern, Pattern.rows, Cypher.Node.meets, Env.empty, List.map_map]
  rfl

lemma nodes_shows {spec : Pivot} (hspec : spec.Plain) {g : Graph} {p : ℕ}
    (hp : p ∈ g.labelled spec.label) :
    (nodes spec).Shows g (Env.empty.set pivotVariable (.node p)) (spec.linkOf g p) where
  mem := ⟨p, hp, rfl⟩
  pivot := Env.set_self _ _ _
  parent := value_ofColumn (Env.set_self _ _ _) hspec.parent
  related := value_ofColumn (Env.set_self _ _ _) hspec.related

lemma nodes_sound {spec : Pivot} (hspec : spec.Plain) : (nodes spec).Sound where
  entity := .inl rfl
  shows g env henv := by
    rw [nodes, rows_nodePattern] at henv
    obtain ⟨p, hp, rfl⟩ := List.mem_map.mp henv
    exact ⟨_, nodes_shows hspec hp⟩
  shown g l hl := by
    obtain ⟨p, hp, rfl⟩ := hl
    rw [nodes, rows_nodePattern]
    exact ⟨_, List.mem_map_of_mem hp, nodes_shows hspec hp⟩

end Side

/-! ### Pivots that are edges -/

/-- Edges between nodes of two labels, which are known by the values of a column each. -/
structure Wiring where
  parentLabel : String
  relatedLabel : String
  edge : EdgeSpec
  parentKey : String
  relatedKey : String

namespace Wiring

variable (w : Wiring)

/-- An edge leads from a parent to a related node. -/
structure Joins (g : Graph) (i j e : ℕ) : Prop where
  parent : i ∈ g.labelled w.parentLabel
  related : j ∈ g.labelled w.relatedLabel
  edge : e ∈ g.between w.edge.edgeType w.edge.direction i j

/-- The link that an edge between two nodes is. -/
def linkOf (g : Graph) (i j e : ℕ) : Link where
  pivot := e
  parent := g.value i w.parentKey
  related := g.value j w.relatedKey
  properties := Fields.get? (g.ofEdge e)

/-- The links that are edges. -/
def links (g : Graph) : Set Link :=
  {l | ∃ i j e, w.Joins g i j e ∧ w.linkOf g i j e = l}

/-- The keys of the nodes are found under names of their own. -/
structure Plain : Prop where
  parent : columnOwner w.parentKey = ""
  related : columnOwner w.relatedKey = ""

/-- The edges from a parent to a related node, written as a pattern. -/
def pattern : Pattern :=
  w.edge.between ⟨parentVariable, some w.parentLabel⟩ pivotVariable
    ⟨relatedVariable, some w.relatedLabel⟩

/-- The row of two nodes. -/
def ends (i j : ℕ) : Env :=
  (Env.empty.set parentVariable (.node i)).set relatedVariable (.node j)

/-- The row of an edge between two nodes. -/
def row (i j e : ℕ) : Env :=
  (ends i j).set pivotVariable (.edge e)

lemma row_parent (i j e : ℕ) : row i j e parentVariable = some (.node i) := rfl

lemma row_related (i j e : ℕ) : row i j e relatedVariable = some (.node j) := rfl

/-- The rows of the pattern of an edge, under a variable of its own, are those of the edges. -/
lemma mem_rows_between {binder : String} (hname : binder ≠ "") (hparent : binder ≠ parentVariable)
    (hrelated : binder ≠ relatedVariable) {g : Graph} {env : Env} :
    env ∈ (w.edge.between ⟨parentVariable, some w.parentLabel⟩ binder
        ⟨relatedVariable, some w.relatedLabel⟩).rows g .empty ↔
      ∃ i j e, w.Joins g i j e ∧ (ends i j).set binder (.edge e) = env := by
  have hedge (i j e : ℕ) : Cypher.Edge.meets ⟨binder, w.edge.edgeType, w.edge.direction⟩ e
      (ends i j) = [(ends i j).set binder (.edge e)] := by
    have hfree : ends i j binder = none := by
      rw [ends, Env.set_of_ne hrelated, Env.set_of_ne hparent]
      rfl
    rw [Cypher.Edge.meets, if_neg hname]
    dsimp only
    rw [hfree]
  have hright (i : ℕ) : Cypher.Node.meets g ⟨relatedVariable, some w.relatedLabel⟩
      (Env.empty.set parentVariable (.node i)) = (g.labelled w.relatedLabel).map fun j =>
        (j, ends i j) := rfl
  have hleft : Cypher.Node.meets g ⟨parentVariable, some w.parentLabel⟩ .empty =
      (g.labelled w.parentLabel).map fun i => (i, Env.empty.set parentVariable (.node i)) := rfl
  rw [EdgeSpec.between, Pattern.rows, hleft]
  simp only [List.mem_flatMap, List.mem_map, Prod.exists, Prod.mk.injEq]
  constructor
  · rintro ⟨_, _, ⟨i, hi, rfl, rfl⟩, _, _, hrow, e, he, henv⟩
    rw [hright] at hrow
    obtain ⟨j, hj, heq⟩ := List.mem_map.mp hrow
    obtain ⟨rfl, rfl⟩ := Prod.mk.inj heq
    rw [hedge, List.mem_singleton] at henv
    exact ⟨i, j, e, ⟨hi, hj, he⟩, henv.symm⟩
  · rintro ⟨i, j, e, ⟨hi, hj, he⟩, henv⟩
    subst henv
    refine ⟨i, _, ⟨i, hi, rfl, rfl⟩, j, _, hright i ▸ List.mem_map_of_mem hj, e, he, ?_⟩
    rw [hedge]
    exact List.mem_singleton_self _

end Wiring

namespace Side

/-- Pivots that are edges. -/
def edges (w : Wiring) : Side where
  pattern := w.pattern
  ofParent := Property.ofColumn parentVariable w.parentKey
  ofRelated := Property.ofColumn relatedVariable w.relatedKey
  entity := .edge
  links := w.links

lemma mem_rows_pattern {w : Wiring} {g : Graph} {env : Env} :
    env ∈ w.pattern.rows g .empty ↔ ∃ i j e, w.Joins g i j e ∧ Wiring.row i j e = env :=
  w.mem_rows_between (by decide) (by decide) (by decide)

lemma edges_shows {w : Wiring} (hw : w.Plain) {g : Graph} {i j e : ℕ} (h : w.Joins g i j e) :
    (edges w).Shows g (Wiring.row i j e) (w.linkOf g i j e) where
  mem := ⟨i, j, e, h, rfl⟩
  pivot := Env.set_self _ _ _
  parent := value_ofColumn (Wiring.row_parent i j e) hw.parent
  related := value_ofColumn (Wiring.row_related i j e) hw.related

lemma edges_sound {w : Wiring} (hw : w.Plain) : (edges w).Sound where
  entity := .inr rfl
  shows g env henv := by
    obtain ⟨i, j, e, h, rfl⟩ := mem_rows_pattern.mp henv
    exact ⟨_, edges_shows hw h⟩
  shown g l hl := by
    obtain ⟨i, j, e, h, rfl⟩ := hl
    exact ⟨_, mem_rows_pattern.mpr ⟨i, j, e, h, rfl⟩, edges_shows hw h⟩

end Side

/-! ### Graphs with other properties, or without some pivots -/

/-- A link with some properties set. -/
def Link.overlaid (values : Row) (l : Link) : Link :=
  { l with properties := Cypher.overlay values l.properties }

/-- The pivots of the links that fulfil a condition. -/
def Side.touched (side : Side) (g : Graph) (wanted : Link → Prop) : Set ℕ :=
  Link.pivot '' {l ∈ side.links g | wanted l}

open Classical in
/-- Links of which some pivots have properties set. -/
noncomputable def Link.updated (values : Row) (ids : Set ℕ) (l : Link) : Link :=
  if l.pivot ∈ ids then l.overlaid values else l

lemma Link.updated_keys (values : Row) (ids : Set ℕ) (l : Link) :
    (l.updated values ids).pivot = l.pivot ∧ (l.updated values ids).parent = l.parent ∧
      (l.updated values ids).related = l.related := by
  rw [Link.updated]
  split_ifs <;> exact ⟨rfl, rfl, rfl⟩

/-- A graph in which some nodes or edges had properties set, and nothing else was done. -/
structure Cypher.Graph.Sets (g : Graph) (entity : ℕ → Entity) (values : Row) (ids : Set ℕ)
    (g' : Graph) : Prop where
  elements : g.SameElements g'
  set : ∀ p ∈ ids, Fields.get? ((entity p).properties g') =
    Cypher.overlay values (Fields.get? ((entity p).properties g))
  other : ∀ x, x ∉ entity '' ids → x.properties g' = x.properties g

/-- Graphs with the same nodes. -/
structure Cypher.Graph.SameNodes (g g' : Graph) : Prop where
  nodes : g'.nodes = g.nodes
  labels : g'.labels = g.labels
  ofNode : g'.ofNode = g.ofNode

/-- Graphs that differ in the nodes of one label alone. -/
structure Cypher.Graph.Around (label : String) (g g' : Graph) : Prop where
  edges : g'.edges = g.edges
  edgeType : g'.edgeType = g.edgeType
  source : g'.source = g.source
  target : g'.target = g.target
  ofEdge : g'.ofEdge = g.ofEdge
  mem : ∀ i, (i ∈ g'.nodes ∧ label ∉ g'.labels i) ↔ (i ∈ g.nodes ∧ label ∉ g.labels i)
  same : ∀ i ∈ g.nodes, label ∉ g.labels i → g'.labels i = g.labels i ∧ g'.ofNode i = g.ofNode i
  labels : ∀ i ∈ g'.nodes, label ∈ g'.labels i →
    (∃ p ∈ g.nodes, label ∈ g.labels p ∧ g'.labels i = g.labels p) ∨ g'.labels i = [label]

namespace Cypher.Graph

variable {g g' g'' : Graph}

namespace SameNodes

lemma labelled (h : g.SameNodes g') (label : String) : g'.labelled label = g.labelled label := by
  rw [Graph.labelled, Graph.labelled, h.nodes, h.labels]

lemma value (h : g.SameNodes g') (i : ℕ) (name : String) : g'.value i name = g.value i name := by
  rw [Graph.value, Graph.value, h.ofNode]

end SameNodes

/-- No node of one label has the other one. -/
def Apart (g : Graph) (label other : String) : Prop :=
  ∀ i ∈ g.nodes, label ∈ g.labels i → other ∉ g.labels i

lemma mem_labelled {label : String} {i : ℕ} :
    i ∈ g.labelled label ↔ i ∈ g.nodes ∧ label ∈ g.labels i := by
  simp [labelled]

namespace Around

variable {label : String}

lemma trans (h : g.Around label g') (h' : g'.Around label g'') : g.Around label g'' where
  edges := h'.edges.trans h.edges
  edgeType := h'.edgeType.trans h.edgeType
  source := h'.source.trans h.source
  target := h'.target.trans h.target
  ofEdge := h'.ofEdge.trans h.ofEdge
  mem i := (h'.mem i).trans (h.mem i)
  same i hi hlabel := by
    obtain ⟨hi', hlabel'⟩ := (h.mem i).mpr ⟨hi, hlabel⟩
    obtain ⟨hlabels, hproperties⟩ := h'.same i hi' hlabel'
    obtain ⟨hlabels', hproperties'⟩ := h.same i hi hlabel
    exact ⟨hlabels.trans hlabels', hproperties.trans hproperties'⟩
  labels i hi hlabel := by
    rcases h'.labels i hi hlabel with ⟨p, hp, hlabelp, heq⟩ | heq
    · rcases h.labels p hp hlabelp with ⟨q, hq, hlabelq, heq'⟩ | heq'
      · exact .inl ⟨q, hq, hlabelq, heq.trans heq'⟩
      · exact .inr (heq.trans heq')
    · exact .inr heq

lemma apart (h : g.Around label g') {other : String} (hother : other ≠ label)
    (hapart : g.Apart label other) : g'.Apart label other := by
  intro i hi hlabel
  rcases h.labels i hi hlabel with ⟨p, hp, hlabelp, heq⟩ | heq
  · rw [heq]
    exact hapart p hp hlabelp
  · simpa [heq] using hother

/-- Nodes of a label that is kept apart are not touched. -/
lemma mem_labelled (h : g.Around label g') {other : String} (hother : other ≠ label)
    (hapart : g.Apart label other) {i : ℕ} : i ∈ g'.labelled other ↔ i ∈ g.labelled other := by
  have hapart' := h.apart hother hapart
  rw [Graph.mem_labelled, Graph.mem_labelled]
  constructor
  · rintro ⟨hi, hmem⟩
    obtain ⟨hi', hlabel⟩ := (h.mem i).mp ⟨hi, fun hlabel => hapart' i hi hlabel hmem⟩
    exact ⟨hi', (h.same i hi' hlabel).1 ▸ hmem⟩
  · rintro ⟨hi, hmem⟩
    have hlabel : label ∉ g.labels i := fun hlabel => hapart i hi hlabel hmem
    exact ⟨((h.mem i).mpr ⟨hi, hlabel⟩).1, (h.same i hi hlabel).1 ▸ hmem⟩

lemma value (h : g.Around label g') {other : String} (hapart : g.Apart label other) {i : ℕ}
    (hi : i ∈ g.labelled other) (name : String) : g'.value i name = g.value i name := by
  obtain ⟨hi, hmem⟩ := Graph.mem_labelled.mp hi
  rw [Graph.value, Graph.value, (h.same i hi fun hlabel => hapart i hi hlabel hmem).2]

lemma between (h : g.Around label g') (edgeType : String) (direction : Cypher.Direction)
    (i j : ℕ) : g'.between edgeType direction i j = g.between edgeType direction i j := by
  rw [Graph.between, Graph.between, h.edges, h.edgeType]
  cases direction <;> simp only [joins, h.source, h.target]

end Around

/-- Without some nodes of the label, a graph is the same around it. -/
lemma around_withoutNodes {label : String} {ids : List ℕ} (hids : ∀ i ∈ ids, label ∈ g.labels i)
    (hedges : ∀ e ∈ g.edges, g.source e ∉ ids ∧ g.target e ∉ ids) :
    g.Around label (g.withoutNodes ids) where
  edges := List.filter_eq_self.mpr fun e he => by simpa using hedges e he
  edgeType := rfl
  source := rfl
  target := rfl
  ofEdge := rfl
  mem i := by
    simp only [withoutNodes, List.mem_filter, decide_eq_true_eq]
    exact ⟨fun h => ⟨h.1.1, h.2⟩, fun h => ⟨⟨h.1, fun hi => h.2 (hids i hi)⟩, h.2⟩⟩
  same _ _ _ := ⟨rfl, rfl⟩
  labels i hi hlabel := .inl ⟨i, List.mem_of_mem_filter hi, hlabel, rfl⟩

lemma AddsNodes.around {label : String} {ids : List ℕ} (h : g.AddsNodes [label] ids g') :
    g.Around label g' where
  edges := h.edges
  edgeType := h.edgeType
  source := h.source
  target := h.target
  ofEdge := h.ofEdge
  mem i := by
    rw [h.nodes, List.mem_append]
    constructor
    · rintro ⟨hi | hi, hlabel⟩
      · exact ⟨hi, h.labels_old i hi ▸ hlabel⟩
      · exact absurd (h.labels_new i hi ▸ List.mem_singleton_self label) hlabel
    · rintro ⟨hi, hlabel⟩
      exact ⟨.inl hi, (h.labels_old i hi).symm ▸ hlabel⟩
  same i hi _ := ⟨h.labels_old i hi, h.ofNode_old i hi⟩
  labels i hi hlabel := by
    rcases List.mem_append.mp (h.nodes ▸ hi) with hi | hi
    · exact .inl ⟨i, hi, h.labels_old i hi ▸ hlabel, h.labels_old i hi⟩
    · exact .inr (h.labels_new i hi)

lemma AddsNodes.mem_labelled {label : String} {ids : List ℕ} (h : g.AddsNodes [label] ids g')
    {i : ℕ} : i ∈ g'.labelled label ↔ i ∈ g.labelled label ∨ i ∈ ids := by
  rw [Graph.mem_labelled, Graph.mem_labelled, h.nodes, List.mem_append]
  constructor
  · rintro ⟨hi | hi, hmem⟩
    · exact .inl ⟨hi, h.labels_old i hi ▸ hmem⟩
    · exact .inr hi
  · rintro (⟨hi, hmem⟩ | hi)
    · exact ⟨.inl hi, (h.labels_old i hi).symm ▸ hmem⟩
    · exact ⟨.inr hi, (h.labels_new i hi).symm ▸ List.mem_singleton_self label⟩

/-- Where only nodes of the label have other properties, a graph is the same around it. -/
lemma SameElements.around {label : String} (h : g.SameElements g') (hedges : g'.ofEdge = g.ofEdge)
    (hnodes : ∀ i ∈ g.nodes, label ∉ g.labels i → g'.ofNode i = g.ofNode i) :
    g.Around label g' where
  edges := h.edges
  edgeType := h.edgeType
  source := h.source
  target := h.target
  ofEdge := hedges
  mem i := by rw [h.nodes, h.labels]
  same i hi hlabel := ⟨by rw [h.labels], hnodes i hi hlabel⟩
  labels i hi hlabel := .inl ⟨i, h.nodes ▸ hi, h.labels ▸ hlabel, by rw [h.labels]⟩

/-- Where only nodes of the label had properties set, a graph is the same around it. -/
lemma Sets.around {label : String} {values : Row} {ids : Set ℕ} (h : g.Sets .node values ids g')
    (hids : ∀ p ∈ ids, label ∈ g.labels p) : g.Around label g' := by
  refine h.elements.around ?_ fun i hi hlabel => ?_
  · funext e
    exact h.other (.edge e) fun ⟨p, _, heq⟩ => by cases heq
  · refine h.other (.node i) fun ⟨p, hp, heq⟩ => hlabel ?_
    obtain rfl := Entity.node.inj heq
    exact hids p hp

/-- Where only edges had properties set, the nodes are the same. -/
lemma Sets.sameNodes {values : Row} {ids : Set ℕ} (h : g.Sets .edge values ids g') :
    g.SameNodes g' where
  nodes := h.elements.nodes
  labels := h.elements.labels
  ofNode := funext fun i => h.other (.node i) fun ⟨p, _, heq⟩ => by cases heq

end Cypher.Graph

/-! ### Links of such graphs -/

namespace Pivot

variable {spec : Pivot} {g g' : Graph}

lemma mem_links {l : Link} :
    l ∈ spec.links g ↔ l.pivot ∈ g.labelled spec.label ∧ spec.linkOf g l.pivot = l :=
  ⟨by rintro ⟨p, hp, rfl⟩; exact ⟨hp, rfl⟩, fun h => ⟨l.pivot, h.1, h.2⟩⟩

/-- A node is one link. -/
lemma links_injOn : Set.InjOn Link.pivot (spec.links g) := by
  intro l hl m hm hpivot
  rw [← (mem_links.mp hl).2, ← (mem_links.mp hm).2, hpivot]

lemma links_sameNodes (h : g.SameNodes g') : spec.links g' = spec.links g := by
  have hlink : spec.linkOf g' = spec.linkOf g := by
    funext p
    rw [linkOf, linkOf, h.value, h.value, h.ofNode]
  rw [links, links, hlink, h.labelled]

lemma links_withoutNodes (ids : List ℕ) :
    spec.links (g.withoutNodes ids) = {l ∈ spec.links g | l.pivot ∉ ids} := by
  ext l
  have hlabelled : l.pivot ∈ (g.withoutNodes ids).labelled spec.label ↔
      l.pivot ∈ g.labelled spec.label ∧ l.pivot ∉ ids := by
    simp only [Graph.mem_labelled, Graph.withoutNodes, List.mem_filter, decide_eq_true_eq]
    tauto
  rw [mem_links, hlabelled, Set.mem_ofPred_eq, mem_links]
  exact and_right_comm

/-- Properties other than the keys are set link by link. -/
lemma links_sets {values : Row} {ids : Set ℕ} (h : g.Sets .node values ids g')
    (hparent : spec.parentReference ∉ Fields.names values)
    (hrelated : spec.relatedReference ∉ Fields.names values) :
    spec.links g' = Link.updated values ids '' spec.links g := by
  have hlink (p : ℕ) : spec.linkOf g' p = (spec.linkOf g p).updated values ids := by
    rw [Link.updated]
    split_ifs with hp
    · have hset : Fields.get? (g'.ofNode p) = Cypher.overlay values (Fields.get? (g.ofNode p)) :=
        h.set p hp
      simp only [linkOf, Link.overlaid, Graph.value, hset, Cypher.overlay_of_notMem hparent,
        Cypher.overlay_of_notMem hrelated]
    · have hother : g'.ofNode p = g.ofNode p := h.other (.node p) fun ⟨q, hq, heq⟩ => by
        obtain rfl := Entity.node.inj heq
        exact hp hq
      rw [linkOf, linkOf, Graph.value, Graph.value, hother]
      rfl
  rw [links, links, h.elements.labelled, Set.image_image]
  exact Set.image_congr fun p _ => hlink p

end Pivot

namespace Wiring

variable {w : Wiring} {g g' : Graph}

lemma links_withoutEdges (ids : List ℕ) :
    w.links (g.withoutEdges ids) = {l ∈ w.links g | l.pivot ∉ ids} := by
  have hbetween (i j e : ℕ) :
      e ∈ (g.withoutEdges ids).between w.edge.edgeType w.edge.direction i j ↔
        e ∈ g.between w.edge.edgeType w.edge.direction i j ∧ e ∉ ids := by
    have hjoins : (g.withoutEdges ids).joins w.edge.direction i j e =
        g.joins w.edge.direction i j e := by
      cases w.edge.direction <;> rfl
    rw [Graph.between, Graph.between, List.mem_filter, List.mem_filter, hjoins]
    simp only [Graph.withoutEdges, List.mem_filter, decide_eq_true_eq]
    exact and_right_comm
  ext l
  constructor
  · rintro ⟨i, j, e, ⟨hi, hj, he⟩, rfl⟩
    obtain ⟨he, hne⟩ := (hbetween i j e).mp he
    exact ⟨⟨i, j, e, ⟨hi, hj, he⟩, rfl⟩, hne⟩
  · rintro ⟨⟨i, j, e, ⟨hi, hj, he⟩, rfl⟩, hne⟩
    exact ⟨i, j, e, ⟨hi, hj, (hbetween i j e).mpr ⟨he, hne⟩⟩, rfl⟩

/-- Properties of edges are set link by link. -/
lemma links_sets {values : Row} {ids : Set ℕ} (h : g.Sets .edge values ids g') :
    w.links g' = Link.updated values ids '' w.links g := by
  have hnode (i : ℕ) : g'.ofNode i = g.ofNode i := h.other (.node i) fun ⟨q, _, heq⟩ => by cases heq
  have hjoins (i j e : ℕ) : w.Joins g' i j e ↔ w.Joins g i j e := by
    constructor <;> rintro ⟨hi, hj, he⟩
    · rw [h.elements.labelled] at hi hj
      rw [h.elements.between] at he
      exact ⟨hi, hj, he⟩
    · rw [← h.elements.labelled] at hi hj
      rw [← h.elements.between] at he
      exact ⟨hi, hj, he⟩
  have hlink (i j e : ℕ) : w.linkOf g' i j e = (w.linkOf g i j e).updated values ids := by
    rw [Link.updated]
    split_ifs with he
    · have hset : Fields.get? (g'.ofEdge e) = Cypher.overlay values (Fields.get? (g.ofEdge e)) :=
        h.set e he
      simp only [linkOf, Link.overlaid, Graph.value, hnode, hset]
    · have hother : g'.ofEdge e = g.ofEdge e := h.other (.edge e) fun ⟨q, hq, heq⟩ => by
        obtain rfl := Entity.edge.inj heq
        exact he hq
      rw [linkOf, linkOf, Graph.value, Graph.value, hnode, hnode, hother]
      rfl
  ext l
  constructor
  · rintro ⟨i, j, e, hje, rfl⟩
    exact ⟨w.linkOf g i j e, ⟨i, j, e, (hjoins i j e).mp hje, rfl⟩, (hlink i j e).symm⟩
  · rintro ⟨_, ⟨i, j, e, hje, rfl⟩, rfl⟩
    exact ⟨i, j, e, (hjoins i j e).mpr hje, hlink i j e⟩

/-- Nodes of a label that is kept apart are no part of these links. -/
lemma links_around {label : String} (h : g.Around label g') (hparent : w.parentLabel ≠ label)
    (hrelated : w.relatedLabel ≠ label) (hp : g.Apart label w.parentLabel)
    (hr : g.Apart label w.relatedLabel) : w.links g' = w.links g := by
  have hjoins (i j e : ℕ) : w.Joins g' i j e ↔ w.Joins g i j e := by
    constructor <;> rintro ⟨hi, hj, he⟩
    · rw [h.between] at he
      exact ⟨(h.mem_labelled hparent hp).mp hi, (h.mem_labelled hrelated hr).mp hj, he⟩
    · rw [← h.between] at he
      exact ⟨(h.mem_labelled hparent hp).mpr hi, (h.mem_labelled hrelated hr).mpr hj, he⟩
  have hlink {i j e : ℕ} (hje : w.Joins g i j e) : w.linkOf g' i j e = w.linkOf g i j e := by
    rw [linkOf, linkOf, h.value hp hje.parent, h.value hr hje.related, h.ofEdge]
  ext l
  constructor
  · rintro ⟨i, j, e, hje, rfl⟩
    have hje := (hjoins i j e).mp hje
    exact ⟨i, j, e, hje, (hlink hje).symm⟩
  · rintro ⟨i, j, e, hje, rfl⟩
    exact ⟨i, j, e, (hjoins i j e).mpr hje, hlink hje⟩

end Wiring

end GraphMapper
