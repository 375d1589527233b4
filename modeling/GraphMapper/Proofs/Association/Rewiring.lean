import GraphMapper.Proofs.Association.Statement

/-!
What writing the waiting changes of a record does to a graph.

* `Graph.SameEdge`, `Graph.Rewires` (**the frame**): the edges of one node along some relations and some of
  its properties may be others, everything else is as it was; `Rewires.refl`, `Rewires.trans`,
  `Rewires.holding`, `Rewires.joins`: what follows from it;
* `playLinks`: the graph after statements of which some have to return a row;
* `EdgeChange.Known`, `EdgeChange.Wrote`: the nodes that a change speaks of are there, and what is left of
  the change; `EdgeChange.Known.cut`, `join`, `clear`: what each of its statements does, and
  `EdgeChange.Known.run`: what they do together;
* `EdgeChange.Apart`: changes along relations that do not get in each other's way;
* `EdgeChange.run_all` (**all changes are written**): the statements of such changes.
-/

namespace GraphMapper

open Cypher (Answer Entity Graph Interpretation State Statement)

/-! ### The frame -/

namespace Cypher.Graph

/-- An edge is what it was. -/
structure SameEdge (g g' : Graph) (e : ℕ) : Prop where
  edgeType : g'.edgeType e = g.edgeType e
  source : g'.source e = g.source e
  target : g'.target e = g.target e
  ofEdge : g'.ofEdge e = g.ofEdge e

/-- **The edges of a node are exchanged** along some relations, and some of its properties are set;
all else is as it was. -/
structure Rewires (g : Graph) (ws : List Wiring) (columns : List String) (i : ℕ) (g' : Graph) :
    Prop where
  nodes : g'.nodes = g.nodes
  labels : g'.labels = g.labels
  ofNode : ∀ p, p ≠ i → g'.ofNode p = g.ofNode p
  properties : ∀ name, name ∉ columns →
    Fields.get? (g'.ofNode i) name = Fields.get? (g.ofNode i) name
  kept : ∀ e, (e ∈ g'.edges ∧ ∀ w ∈ ws, ¬ w.At g' i e) ↔ (e ∈ g.edges ∧ ∀ w ∈ ws, ¬ w.At g i e)
  same : ∀ e ∈ g.edges, (∀ w ∈ ws, ¬ w.At g i e) → g.SameEdge g' e

variable {g g' g'' : Graph} {ws ws' : List Wiring} {columns columns' : List String} {i : ℕ}
  {w : Wiring}

lemma SameEdge.mem_between {e : ℕ} (h : g.SameEdge g' e) (hmem : e ∈ g'.edges ↔ e ∈ g.edges)
    (edgeType : String) (direction : Cypher.Direction) (p q : ℕ) :
    e ∈ g'.between edgeType direction p q ↔ e ∈ g.between edgeType direction p q := by
  have hjoins : g'.joins direction p q e = g.joins direction p q e := by
    cases direction <;> simp only [Graph.joins, h.source, h.target]
  rw [Graph.between, Graph.between, List.mem_filter, List.mem_filter, hmem, h.edgeType, hjoins]

lemma SameEdge.trans {e : ℕ} (h : g.SameEdge g' e) (h' : g'.SameEdge g'' e) : g.SameEdge g'' e :=
  ⟨h'.edgeType.trans h.edgeType, h'.source.trans h.source, h'.target.trans h.target,
    h'.ofEdge.trans h.ofEdge⟩

namespace Rewires

lemma labelled (h : g.Rewires ws columns i g') (label : String) :
    g'.labelled label = g.labelled label := by
  rw [Graph.labelled, Graph.labelled, h.nodes, h.labels]

/-- An edge that is what it was joins what it joined. -/
lemma joins_of_sameEdge (hlabelled : ∀ label, g'.labelled label = g.labelled label) {e : ℕ}
    (h : g.SameEdge g' e) (hmem : e ∈ g'.edges ↔ e ∈ g.edges) (p q : ℕ) :
    w.Joins g' p q e ↔ w.Joins g p q e := by
  constructor
  · rintro ⟨hp, hq, he⟩
    exact ⟨hlabelled _ ▸ hp, hlabelled _ ▸ hq, (h.mem_between hmem ..).mp he⟩
  · rintro ⟨hp, hq, he⟩
    exact ⟨hlabelled _ ▸ hp, hlabelled _ ▸ hq, (h.mem_between hmem ..).mpr he⟩

/-- What an edge elsewhere joins. -/
lemma joins_elsewhere (h : g.Rewires ws columns i g') {e : ℕ} (he : e ∈ g.edges)
    (hapart : ∀ w ∈ ws, ¬ w.At g i e) (p q : ℕ) : w.Joins g' p q e ↔ w.Joins g p q e :=
  joins_of_sameEdge h.labelled (h.same e he hapart)
    ⟨fun _ => he, fun _ => ((h.kept e).mpr ⟨he, hapart⟩).1⟩ p q

lemma refl (g : Graph) (ws : List Wiring) (columns : List String) (i : ℕ) :
    g.Rewires ws columns i g :=
  ⟨rfl, rfl, fun _ _ => rfl, fun _ _ => rfl, fun _ => Iff.rfl, fun _ _ _ => ⟨rfl, rfl, rfl, rfl⟩⟩

/-- More edges and properties may be others. -/
lemma mono (h : g.Rewires ws columns i g') (hws : ws ⊆ ws') (hcolumns : columns ⊆ columns') :
    g.Rewires ws' columns' i g' where
  nodes := h.nodes
  labels := h.labels
  ofNode := h.ofNode
  properties name hname := h.properties name fun hmem => hname (hcolumns hmem)
  kept e := by
    constructor
    · rintro ⟨he, hapart⟩
      obtain ⟨hg, hfirst⟩ := (h.kept e).mp ⟨he, fun w hw => hapart w (hws hw)⟩
      refine ⟨hg, fun w hw => ?_⟩
      rintro ⟨q, hjoins⟩
      exact hapart w hw ⟨q, (h.joins_elsewhere hg hfirst i q).mpr hjoins⟩
    · rintro ⟨hg, hapart⟩
      have hfirst : ∀ w ∈ ws, ¬ w.At g i e := fun w hw => hapart w (hws hw)
      refine ⟨((h.kept e).mpr ⟨hg, hfirst⟩).1, fun w hw => ?_⟩
      rintro ⟨q, hjoins⟩
      exact hapart w hw ⟨q, (h.joins_elsewhere hg hfirst i q).mp hjoins⟩
  same e he hapart := h.same e he fun w hw => hapart w (hws hw)

/-- One after the other, along the same relations. -/
lemma comp (h : g.Rewires ws columns i g') (h' : g'.Rewires ws columns i g'') :
    g.Rewires ws columns i g'' where
  nodes := h'.nodes.trans h.nodes
  labels := h'.labels.trans h.labels
  ofNode p hp := (h'.ofNode p hp).trans (h.ofNode p hp)
  properties name hname := (h'.properties name hname).trans (h.properties name hname)
  kept e := (h'.kept e).trans (h.kept e)
  same e he hapart := by
    obtain ⟨he', hapart'⟩ := (h.kept e).mpr ⟨he, hapart⟩
    exact (h.same e he hapart).trans (h'.same e he' hapart')

/-- One after the other. -/
lemma trans (h : g.Rewires ws columns i g') (h' : g'.Rewires ws' columns' i g'') :
    g.Rewires (ws ++ ws') (columns ++ columns') i g'' :=
  (h.mono (List.subset_append_left ..) (List.subset_append_left ..)).comp
    (h'.mono (List.subset_append_right ..) (List.subset_append_right ..))

/-- The nodes that have a value are the same, unless it is one of a property that may be another. -/
lemma holding (h : g.Rewires ws columns i g') {label column : String}
    (hspared : column ∈ columns → i ∉ g.labelled label) (v : Value) :
    g'.holding label column v = g.holding label column v := by
  rw [Graph.holding, Graph.holding, h.labelled]
  refine List.filter_congr fun p hp => ?_
  have hvalue : g'.value p column = g.value p column := by
    rw [Graph.value, Graph.value]
    by_cases hpi : p = i
    · subst hpi
      rw [h.properties column fun hmem => hspared hmem hp]
    · rw [h.ofNode p hpi]
  rw [hvalue]

/-- Edges of another type join what they joined. -/
lemma joins (h : g.Rewires ws columns i g')
    (htypes : ∀ w' ∈ ws, w'.edge.edgeType ≠ w.edge.edgeType) (p q e : ℕ) :
    w.Joins g' p q e ↔ w.Joins g p q e := by
  -- an edge of the type of `w` is at the node along none of the relations
  have hother (g : Graph) (he : w.Joins g p q e) : ∀ w' ∈ ws, ¬ w'.At g i e := by
    rintro w' hw' ⟨q', hjoins⟩
    have htype {w : Wiring} {p q : ℕ} (h : w.Joins g p q e) : g.edgeType e = w.edge.edgeType := by
      have h := (List.mem_filter.mp h.edge).2
      rw [Bool.and_eq_true, decide_eq_true_eq] at h
      exact h.1
    exact htypes w' hw' ((htype hjoins).symm.trans (htype he))
  constructor
  · intro he
    obtain ⟨hg, hapart⟩ := (h.kept e).mp ⟨List.mem_of_mem_filter he.edge, hother g' he⟩
    exact (h.joins_elsewhere hg hapart p q).mp he
  · intro he
    exact (h.joins_elsewhere (List.mem_of_mem_filter he.edge) (hother g he) p q).mpr he

end Rewires

/-! ### Statements inside the frame -/

lemma mem_edges_withoutEdges {ids : List ℕ} {e : ℕ} :
    e ∈ (g.withoutEdges ids).edges ↔ e ∈ g.edges ∧ e ∉ ids := by
  simp [withoutEdges]

/-- What is left joins what it joined. -/
lemma joins_withoutEdges {ids : List ℕ} {p q e : ℕ} :
    w.Joins (g.withoutEdges ids) p q e ↔ w.Joins g p q e ∧ e ∉ ids := by
  have hbetween : e ∈ (g.withoutEdges ids).between w.edge.edgeType w.edge.direction p q ↔
      e ∈ g.between w.edge.edgeType w.edge.direction p q ∧ e ∉ ids := by
    have hjoins : (g.withoutEdges ids).joins w.edge.direction p q e =
        g.joins w.edge.direction p q e := by
      cases w.edge.direction <;> rfl
    rw [between, between, List.mem_filter, List.mem_filter, mem_edges_withoutEdges, hjoins,
      and_right_comm]
    rfl
  constructor
  · rintro ⟨hp, hq, he⟩
    obtain ⟨he, hids⟩ := hbetween.mp he
    exact ⟨⟨hp, hq, he⟩, hids⟩
  · rintro ⟨⟨hp, hq, he⟩, hids⟩
    exact ⟨hp, hq, hbetween.mpr ⟨he, hids⟩⟩

/-- The edges of a node along a relation go. -/
lemma rewires_withoutEdges {ids : List ℕ} (hids : ∀ e, e ∈ ids ↔ w.At g i e) :
    g.Rewires [w] [] i (g.withoutEdges ids) ∧ ∀ e, ¬ w.At (g.withoutEdges ids) i e := by
  have hnone : ∀ e, ¬ w.At (g.withoutEdges ids) i e := by
    rintro e ⟨q, hjoins⟩
    obtain ⟨hjoins, hmem⟩ := joins_withoutEdges.mp hjoins
    exact hmem ((hids e).mpr ⟨q, hjoins⟩)
  refine ⟨⟨rfl, rfl, fun _ _ => rfl, fun _ _ => rfl, fun e => ?_,
    fun _ _ _ => ⟨rfl, rfl, rfl, rfl⟩⟩, hnone⟩
  rw [List.forall_mem_singleton, List.forall_mem_singleton, mem_edges_withoutEdges, hids]
  exact ⟨fun h => h.1, fun h => ⟨h, hnone e⟩⟩

/-- An edge is made at a node that has none along a relation. -/
lemma AddsEdges.rewires {j e : ℕ}
    (h : g.AddsEdges w.edge.edgeType [(w.edge.direction.ends i j, e)] g')
    (hi : i ∈ g.labelled w.parentLabel) (hj : j ∈ g.labelled w.relatedLabel)
    (hnone : ∀ e, ¬ w.At g i e) :
    g.Rewires [w] [] i g' ∧ ∀ q e', w.Joins g' i q e' ↔ q = j ∧ e' = e := by
  have hlabelled (label : String) : g'.labelled label = g.labelled label := by
    rw [Graph.labelled, Graph.labelled, h.nodes, h.labels]
  have hmem (e' : ℕ) : e' ∈ g'.edges ↔ e' ∈ g.edges ∨ e' = e := by
    rw [h.edges, List.mem_append, List.map_singleton, List.mem_singleton]
  have hmade : (w.edge.direction.ends i j, e) ∈ [(w.edge.direction.ends i j, e)] :=
    List.mem_singleton_self _
  have hends := between_of_ends h hmade
  have hold {e' : ℕ} (he : e' ∈ g.edges) : g.SameEdge g' e' :=
    ⟨(h.old e' he).1, (h.old e' he).2.1, (h.old e' he).2.2.1, (h.old e' he).2.2.2⟩
  have hnew : w.Joins g' i j e := ⟨hlabelled _ ▸ hi, hlabelled _ ▸ hj, (hends i j).mpr (.inl rfl)⟩
  have hjoins (q e' : ℕ) : w.Joins g' i q e' ↔ q = j ∧ e' = e := by
    constructor
    · intro hq
      rcases (hmem e').mp (List.mem_of_mem_filter hq.edge) with he | rfl
      · exact absurd ⟨q, (Rewires.joins_of_sameEdge hlabelled (hold he)
          ⟨fun _ => he, fun _ => (hmem e').mpr (.inl he)⟩ i q).mp hq⟩ (hnone e')
      · rcases (hends i q).mp hq.edge with heq | ⟨-, heq⟩
        · exact ⟨(Prod.mk.inj heq).2, rfl⟩
        · obtain ⟨rfl, rfl⟩ := Prod.mk.inj heq
          exact ⟨rfl, rfl⟩
    · rintro ⟨rfl, rfl⟩
      exact hnew
  refine ⟨⟨h.nodes, h.labels, fun p _ => by rw [h.ofNode], fun _ _ => by rw [h.ofNode],
    fun e' => ?_, fun e' he _ => hold he⟩, hjoins⟩
  rw [List.forall_mem_singleton, List.forall_mem_singleton]
  constructor
  · rintro ⟨he, hapart⟩
    rcases (hmem e').mp he with he | rfl
    · exact ⟨he, hnone e'⟩
    · exact absurd ⟨j, hnew⟩ hapart
  · rintro ⟨he, -⟩
    refine ⟨(hmem e').mpr (.inl he), ?_⟩
    rintro ⟨q, hq⟩
    obtain ⟨-, rfl⟩ := (hjoins q e').mp hq
    exact h.notMem (List.mem_singleton_self _) he

/-- Properties of the node are set. -/
lemma Sets.rewires {values : Row} {ids : Set ℕ} (h : g.Sets .node values ids g') (hids : ids ⊆ {i}) :
    g.Rewires [] (Fields.names values) i g' ∧
      ∀ w : Wiring, ∀ p q e, w.Joins g' p q e ↔ w.Joins g p q e := by
  have hedge (e : ℕ) : g'.ofEdge e = g.ofEdge e := h.other (.edge e) fun ⟨_, _, heq⟩ => by cases heq
  have hnode {p : ℕ} (hp : p ∉ ids) : g'.ofNode p = g.ofNode p :=
    h.other (.node p) fun ⟨p', hp', heq⟩ => hp (Entity.node.inj heq ▸ hp')
  have hsame (e : ℕ) : g.SameEdge g' e :=
    ⟨by rw [h.elements.edgeType], by rw [h.elements.source], by rw [h.elements.target], hedge e⟩
  refine ⟨⟨h.elements.nodes, h.elements.labels, fun p hp => hnode fun hmem => hp (hids hmem),
    fun name hname => ?_, fun e => by rw [h.elements.edges]; simp, fun e _ _ => hsame e⟩,
    fun w p q e => Rewires.joins_of_sameEdge h.elements.labelled (hsame e)
      (by rw [h.elements.edges]) p q⟩
  by_cases hi : i ∈ ids
  · exact (congrFun (h.set i hi) name).trans (Cypher.overlay_of_notMem hname)
  · rw [hnode hi]

end Cypher.Graph

/-! ### Statements that have to return rows -/

/-- The graph after statements one after the other; there is none if one of them is refused, or links and
returns no row. -/
def playLinks (I : Interpretation) : List LinkStatement → Graph → Option Graph
  | [], g => some g
  | s :: rest, g => (s.statement.run I g).bind fun st =>
    if s.linksTo.isSome && (st.answers.getD []).isEmpty then none else playLinks I rest st.graph

section PlayLinks

variable {I : Interpretation} {g g' : Graph}

lemma playLinks_cons {s : LinkStatement} {st : State} (hrun : s.statement.run I g = some st)
    (hrow : s.linksTo.isSome → st.answers.getD [] ≠ []) (rest : List LinkStatement) :
    playLinks I (s :: rest) g = playLinks I rest st.graph := by
  rw [playLinks, hrun, Option.bind_some, if_neg]
  simpa using hrow

lemma playLinks_append {links : List LinkStatement} (h : playLinks I links g = some g')
    (more : List LinkStatement) : playLinks I (links ++ more) g = playLinks I more g' := by
  induction links generalizing g with
  | nil => rw [List.nil_append, Option.some.inj h]
  | cons s rest ih =>
      rw [List.cons_append, playLinks]
      rw [playLinks] at h
      obtain ⟨st, hrun, hrest⟩ := Option.bind_eq_some_iff.mp h
      rw [hrun, Option.bind_some]
      split_ifs at hrest ⊢
      exact ih hrest

end PlayLinks

/-! ### One change -/

namespace EdgeChange

/-- The value that a foreign key has after a change. -/
def key : EdgeChange → Value
  | .associate _ ownerKey => ownerKey
  | .dissociate _ => .null

/-- **The store knows what a change speaks of**: a record with the attributes is one node, and so is its
new owner. -/
structure Known (x : EdgeChange) (attributes : Row) (i : ℕ) (g : Graph) (w : Wiring) : Prop where
  tie : x.relation.tie? = some w
  plain : w.Plain
  foreign : ∀ column, x.relation.foreign? = some column → columnOwner column = ""
  record : ∃ v, attributes.get? w.parentKey = some v ∧
    g.holding w.parentLabel w.parentKey v = [i]
  owner : ∀ d k, x = .associate d k → ∃ j, g.holding w.relatedLabel w.relatedKey k = [j]

/-- **What is left of a change**: just one edge, to the new owner, or none, and a property that says the
same. -/
structure Wrote (x : EdgeChange) (w : Wiring) (i : ℕ) (g g' : Graph) : Prop where
  associated : ∀ d k, x = .associate d k → ∃ j e, g.holding w.relatedLabel w.relatedKey k = [j] ∧
    ∀ q e', w.Joins g' i q e' ↔ q = j ∧ e' = e
  dissociated : ∀ d, x = .dissociate d → ∀ e, ¬ w.At g' i e
  reference : ∀ column, x.relation.foreign? = some column → g'.value i column = x.key

variable {I : Interpretation} {g g' : Graph} {x : EdgeChange} {attributes : Row} {i : ℕ} {w : Wiring}

lemma names_reference (d : DirectRelation) (k : Value) :
    Fields.names (d.reference k) = d.foreign?.toList := by
  rw [DirectRelation.reference]
  cases d.foreign? <;> rfl

/-- A reference that is set is found. -/
lemma value_reference {d : DirectRelation} {k : Value} {ids : Set ℕ}
    (h : g.Sets .node (d.reference k) ids g') (hi : i ∈ ids) {column : String}
    (hcolumn : d.foreign? = some column) : g'.value i column = k := by
  have hset : Fields.get? (g'.ofNode i) = Cypher.overlay [(column, k)] (Fields.get? (g.ofNode i)) := by
    have hset := h.set i hi
    rwa [DirectRelation.reference, hcolumn] at hset
  rw [Graph.value, hset, Cypher.overlay, List.foldl_cons, List.foldl_nil, Function.update_self]
  cases k <;> rfl

/-- What is left of a change, where the same owners have the keys before. -/
lemma Wrote.of_holding {g₁ : Graph} (h : x.Wrote w i g₁ g')
    (howner : ∀ k, g₁.holding w.relatedLabel w.relatedKey k =
      g.holding w.relatedLabel w.relatedKey k) : x.Wrote w i g g' where
  associated d k hx := by
    obtain ⟨j, e, hj, hjoins⟩ := h.associated d k hx
    exact ⟨j, e, (howner k).symm.trans hj, hjoins⟩
  dissociated := h.dissociated
  reference := h.reference

namespace Known

lemma wiring_eq (h : x.Known attributes i g w) :
    x.relation.wiring w.edge w.parentKey w.relatedKey = w :=
  (DirectRelation.tie?_eq_some h.tie).2

/-- What a change speaks of is known where the same nodes have the keys. -/
lemma of_holding (h : x.Known attributes i g w)
    (hrecord : ∀ v, g'.holding w.parentLabel w.parentKey v = g.holding w.parentLabel w.parentKey v)
    (howner : ∀ k, g'.holding w.relatedLabel w.relatedKey k =
      g.holding w.relatedLabel w.relatedKey k) : x.Known attributes i g' w where
  tie := h.tie
  plain := h.plain
  foreign := h.foreign
  record := by
    obtain ⟨v, hv, hi⟩ := h.record
    exact ⟨v, hv, (hrecord v).trans hi⟩
  owner d k hx := by
    obtain ⟨j, hj⟩ := h.owner d k hx
    exact ⟨j, (howner k).trans hj⟩

/-- First the node's edges along the relation are taken away. -/
lemma cut (hI : I.EqualsJson) (h : x.Known attributes i g w) :
    ∃ v g₁, attributes.get? w.parentKey = some v ∧ v ≠ .null ∧
      g.holding w.parentLabel w.parentKey v = [i] ∧
      (∀ rest, playLinks I (⟨unlink x.relation w.edge w.parentKey v, none⟩ :: rest) g =
        playLinks I rest g₁) ∧
      g.Rewires [w] [] i g₁ ∧ ∀ e, ¬ w.At g₁ i e := by
  obtain ⟨v, hv, hi⟩ := h.record
  have hholds : i ∈ g.holding w.parentLabel w.parentKey v := hi ▸ List.mem_singleton_self i
  obtain ⟨ids, st, hunlink, hgraph, hids⟩ :=
    unlink_run hI x.relation w.edge w.relatedKey h.plain.parent v g
  have hlabel : x.relation.parentLabel = w.parentLabel := congrArg Wiring.parentLabel h.wiring_eq
  rw [h.wiring_eq, hlabel, hi] at hids
  obtain ⟨hcut, hnone⟩ := Graph.rewires_withoutEdges fun e =>
    (hids e).trans ⟨fun ⟨p, hp, he⟩ => List.mem_singleton.mp hp ▸ he,
      fun he => ⟨i, List.mem_singleton_self i, he⟩⟩
  rw [← hgraph] at hcut hnone
  exact ⟨v, st.graph, hv, (Graph.mem_holding.mp hholds).2.2, hi,
    playLinks_cons hunlink fun hsome => absurd hsome Bool.false_ne_true, hcut, hnone⟩

/-- Then the node is tied to its new owner. -/
lemma join (hI : I.EqualsJson) {d : DirectRelation} {k : Value}
    (h : (EdgeChange.associate d k).Known attributes i g w) {v : Value}
    (hi : g.holding w.parentLabel w.parentKey v = [i]) (hnone : ∀ e, ¬ w.At g i e) :
    ∃ g', playLinks I [⟨link d w.edge w.parentKey w.relatedKey v k, some (d.relatedLabel, k)⟩] g =
        some g' ∧
      g.Rewires [w] d.foreign?.toList i g' ∧ (EdgeChange.associate d k).Wrote w i g g' := by
  obtain ⟨j, hj⟩ := h.owner d k rfl
  have hwiring : d.wiring w.edge w.parentKey w.relatedKey = w := h.wiring_eq
  have hplain : (d.wiring w.edge w.parentKey w.relatedKey).Plain := hwiring.symm ▸ h.plain
  obtain ⟨made, g₁, st, answers, hlink, hanswers, hlength, hmade, hadds, hsets⟩ :=
    link_run hI hplain h.foreign v k g
  obtain ⟨e, rfl⟩ : ∃ e, made = [((i, j), e)] := by
    rw [hwiring, Wiring.couples, hi, hj] at hmade
    obtain ⟨⟨_, e⟩, rfl, rfl⟩ := List.map_eq_singleton_iff.mp hmade
    exact ⟨e, rfl⟩
  have hi' : i ∈ g.labelled w.parentLabel :=
    (Graph.mem_holding.mp (hi ▸ List.mem_singleton_self i)).1
  have hj' : j ∈ g.labelled w.relatedLabel :=
    (Graph.mem_holding.mp (hj ▸ List.mem_singleton_self j)).1
  obtain ⟨htied, hjoins⟩ := hadds.rewires hi' hj' hnone
  have hids : {p | ∃ m ∈ [((i, j), e)], m.1.1 = p} = {i} := by
    ext p
    simp [eq_comm]
  rw [hids] at hsets
  obtain ⟨hset, hjoins'⟩ := hsets.rewires subset_rfl
  rw [names_reference] at hset
  refine ⟨st.graph, ?_, (htied.mono (List.Subset.refl _) (List.nil_subset _)).comp
    (hset.mono (List.nil_subset _) (List.Subset.refl _)),
    ⟨?_, ?_, fun column hcolumn => value_reference hsets rfl hcolumn⟩⟩
  · rw [playLinks_cons hlink]
    · rfl
    · rw [hanswers]
      rintro - rfl
      cases hlength
  · rintro _ _ ⟨⟩
    exact ⟨j, e, hj, fun q e' => (hjoins' w i q e').trans (hjoins q e')⟩
  · rintro _ ⟨⟩

/-- Or else the node no longer refers to an owner. -/
lemma clear (hI : I.EqualsJson) {d : DirectRelation} {keys : Keys} (hkeys : d.strategy.keys? = some keys)
    (h : (EdgeChange.dissociate d).Known attributes i g w) {v : Value}
    (hi : g.holding w.parentLabel w.parentKey v = [i]) (hnone : ∀ e, ¬ w.At g i e) :
    ∃ g', playLinks I [⟨clearReference d keys w.parentKey v, none⟩] g = some g' ∧
      g.Rewires [w] d.foreign?.toList i g' ∧ (EdgeChange.dissociate d).Wrote w i g g' := by
  obtain ⟨st, hclear, hsets⟩ := clearReference_run hI hkeys h.plain.parent h.foreign v g
  have hids : {p | p ∈ g.holding d.parentLabel w.parentKey v} = {i} := by
    have hlabel : d.parentLabel = w.parentLabel := congrArg Wiring.parentLabel h.wiring_eq
    rw [hlabel, hi]
    ext p
    exact List.mem_singleton
  rw [hids] at hsets
  obtain ⟨hset, hjoins⟩ := hsets.rewires subset_rfl
  rw [names_reference] at hset
  refine ⟨st.graph, playLinks_cons hclear ?_ [],
    hset.mono (List.nil_subset _) (List.Subset.refl _),
    ⟨?_, ?_, fun column hcolumn => value_reference hsets rfl hcolumn⟩⟩
  · exact fun hsome => absurd hsome Bool.false_ne_true
  · rintro _ _ ⟨⟩
  · rintro _ - e ⟨q, hq⟩
    exact hnone e ⟨q, (hjoins w i q e).mp hq⟩

/-- A new owner. -/
lemma run_associate (hI : I.EqualsJson) {d : DirectRelation} {k : Value}
    (h : (EdgeChange.associate d k).Known attributes i g w) :
    ∃ links g', (EdgeChange.associate d k).statements attributes = .ok links ∧
      playLinks I links g = some g' ∧ g.Rewires [w] d.foreign?.toList i g' ∧
      (EdgeChange.associate d k).Wrote w i g g' := by
  obtain ⟨v, g₁, hv, hnull, hi, hfirst, hcut, hnone⟩ := h.cut hI
  have hheld (label column : String) (u : Value) :
      g₁.holding label column u = g.holding label column u :=
    hcut.holding (fun hmem => absurd hmem List.not_mem_nil) u
  obtain ⟨g', hplay, hjoin, hwrote⟩ :=
    (h.of_holding (hheld _ _) (hheld _ _)).join hI ((hheld _ _ v).trans hi) hnone
  exact ⟨_, g', statements_associate h.tie hv hnull k, (hfirst _).trans hplay,
    (hcut.mono (List.Subset.refl _) (List.nil_subset _)).comp hjoin, hwrote.of_holding (hheld _ _)⟩

/-- No owner any more. -/
lemma run_dissociate (hI : I.EqualsJson) {d : DirectRelation}
    (h : (EdgeChange.dissociate d).Known attributes i g w) :
    ∃ links g', (EdgeChange.dissociate d).statements attributes = .ok links ∧
      playLinks I links g = some g' ∧ g.Rewires [w] d.foreign?.toList i g' ∧
      (EdgeChange.dissociate d).Wrote w i g g' := by
  obtain ⟨v, g₁, hv, hnull, hi, hfirst, hcut, hnone⟩ := h.cut hI
  have hlinks := statements_dissociate (d := d) h.tie hv hnull
  cases hkeys : d.strategy.keys? with
  | none =>
      rw [hkeys] at hlinks
      have hforeign : d.foreign? = none := by rw [DirectRelation.foreign?, hkeys]; rfl
      refine ⟨_, g₁, hlinks, hfirst [], hcut.mono (List.Subset.refl _) (List.nil_subset _),
        ⟨?_, fun _ _ => hnone, fun column hcolumn => ?_⟩⟩
      · rintro _ _ ⟨⟩
      · cases hforeign.symm.trans hcolumn
  | some keys =>
      rw [hkeys] at hlinks
      have hheld (label column : String) (u : Value) :
          g₁.holding label column u = g.holding label column u :=
        hcut.holding (fun hmem => absurd hmem List.not_mem_nil) u
      obtain ⟨g', hplay, hclear, hwrote⟩ := (h.of_holding (hheld _ _) (hheld _ _)).clear hI hkeys
        ((hheld _ _ v).trans hi) hnone
      exact ⟨_, g', hlinks, (hfirst _).trans hplay,
        (hcut.mono (List.Subset.refl _) (List.nil_subset _)).comp hclear, hwrote.of_holding (hheld _ _)⟩

/-- **The statements of a change** take the node's edges along the relation away, and leave what the
change says. -/
theorem run (hI : I.EqualsJson) (h : x.Known attributes i g w) :
    ∃ links g', x.statements attributes = .ok links ∧ playLinks I links g = some g' ∧
      g.Rewires [w] x.relation.foreign?.toList i g' ∧ x.Wrote w i g g' := by
  cases x with
  | associate d k => exact h.run_associate hI
  | dissociate d => exact h.run_dissociate hI

end Known

/-! ### All changes -/

/-- **Two relations do not get in each other's way**, for a node of a graph: their edges have types of
their own, and the foreign key of the one is neither that of the other nor a column by which the other
knows the node, or nodes among which is this one. -/
structure Apart (i : ℕ) (g : Graph) (x y : EdgeChange) : Prop where
  types : ∀ w w', x.relation.tie? = some w → y.relation.tie? = some w' →
    w.edge.edgeType ≠ w'.edge.edgeType
  foreign : ∀ column, x.relation.foreign? = some column → y.relation.foreign? ≠ some column
  record : ∀ w, y.relation.tie? = some w → x.relation.foreign? ≠ some w.parentKey
  owner : ∀ w, y.relation.tie? = some w → x.relation.foreign? = some w.relatedKey →
    i ∉ g.labelled w.relatedLabel

/-- The relations of the changes, as edges. -/
def ties (changes : List EdgeChange) : List Wiring :=
  changes.filterMap (·.relation.tie?)

/-- The foreign keys of the changes. -/
def columns (changes : List EdgeChange) : List String :=
  changes.filterMap (·.relation.foreign?)

lemma ties_cons (hw : x.relation.tie? = some w) (rest : List EdgeChange) :
    ties (x :: rest) = [w] ++ ties rest := by
  rw [ties, List.filterMap_cons_some (f := fun y : EdgeChange => y.relation.tie?) hw]
  rfl

lemma columns_cons (x : EdgeChange) (rest : List EdgeChange) :
    columns (x :: rest) = x.relation.foreign?.toList ++ columns rest := by
  rw [columns, List.filterMap_cons]
  cases x.relation.foreign? <;> rfl

/-- What a change leaves goes on to be there while others are written. -/
lemma Wrote.mono {ws : List Wiring} {columns : List String} {g₁ : Graph} (h : x.Wrote w i g g₁)
    (hframe : g₁.Rewires ws columns i g')
    (htypes : ∀ w' ∈ ws, w'.edge.edgeType ≠ w.edge.edgeType)
    (hforeign : ∀ column, x.relation.foreign? = some column → column ∉ columns) :
    x.Wrote w i g g' where
  associated d k hx := by
    obtain ⟨j, e, hj, hjoins⟩ := h.associated d k hx
    exact ⟨j, e, hj, fun q e' => (hframe.joins htypes i q e').trans (hjoins q e')⟩
  dissociated d hx e := by
    rintro ⟨q, hq⟩
    exact h.dissociated d hx e ⟨q, (hframe.joins htypes i q e).mp hq⟩
  reference column hcolumn := by
    rw [← h.reference column hcolumn, Graph.value, Graph.value,
      hframe.properties column (hforeign column hcolumn)]

/-- What a change speaks of goes on to be known while another one is written. -/
lemma Known.mono {y : EdgeChange} (h : y.Known attributes i g w) (hapart : x.Apart i g y)
    {ws : List Wiring} (hframe : g.Rewires ws x.relation.foreign?.toList i g') :
    y.Known attributes i g' w ∧
      ∀ k, g'.holding w.relatedLabel w.relatedKey k = g.holding w.relatedLabel w.relatedKey k := by
  have howner (k : Value) :
      g'.holding w.relatedLabel w.relatedKey k = g.holding w.relatedLabel w.relatedKey k :=
    hframe.holding (fun hmem => hapart.owner w h.tie (Option.mem_toList.mp hmem)) k
  have hrecord (v : Value) :
      g'.holding w.parentLabel w.parentKey v = g.holding w.parentLabel w.parentKey v :=
    hframe.holding (fun hmem => absurd (Option.mem_toList.mp hmem) (hapart.record w h.tie)) v
  exact ⟨h.of_holding hrecord howner, howner⟩

/-- **All changes are written**, each as if it was the only one: their edges and their foreign keys say in
the end what the changes say, and nothing else is another. -/
theorem run_all (hI : I.EqualsJson) {changes : List EdgeChange}
    (hknown : ∀ x ∈ changes, ∃ w, x.Known attributes i g w)
    (hapart : changes.Pairwise (Apart i g)) :
    ∃ links g', changes.mapM (·.statements attributes) = .ok links ∧
      (∀ made ∈ links, ∃ x ∈ changes, x.statements attributes = .ok made) ∧
      playLinks I links.flatten g = some g' ∧ g.Rewires (ties changes) (columns changes) i g' ∧
      ∀ x ∈ changes, ∀ w, x.relation.tie? = some w → x.Wrote w i g g' := by
  induction changes generalizing g with
  | nil =>
      exact ⟨[], g, rfl, fun _ h => absurd h List.not_mem_nil, rfl, .refl g _ _ i,
        fun _ hx => absurd hx List.not_mem_nil⟩
  | cons x rest ih =>
      obtain ⟨w, hx⟩ := hknown x List.mem_cons_self
      obtain ⟨hfirst, hrest⟩ := List.pairwise_cons.mp hapart
      obtain ⟨links, g₁, hlinks, hplay, hframe, hwrote⟩ := hx.run hI
      have hknown' : ∀ y ∈ rest, ∃ w, y.Known attributes i g₁ w := fun y hy => by
        obtain ⟨w', hy'⟩ := hknown y (List.mem_cons_of_mem _ hy)
        exact ⟨w', (hy'.mono (hfirst y hy) hframe).1⟩
      have hapart' : rest.Pairwise (Apart i g₁) := hrest.imp fun h =>
        ⟨h.types, h.foreign, h.record, fun w hw hcolumn => hframe.labelled _ ▸ h.owner w hw hcolumn⟩
      obtain ⟨more, g', hmore, hmade, hplay', hframe', hwrote'⟩ := ih hknown' hapart'
      refine ⟨links :: more, g', ?_, List.forall_mem_cons.mpr
        ⟨⟨x, List.mem_cons_self, hlinks⟩, fun made hmem => ?_⟩, ?_, ?_, ?_⟩
      · rw [List.mapM_cons, hlinks, hmore]
        rfl
      · obtain ⟨y, hy, hstatements⟩ := hmade made hmem
        exact ⟨y, List.mem_cons_of_mem _ hy, hstatements⟩
      · rw [List.flatten_cons, playLinks_append hplay, hplay']
      · rw [ties_cons hx.tie, columns_cons]
        exact hframe.trans hframe'
      · intro y hy w' hw'
        rcases List.mem_cons.mp hy with rfl | hy
        · obtain rfl := Option.some.inj (hx.tie.symm.trans hw')
          refine hwrote.mono hframe' (fun w' hw' => ?_) fun column hcolumn hmem => ?_
          · obtain ⟨z, hz, hw'⟩ := List.mem_filterMap.mp hw'
            exact ((hfirst z hz).types w w' hx.tie hw').symm
          · obtain ⟨z, hz, hcolumn'⟩ := List.mem_filterMap.mp hmem
            exact (hfirst z hz).foreign column hcolumn hcolumn'
        · obtain ⟨w'', hknown⟩ := hknown y (List.mem_cons_of_mem _ hy)
          obtain rfl := Option.some.inj (hknown.tie.symm.trans hw')
          exact (hwrote' y hy w'' hw').of_holding (hknown.mono (hfirst y hy) hframe).2

end EdgeChange

end GraphMapper
