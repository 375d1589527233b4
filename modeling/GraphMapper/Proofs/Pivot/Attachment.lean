import GraphMapper.Proofs.Pivot.Statement

/-!
What the statements that make pivots do to a graph.

* `Pivot.attachment`, `Pivot.attach_run`: one new pivot node for each related key;
* `Wiring.pairs`: the pairs of a parent and a related node between which edges are made;
* `Wiring.attachment`, `Wiring.attach_run`: one new edge for each pair; without a direction, it is a
  link of the related node as well if that is a parent.

Each of the two has a lemma on what is made (`attachment_run`) and one on the links of a graph with that
(`links_of_gives`, `mem_links_of_gives`).
-/

namespace GraphMapper

open Cypher (Entity Env Graph Interpretation Match Pattern Property State Statement parameterRow
  parameterValue)

variable {I : Interpretation} {g : Graph} {params : Row}

/-! ### Making pivot nodes -/

namespace Pivot

variable {spec : Pivot} {k : Value}

/-- Makes pivot nodes. -/
def attachment (spec : Pivot) (k : Value) (keys : List Value) (attributes : Row) : Statement :=
  numbered [.array keys, .object (attributes.put spec.parentReference k)]
    [.unwind "p0" relatedKeyColumn,
      .create (nodePattern pivotVariable spec.label),
      .set [.replace pivotVariable "p1",
        .assign (DirectRelation.ofPivot spec.relatedReference) (.bound relatedKeyColumn)]]

/-- The key of the parent is written, whatever the attributes. -/
def Keyed (spec : Pivot) (k : Value) (attributes : Row) : Prop :=
  ∀ f, Cypher.overlay (attributes.put spec.parentReference k) f spec.parentReference = some k

/-- The properties of a pivot node that is made. -/
def written (spec : Pivot) (k v : Value) (attributes : Row) : Row :=
  Cypher.assignProperties (Cypher.assignProperties [] (attributes.put spec.parentReference k))
    [(spec.relatedReference, v)]

lemma get?_written (spec : Pivot) (k v : Value) (attributes : Row) :
    Fields.get? (spec.written k v attributes) =
      Function.update (Cypher.overlay (attributes.put spec.parentReference k) fun _ => none)
        spec.relatedReference (if v.isNull then none else some v) := by
  rw [written, Cypher.get?_assignProperties, Cypher.get?_assignProperties]
  rfl

/-- The row of a related key for which a pivot node was made. -/
def madeRow (v : Value) (p : ℕ) : Env :=
  (Env.empty.set relatedKeyColumn (.value v)).set pivotVariable (.node p)

/-- What is written row by row are changes, one for each pivot node. -/
lemma foldl_write_eq (hspec : spec.Plain) {params attributes : Row}
    (hp1 : parameterRow params "p1" = attributes.put spec.parentReference k)
    (made : List (Value × ℕ)) (g : Graph) :
    (made.map fun m => madeRow m.1 m.2).foldl (fun g env =>
      [Cypher.Change.replace pivotVariable "p1",
        .assign (DirectRelation.ofPivot spec.relatedReference) (.bound relatedKeyColumn)].foldl
          (fun g change => change.apply I params g env) g) g =
      g.changes (made.map fun m => (.node m.2, fun _ => spec.written k m.1 attributes)) := by
  rw [Graph.changes, List.foldl_map, List.foldl_map]
  congr 1
  funext g m
  have hpivot : madeRow m.1 m.2 pivotVariable = some (.node m.2) := rfl
  have hkey (g : Graph) :
      Cypher.Term.value I g params (madeRow m.1 m.2) (.bound relatedKeyColumn) = m.1 := by
    rw [Cypher.Term.value]
    rfl
  rw [List.foldl_cons, List.foldl_cons, List.foldl_nil, DirectRelation.ofPivot,
    ofColumn_of_columnOwner_eq hspec.related, Cypher.Change.apply, Cypher.Change.apply]
  simp only [hpivot, hkey, Option.elim_some, Graph.change_change, hp1]
  rfl

/-- The link that a pivot node is that was written. -/
lemma linkOf_written (hdistinct : spec.parentReference ≠ spec.relatedReference) {attributes : Row}
    (hattributes : spec.Keyed k attributes) {v : Value} {p : ℕ}
    (hp : g.ofNode p = spec.written k v attributes) :
    (spec.linkOf g p).parent = k ∧ (spec.linkOf g p).related = v ∧
      ∀ name, name ≠ spec.parentReference → name ≠ spec.relatedReference →
        (spec.linkOf g p).properties name =
          Cypher.overlay attributes (fun _ => none) name := by
  refine ⟨?_, ?_, fun name hparent hrelated => ?_⟩
  · change g.value p spec.parentReference = k
    rw [Graph.value, hp, get?_written, Function.update_of_ne hdistinct, hattributes]
    rfl
  · change g.value p spec.relatedReference = v
    rw [Graph.value, hp, get?_written, Function.update_self]
    cases v <;> rfl
  · change Fields.get? (g.ofNode p) name = _
    rw [hp, get?_written, Function.update_of_ne hrelated, Cypher.overlay_put_of_ne hparent]

/-- The statement makes a node for each related key, and gives it its properties. -/
lemma attachment_run (hspec : spec.Plain) (k : Value) (keys : List Value) (attributes : Row)
    (g : Graph) :
    ∃ made g₁ st, (spec.attachment k keys attributes).run I g = some st ∧
      made.map Prod.fst = keys ∧ g.AddsNodes [spec.label] (made.map Prod.snd) g₁ ∧
      g₁.Gives .node made (fun v => spec.written k v attributes) st.graph := by
  set s := spec.attachment k keys attributes with hs
  have hp0 : parameterValue s.parameters "p0" = .array keys := numbered_p0 _ _ _ _
  have hp1 : parameterRow s.parameters "p1" = attributes.put spec.parentReference k := by
    rw [parameterRow, hs, attachment, numbered_p1]
  have hsteps : s.steps = [.unwind "p0" relatedKeyColumn,
      .create (nodePattern pivotVariable spec.label),
      .set [.replace pivotVariable "p1",
        .assign (DirectRelation.ofPivot spec.relatedReference) (.bound relatedKeyColumn)]] := rfl
  obtain ⟨made, g₁, hcreate, hmade, hadds⟩ := Pattern.createAll_node spec.label
    (fun v (_ : v ∈ keys) => (rfl :
      Env.set .empty relatedKeyColumn (.value v) pivotVariable = none)) g
  refine ⟨made, g₁, ⟨_, made.map fun m => madeRow m.1 m.2, none⟩, ?_, hmade, hadds,
    Graph.gives_changes (.inl rfl) hadds.nodup _ g₁⟩
  rw [Statement.run, hsteps]
  simp only [Cypher.runSteps_cons, Cypher.Step.run, Option.bind_some, Cypher.runSteps_nil, hp0,
    List.flatMap_singleton, nodePattern, hcreate]
  exact congrArg (fun g => some (State.mk g _ none)) (foldl_write_eq hspec hp1 made g₁)

section

variable {label : String} {g₁ g₂ : Graph} {made : List (Value × ℕ)} {given : Value → Row}

/-- What is made are nodes of the label. -/
lemma around_of_gives (hadds : g.AddsNodes [label] (made.map Prod.snd) g₁)
    (hgives : g₁.Gives .node made given g₂) : g.Around label g₂ := by
  refine hadds.around.trans (hgives.elements.around ?_ fun i hi hlabel => ?_)
  · exact funext fun e => hgives.other (.edge e) fun _ _ => nofun
  · refine hgives.other (.node i) fun m hm heq => hlabel ?_
    obtain rfl := Entity.node.inj heq
    exact hadds.labels_new m.2 (List.mem_map_of_mem hm) ▸ List.mem_singleton_self _

/-- The nodes that were there are the links that they were, and each new one is a link more. -/
lemma links_of_gives (hadds : g.AddsNodes [spec.label] (made.map Prod.snd) g₁)
    (hgives : g₁.Gives .node made given g₂) :
    spec.links g₂ = spec.links g ∪ {l | ∃ m ∈ made, spec.linkOf g₂ m.2 = l} := by
  have hold : ∀ p ∈ g.nodes, spec.linkOf g₂ p = spec.linkOf g p := by
    intro p hp
    have hnode : g₂.ofNode p = g₁.ofNode p := hgives.other (.node p) fun m hm heq =>
      hadds.notMem (Entity.node.inj heq ▸ List.mem_map_of_mem hm) hp
    simp only [linkOf, Graph.value, hnode, hadds.ofNode_old p hp]
  ext l
  rw [mem_links, hgives.elements.labelled, hadds.mem_labelled, Set.mem_union, mem_links, or_and_right]
  refine or_congr (and_congr_right fun hp => ?_) ?_
  · rw [hold _ (Graph.mem_labelled.mp hp).1]
  · constructor
    · rintro ⟨hp, hl⟩
      obtain ⟨m, hm, heq⟩ := List.mem_map.mp hp
      exact ⟨m, hm, heq ▸ hl⟩
    · rintro ⟨m, hm, rfl⟩
      exact ⟨List.mem_map_of_mem (f := Prod.snd) hm, rfl⟩

end

/-- Making pivot nodes leaves the graph with a new link for each related key. -/
theorem attach_run (hspec : spec.Plain) (keys : List Value) {attributes : Row}
    (hattributes : spec.Keyed k attributes) (g : Graph) :
    ∃ st new, (spec.attachment k keys attributes).run I g = some st ∧
      g.Around spec.label st.graph ∧ spec.links st.graph = spec.links g ∪ new ∧
      (∀ v ∈ keys, ∃ l ∈ new, l.related = v) ∧
      ∀ l ∈ new, l.pivot ∉ g.nodes ∧ l.parent = k ∧ l.related ∈ keys ∧
        ∀ name, name ≠ spec.parentReference → name ≠ spec.relatedReference →
          l.properties name = Cypher.overlay attributes (fun _ => none) name := by
  obtain ⟨made, g₁, st, hrun, rfl, hadds, hgives⟩ :=
    attachment_run (I := I) hspec k keys attributes g
  have hlink : ∀ m ∈ made, _ := fun m hm =>
    linkOf_written hspec.distinct hattributes (hgives.given m hm)
  refine ⟨st, _, hrun, around_of_gives hadds hgives, links_of_gives hadds hgives, fun v hv => ?_, ?_⟩
  · obtain ⟨m, hm, rfl⟩ := List.mem_map.mp hv
    exact ⟨_, ⟨m, hm, rfl⟩, (hlink m hm).2.1⟩
  · rintro _ ⟨m, hm, rfl⟩
    obtain ⟨hparent, hrelated, hproperties⟩ := hlink m hm
    exact ⟨hadds.notMem (List.mem_map_of_mem hm), hparent,
      hrelated ▸ List.mem_map_of_mem (f := Prod.fst) hm, hproperties⟩

end Pivot

/-! ### Making edges -/

/-- Where an edge leads, if it was made from one node to another. -/
lemma joins_of_ends {direction : Cypher.Direction} {i j e : ℕ}
    (h : (g.source e, g.target e) = direction.ends i j) (i' j' : ℕ) :
    g.joins direction i' j' e = true ↔
      (i', j') = (i, j) ∨ (direction = .both ∧ (i', j') = (j, i)) := by
  cases direction with
  | outgoing =>
      obtain ⟨rfl, rfl⟩ := Prod.mk.inj h
      simp [Graph.joins, eq_comm (a := i'), eq_comm (a := j')]
  | incoming =>
      obtain ⟨rfl, rfl⟩ := Prod.mk.inj h
      simp [Graph.joins, eq_comm (a := i'), eq_comm (a := j'), and_comm]
  | both =>
      obtain ⟨rfl, rfl⟩ := Prod.mk.inj h
      simp [Graph.joins, eq_comm (a := i'), eq_comm (a := j'), and_comm]

section

variable {edgeType : String} {ties : List ((ℕ × ℕ) × ℕ)} {g' : Graph}

/-- The edges that were there lead where they did. -/
lemma between_of_mem (h : g.AddsEdges edgeType ties g') (type : String)
    (direction : Cypher.Direction) (i j : ℕ) {e : ℕ} (he : e ∈ g.edges) :
    e ∈ g'.between type direction i j ↔ e ∈ g.between type direction i j := by
  obtain ⟨htype, hsource, htarget, -⟩ := h.old e he
  have hjoins : g'.joins direction i j e = g.joins direction i j e := by
    cases direction <;> simp only [Graph.joins, hsource, htarget]
  rw [Graph.between, Graph.between, List.mem_filter, List.mem_filter, h.edges, htype, hjoins,
    List.mem_append]
  exact and_congr_left fun _ => ⟨fun _ => he, .inl⟩

/-- A new edge leads from the one node to the other. -/
lemma between_of_ends (h : g.AddsEdges edgeType ties g') {direction : Cypher.Direction} {i j e : ℕ}
    (ht : (direction.ends i j, e) ∈ ties) (i' j' : ℕ) :
    e ∈ g'.between edgeType direction i' j' ↔
      (i', j') = (i, j) ∨ (direction = .both ∧ (i', j') = (j, i)) := by
  obtain ⟨htype, hends⟩ := h.new _ ht
  have hmem : e ∈ g'.edges :=
    h.edges ▸ List.mem_append_right _ (List.mem_map_of_mem (f := Prod.snd) ht)
  rw [Graph.between, List.mem_filter, Bool.and_eq_true, decide_eq_true_eq, joins_of_ends hends]
  exact ⟨fun h => h.2.2, fun h => ⟨hmem, htype, h⟩⟩

end

namespace Wiring

variable {w : Wiring} {k : Value}

/-- Makes edges to the nodes with the related keys. -/
def attachment (w : Wiring) (k : Value) (keys : List Value) (attributes : Row) : Statement :=
  numbered [k, .array keys, .object attributes]
    [.find ⟨nodePattern parentVariable w.parentLabel,
        [.equals (Property.ofColumn parentVariable w.parentKey) (.parameter "p0")]⟩,
      .unwind "p1" relatedKeyColumn,
      .find ⟨nodePattern relatedVariable w.relatedLabel,
        [.equals (Property.ofColumn relatedVariable w.relatedKey) (.bound relatedKeyColumn)]⟩,
      .create (w.edge.creating ⟨parentVariable, none⟩ pivotVariable ⟨relatedVariable, none⟩),
      .set [.replace pivotVariable "p2"]]

/-- The pairs of a parent with the key and a node with one of the related keys. -/
def pairs (w : Wiring) (g : Graph) (k : Value) (keys : List Value) : List (ℕ × Value × ℕ) :=
  (g.holding w.parentLabel w.parentKey k).flatMap fun i =>
    keys.flatMap fun v => (g.holding w.relatedLabel w.relatedKey v).map fun j => (i, v, j)

lemma mem_pairs {keys : List Value} {m : ℕ × Value × ℕ} :
    m ∈ w.pairs g k keys ↔ m.1 ∈ g.holding w.parentLabel w.parentKey k ∧ m.2.1 ∈ keys ∧
      m.2.2 ∈ g.holding w.relatedLabel w.relatedKey m.2.1 := by
  obtain ⟨i, v, j⟩ := m
  simp only [pairs, List.mem_flatMap, List.mem_map, Prod.mk.injEq]
  constructor
  · rintro ⟨i, hi, v, hv, j, hj, rfl, rfl, rfl⟩
    exact ⟨hi, hv, hj⟩
  · rintro ⟨hi, hv, hj⟩
    exact ⟨i, hi, v, hv, j, hj, rfl, rfl, rfl⟩

/-- The row of a pair. -/
def pairRow (m : ℕ × Value × ℕ) : Env :=
  ((Env.empty.set parentVariable (.node m.1)).set relatedKeyColumn (.value m.2.1)).set
    relatedVariable (.node m.2.2)

/-- The rows of the nodes with a key. -/
lemma rows_holding (hI : I.EqualsJson) {binder label column : String}
    (hcolumn : columnOwner column = "") {env : Env} (hbinder : env binder = none) {t : Cypher.Term}
    {v : Value} (ht : ∀ j, t.value I g params (env.set binder (.node j)) = v) :
    (Match.mk (nodePattern binder label)
      [.equals (Property.ofColumn binder column) t]).rows I g params env =
      (g.holding label column v).map fun j => env.set binder (.node j) := by
  rw [nodePattern, Cypher.Match.rows_node hbinder, Graph.holding]
  refine congrArg (List.map _) (List.filter_congr fun j _ => ?_)
  rw [Cypher.chain_conditionsOperands_equals, ht, value_ofColumn (Env.set_self _ _ _) hcolumn,
    decide_eq_decide, hI.eq_yes]
  exact and_congr_right fun h => by rw [h]

/-- The rows from which edges are made are those of the pairs. -/
lemma rows_pairs (hw : w.Plain) (hI : I.EqualsJson) {keys : List Value} {params : Row}
    (hp0 : parameterValue params "p0" = k) (g : Graph) :
    (((Match.mk (nodePattern parentVariable w.parentLabel)
        [.equals (Property.ofColumn parentVariable w.parentKey) (.parameter "p0")]).rows I g params
          .empty).flatMap fun env => keys.map fun v => env.set relatedKeyColumn (.value v)).flatMap
        ((Match.mk (nodePattern relatedVariable w.relatedLabel)
          [.equals (Property.ofColumn relatedVariable w.relatedKey)
            (.bound relatedKeyColumn)]).rows I g params) =
      (w.pairs g k keys).map pairRow := by
  rw [rows_holding (v := k) hI hw.parent rfl fun j => by rw [Cypher.Term.value, hp0], pairs,
    List.flatMap_map, List.flatMap_assoc, List.map_flatMap]
  refine List.flatMap_congr fun i _ => ?_
  rw [List.flatMap_map, List.map_flatMap]
  refine List.flatMap_congr fun v _ => ?_
  rw [rows_holding (v := v) hI hw.related rfl fun j => by rw [Cypher.Term.value]; rfl, List.map_map]
  rfl

/-- What is written row by row are changes, one for each edge. -/
lemma foldl_replace_eq {attributes : Row} (hp2 : parameterRow params "p2" = attributes)
    (made : List ((ℕ × Value × ℕ) × ℕ)) (g : Graph) :
    (made.map fun m => (pairRow m.1).set pivotVariable (.edge m.2)).foldl (fun g env =>
      [Cypher.Change.replace pivotVariable "p2"].foldl
        (fun g change => change.apply I params g env) g) g =
      g.changes (made.map fun m => (.edge m.2, fun _ => Cypher.assignProperties [] attributes)) := by
  rw [Graph.changes, List.foldl_map, List.foldl_map]
  congr 1
  funext g m
  rw [List.foldl_cons, List.foldl_nil, Cypher.Change.apply, Env.set_self, Option.elim_some, hp2]

/-- An edge without direction is made like an outgoing one. -/
lemma creating_eq (edge : EdgeSpec) (left : Cypher.Node) (binder : String) (right : Cypher.Node) :
    ∃ direction, edge.creating left binder right =
        .path left ⟨binder, edge.edgeType, direction⟩ right ∧
      direction.ends = edge.direction.ends := by
  obtain ⟨edgeType, direction⟩ := edge
  cases direction <;> exact ⟨_, rfl, rfl⟩

/-- A new edge without direction, seen from the related node: that one is a parent as well. -/
def Reversed (w : Wiring) (g : Graph) (k : Value) (keys : List Value) (l : Link) : Prop :=
  w.edge.direction = .both ∧ ∃ m ∈ w.pairs g k keys, m.1 ∈ g.labelled w.relatedLabel ∧
    m.2.2 ∈ g.labelled w.parentLabel ∧ l.parent = g.value m.2.2 w.parentKey ∧
    l.related = g.value m.1 w.relatedKey

/-- The statement makes an edge for each pair, and gives it the attributes. -/
lemma attachment_run (hw : w.Plain) (hI : I.EqualsJson) (k : Value) (keys : List Value)
    (attributes : Row) (g : Graph) :
    ∃ (made : List ((ℕ × Value × ℕ) × ℕ)) (g₁ : Graph) (st : State),
      (w.attachment k keys attributes).run I g = some st ∧ made.map Prod.fst = w.pairs g k keys ∧
      g.AddsEdges w.edge.edgeType
        (made.map fun m => (w.edge.direction.ends m.1.1 m.1.2.2, m.2)) g₁ ∧
      g₁.Gives .edge made (fun _ => Cypher.assignProperties [] attributes) st.graph := by
  set s := w.attachment k keys attributes with hs
  have hp0 : parameterValue s.parameters "p0" = k := numbered_p0 _ _ _ _
  have hp1 : parameterValue s.parameters "p1" = .array keys := numbered_p1 _ _ _ _ _
  have hp2 : parameterRow s.parameters "p2" = attributes := by
    rw [parameterRow, hs, attachment, numbered_p2]
  have hsteps : s.steps = [.find ⟨nodePattern parentVariable w.parentLabel,
        [.equals (Property.ofColumn parentVariable w.parentKey) (.parameter "p0")]⟩,
      .unwind "p1" relatedKeyColumn,
      .find ⟨nodePattern relatedVariable w.relatedLabel,
        [.equals (Property.ofColumn relatedVariable w.relatedKey) (.bound relatedKeyColumn)]⟩,
      .create (w.edge.creating ⟨parentVariable, none⟩ pivotVariable ⟨relatedVariable, none⟩),
      .set [.replace pivotVariable "p2"]] := rfl
  have hbound : ∀ m ∈ w.pairs g k keys, pairRow m parentVariable = some (.node m.1) ∧
      pairRow m relatedVariable = some (.node m.2.2) ∧ m.1 ∈ g.nodes ∧ m.2.2 ∈ g.nodes := by
    intro m hm
    obtain ⟨hi, -, hj⟩ := mem_pairs.mp hm
    exact ⟨rfl, rfl, List.mem_of_mem_filter (Graph.mem_holding.mp hi).1,
      List.mem_of_mem_filter (Graph.mem_holding.mp hj).1⟩
  obtain ⟨direction, hcreating, hends⟩ :=
    creating_eq w.edge ⟨parentVariable, none⟩ pivotVariable ⟨relatedVariable, none⟩
  obtain ⟨made, g₁, hcreate, hmade, hadds⟩ := Cypher.Pattern.createAll_path
    ⟨pivotVariable, w.edge.edgeType, direction⟩ (by decide : pivotVariable ≠ "")
    (fun m : ℕ × Value × ℕ => (m.1, m.2.2)) g hbound
  rw [hends] at hadds
  have hnodup : (made.map Prod.snd).Nodup := by
    have h := hadds.nodup
    rwa [List.map_map] at h
  refine ⟨made, g₁, ⟨_, made.map fun m => (pairRow m.1).set pivotVariable (.edge m.2), none⟩, ?_,
    hmade, hadds, Graph.gives_changes (.inr rfl) hnodup _ g₁⟩
  rw [Statement.run, hsteps]
  simp only [Cypher.runSteps_cons, Cypher.Step.run, Option.bind_some, Cypher.runSteps_nil, hp1,
    List.flatMap_singleton, rows_pairs hw hI hp0, hcreating, hcreate]
  exact congrArg (fun g => some (State.mk g _ none)) (foldl_replace_eq hp2 made g₁)

section

variable {g₁ g₂ : Graph} {made : List ((ℕ × Value × ℕ) × ℕ)} {given : ℕ × Value × ℕ → Row}

/-- What is made are edges. -/
lemma sameNodes_of_gives {edgeType : String} {ties : List ((ℕ × ℕ) × ℕ)}
    (hadds : g.AddsEdges edgeType ties g₁) (hgives : g₁.Gives .edge made given g₂) :
    g.SameNodes g₂ :=
  ⟨hgives.elements.nodes.trans hadds.nodes, hgives.elements.labels.trans hadds.labels,
    (funext fun i => hgives.other (.node i) fun _ _ => nofun).trans hadds.ofNode⟩

/-- The edges that were there are the links that they were, and each new one is a link more, or two. -/
lemma mem_links_of_gives
    (hadds : g.AddsEdges w.edge.edgeType
      (made.map fun m => (w.edge.direction.ends m.1.1 m.1.2.2, m.2)) g₁)
    (hgives : g₁.Gives .edge made given g₂) (l : Link) :
    l ∈ w.links g₂ ↔ l ∈ w.links g ∨ ∃ m ∈ made, ∃ i j, i ∈ g.labelled w.parentLabel ∧
      j ∈ g.labelled w.relatedLabel ∧
      ((i, j) = (m.1.1, m.1.2.2) ∨ (w.edge.direction = .both ∧ (i, j) = (m.1.2.2, m.1.1))) ∧
      w.linkOf g₂ i j m.2 = l := by
  have hsame := sameNodes_of_gives hadds hgives
  have htie {m : (ℕ × Value × ℕ) × ℕ} (hm : m ∈ made) :
      (w.edge.direction.ends m.1.1 m.1.2.2, m.2) ∈
        made.map fun m => (w.edge.direction.ends m.1.1 m.1.2.2, m.2) :=
    List.mem_map_of_mem (f := fun m : (ℕ × Value × ℕ) × ℕ =>
      (w.edge.direction.ends m.1.1 m.1.2.2, m.2)) hm
  have hlink (i j : ℕ) {e : ℕ} (he : e ∈ g.edges) : w.linkOf g₂ i j e = w.linkOf g i j e := by
    have hedge : g₂.ofEdge e = g₁.ofEdge e := hgives.other (.edge e) fun m hm heq =>
      hadds.notMem (htie hm) (Entity.edge.inj heq ▸ he)
    rw [linkOf, linkOf, hsame.value, hsame.value, hedge, (hadds.old e he).2.2.2]
  constructor
  · rintro ⟨i, j, e, ⟨hi, hj, he⟩, rfl⟩
    rw [hsame.labelled] at hi hj
    rw [hgives.elements.between] at he
    have hmem : e ∈ g₁.edges := List.mem_of_mem_filter he
    rw [hadds.edges, List.map_map] at hmem
    rcases List.mem_append.mp hmem with hg | hmade
    · exact .inl ⟨i, j, e, ⟨hi, hj, (between_of_mem hadds _ _ i j hg).mp he⟩, (hlink i j hg).symm⟩
    · obtain ⟨m, hm, rfl⟩ := List.mem_map.mp hmade
      exact .inr ⟨m, hm, i, j, hi, hj, (between_of_ends hadds (htie hm) i j).mp he, rfl⟩
  · rintro (⟨i, j, e, ⟨hi, hj, he⟩, rfl⟩ | ⟨m, hm, i, j, hi, hj, hij, rfl⟩)
    · have hg := List.mem_of_mem_filter he
      refine ⟨i, j, e, ⟨hsame.labelled _ ▸ hi, hsame.labelled _ ▸ hj, ?_⟩, hlink i j hg⟩
      exact (hgives.elements.between ..).symm ▸ (between_of_mem hadds _ _ i j hg).mpr he
    · refine ⟨i, j, m.2, ⟨hsame.labelled _ ▸ hi, hsame.labelled _ ▸ hj, ?_⟩, rfl⟩
      exact (hgives.elements.between ..).symm ▸ (between_of_ends hadds (htie hm) i j).mpr hij

end

/-- Making edges leaves the graph with a new link for each pair. -/
theorem attach_run (hw : w.Plain) (hI : I.EqualsJson) (k : Value) (keys : List Value)
    (attributes : Row) (g : Graph) :
    ∃ st new, (w.attachment k keys attributes).run I g = some st ∧ g.SameNodes st.graph ∧
      w.links st.graph = w.links g ∪ new ∧
      (∀ m ∈ w.pairs g k keys, ∃ l ∈ new, l.parent = k ∧ l.related = m.2.1) ∧
      ∀ l ∈ new, l.properties = Cypher.overlay attributes (fun _ => none) ∧
        (Link.Between k (· ∈ keys) l ∨ w.Reversed g k keys l) := by
  obtain ⟨made, g₁, st, hrun, hmade, hadds, hgives⟩ := attachment_run hw hI k keys attributes g
  have hsame := sameNodes_of_gives hadds hgives
  have hwritten : ∀ m ∈ made, Fields.get? (st.graph.ofEdge m.2) =
      Cypher.overlay attributes (fun _ => none) := fun m hm =>
    (congrArg Fields.get? (hgives.given m hm)).trans (Cypher.get?_assignProperties [] attributes)
  refine ⟨st, {l | ∃ m ∈ made, ∃ i j, i ∈ g.labelled w.parentLabel ∧
    j ∈ g.labelled w.relatedLabel ∧
    ((i, j) = (m.1.1, m.1.2.2) ∨ (w.edge.direction = .both ∧ (i, j) = (m.1.2.2, m.1.1))) ∧
    w.linkOf st.graph i j m.2 = l}, hrun, hsame, Set.ext (mem_links_of_gives hadds hgives),
    fun m hm => ?_, ?_⟩
  · obtain ⟨hi, -, hj⟩ := mem_pairs.mp hm
    obtain ⟨hi, hparent, -⟩ := Graph.mem_holding.mp hi
    obtain ⟨hj, hrelated, -⟩ := Graph.mem_holding.mp hj
    rw [← hmade] at hm
    obtain ⟨n, hn, rfl⟩ := List.mem_map.mp hm
    exact ⟨_, ⟨n, hn, n.1.1, n.1.2.2, hi, hj, .inl rfl, rfl⟩, (hsame.value _ _).trans hparent,
      (hsame.value _ _).trans hrelated⟩
  · rintro _ ⟨⟨m, e⟩, hm, i, j, hi, hj, hij, rfl⟩
    have hmem : m ∈ w.pairs g k keys := hmade ▸ List.mem_map_of_mem (f := Prod.fst) hm
    obtain ⟨hi', hkey, hj'⟩ := mem_pairs.mp hmem
    refine ⟨hwritten _ hm, ?_⟩
    rcases hij with hij | ⟨hboth, hij⟩
    · obtain ⟨rfl, rfl⟩ := Prod.mk.inj hij
      refine .inl ⟨(hsame.value _ _).trans (Graph.mem_holding.mp hi').2.1, ?_⟩
      have hrelated := (hsame.value m.2.2 w.relatedKey).trans (Graph.mem_holding.mp hj').2.1
      exact (congrArg (· ∈ keys) hrelated).mpr hkey
    · obtain ⟨rfl, rfl⟩ := Prod.mk.inj hij
      exact .inr ⟨hboth, m, hmem, hj, hi, hsame.value _ _, hsame.value _ _⟩

end Wiring

end GraphMapper
