import GraphMapper.Proofs.Pivot.Hybrid
import GraphMapper.Proofs.Value.Json

/-!
The pairs of keys that pivots keep, and what attributes do to them.

* `Pivot.linked`, `Wiring.linked`: the pairs of keys of the pivots in a graph;
* `Cypher.overlay_getD`: properties that are set from a row of different names;
* `Pivot.attach_linked`, `Wiring.attach_linked`, `Wiring.tied`: the pairs that attaching adds, whatever
  the attributes;
* `Pivot.moved`, `Pivot.update_linked`, `Wiring.update_linked`: where updating leaves the pairs;
* `DirectRelation.Tidy`, `DirectRelation.bothSides_play`: the statements of a relation, side by side;
* `DirectRelation.pairs_written` (**which pairs are written**): attaching adds the pairs it should, and
  updating moves one pair, just when other values are written in place of its keys.
-/

namespace GraphMapper

open Cypher (Graph Interpretation Property Statement overlay playAll)

variable {I : Interpretation} {g g' : Graph} {k v : Value} {keys : List Value} {attributes : Row}

/-! ### Attributes in order -/

/-- A property that is set is what is written, and another one is what it was. -/
lemma Cypher.overlay_getD {changes : Row} (h : (Fields.names changes).Nodup)
    (f : String → Option Value) (name : String) :
    (overlay changes f name).getD .null = (changes.get? name).getD ((f name).getD .null) := by
  induction changes generalizing f with
  | nil => rfl
  | cons entry rest ih =>
      obtain ⟨key, v⟩ := entry
      obtain ⟨hkey, hrest⟩ := List.nodup_cons.mp h
      rw [overlay, List.foldl_cons, ← overlay, Fields.get?, List.lookup_cons]
      by_cases hname : name = key
      · subst hname
        rw [overlay_of_notMem hkey, Function.update_self, beq_self_eq_true]
        cases v <;> rfl
      · rw [beq_eq_false_iff_ne.mpr hname]
        exact (ih hrest _).trans (by rw [Function.update_of_ne hname]; rfl)

/-- Names in order are different. -/
lemma Fields.nodup_of_sorted {α : Type} {fields : Fields α} (h : fields.names.Pairwise (· < ·)) :
    fields.names.Nodup :=
  h.imp ne_of_lt

lemma names_stamped_sorted (h : (Fields.names attributes).Pairwise (· < ·)) (pivot : Option Pivot)
    (now : String) (creating : Bool) :
    (Fields.names (stamped pivot now attributes creating)).Pairwise (· < ·) := by
  cases pivot with
  | none => exact h
  | some spec =>
      rw [stamped]
      dsimp only
      split_ifs
      · exact Fields.names_put_sorted (Fields.names_put_sorted h _ _) _ _
      · exact Fields.names_put_sorted h _ _
      · exact h

/-! ### Pairs in nodes -/

/-- Moving one element of a set leaves the set just when it is no element or stays where it is. -/
lemma image_update_id_eq_iff {α : Type} [DecidableEq α] {s : Set α} {a b : α} :
    Function.update id a b '' s = s ↔ (a ∈ s → b = a) := by
  constructor
  · intro h ha
    obtain ⟨c, -, hc⟩ := h.symm ▸ ha
    by_contra hne
    by_cases hca : c = a
    · subst hca
      rw [Function.update_self] at hc
      exact hne hc
    · rw [Function.update_of_ne hca] at hc
      exact hca hc
  · intro h
    refine (Set.image_congr fun c hc => ?_).trans (Set.image_id s)
    by_cases hca : c = a
    · subst hca
      rw [Function.update_self, h hc]
      rfl
    · exact Function.update_of_ne hca _ _

/-- The keys of a link. -/
def Link.pair (l : Link) : Value × Value :=
  (l.parent, l.related)

namespace Pivot

variable {spec : Pivot}

/-- The pairs of keys of the pivot nodes. -/
def linked (spec : Pivot) (g : Graph) : Set (Value × Value) :=
  Link.pair '' spec.links g

/-- The pair of keys of a node. -/
def pairAt (spec : Pivot) (g : Graph) (p : ℕ) : Value × Value :=
  (g.value p spec.parentReference, g.value p spec.relatedReference)

lemma linked_eq (spec : Pivot) (g : Graph) :
    spec.linked g = spec.pairAt g '' {p | p ∈ g.labelled spec.label} :=
  Set.image_image _ _ _

/-- Attributes take nothing away from the key of the parent, also if they name its column. -/
lemma keyed_of_sorted (h : (Fields.names attributes).Pairwise (· < ·)) (hnull : k ≠ .null) :
    spec.Keyed k attributes := by
  intro f
  have hvalue := Cypher.overlay_getD
    (Fields.nodup_of_sorted (Fields.names_put_sorted h spec.parentReference k)) f spec.parentReference
  rw [Fields.get?_put_self, Option.getD_some] at hvalue
  cases hset : overlay (attributes.put spec.parentReference k) f spec.parentReference with
  | none =>
      rw [hset] at hvalue
      exact absurd hvalue.symm hnull
  | some v =>
      rw [hset] at hvalue
      exact congrArg some hvalue

/-- Making pivot nodes adds the pairs of the parent with the keys. -/
lemma attach_linked (hspec : spec.Plain) (hnull : k ≠ .null)
    (h : (Fields.names attributes).Pairwise (· < ·)) (keys : List Value) (g : Graph) :
    ∃ st, (spec.attachment k keys attributes).run I g = some st ∧ g.Around spec.label st.graph ∧
      spec.linked st.graph = spec.linked g ∪ {p | p.1 = k ∧ p.2 ∈ keys} := by
  obtain ⟨st, new, hrun, haround, hlinks, hmade, hnew⟩ :=
    attach_run (I := I) hspec keys (keyed_of_sorted h hnull) g
  refine ⟨st, hrun, haround, ?_⟩
  rw [linked, linked, hlinks, Set.image_union]
  refine congrArg _ (Set.ext fun p => ⟨?_, fun ⟨hparent, hrelated⟩ => ?_⟩)
  · rintro ⟨l, hl, rfl⟩
    exact ⟨(hnew l hl).2.1, (hnew l hl).2.2.1⟩
  · obtain ⟨l, hl, hlrelated⟩ := hmade p.2 hrelated
    exact ⟨l, hl, Prod.ext ((hnew l hl).2.1.trans hparent.symm) hlrelated⟩

/-- Where a pair is after properties were set: at the values that are written in place of its keys.
Nothing is set if the related key is null. -/
def moved (spec : Pivot) (values : Row) (pair : Value × Value) : Value × Value :=
  if pair.2 = .null then pair
  else ((values.get? spec.parentReference).getD pair.1, (values.get? spec.relatedReference).getD pair.2)

/-- Setting properties of pivot nodes moves the pair that they have. -/
lemma update_linked (hI : I.EqualsJson) (hspec : spec.Plain) (hnull : k ≠ .null) (v : Value)
    (h : (Fields.names attributes).Pairwise (· < ·)) (g : Graph) :
    ∃ st, ((Side.nodes spec).update k v attributes).run I g = some st ∧
      g.Around spec.label st.graph ∧
      spec.linked st.graph =
        Function.update id (k, v) (spec.moved attributes (k, v)) '' spec.linked g := by
  obtain ⟨st, hrun, hsets⟩ := Side.update_run hI (Side.nodes_sound hspec) hnull v attributes g
  refine ⟨st, hrun, Graph.Sets.around hsets fun _ => labelled_of_touched, ?_⟩
  have hother {p : ℕ} (hp : p ∉ (Side.nodes spec).touched g
      (Link.Between k fun related => related = v ∧ v ≠ .null)) :
      spec.pairAt st.graph p = spec.pairAt g p := by
    have hsame : st.graph.ofNode p = g.ofNode p := hsets.other (.node p) fun ⟨q, hq, heq⟩ =>
      hp (Cypher.Entity.node.inj heq ▸ hq)
    simp only [pairAt, Graph.value, hsame]
  rw [linked_eq, linked_eq, hsets.elements.labelled, Set.image_image]
  refine Set.image_congr fun p hp => ?_
  by_cases hpair : spec.pairAt g p = (k, v)
  · rw [hpair, Function.update_self, moved]
    split_ifs with hnone
    · rw [← hpair]
      refine hother fun htouched => ?_
      obtain ⟨-, -, ⟨-, -, hv⟩, -⟩ := Side.mem_touched.mp htouched
      exact hv hnone
    · have hset : Fields.get? (st.graph.ofNode p) = overlay attributes (Fields.get? (g.ofNode p)) :=
        hsets.set p (Side.mem_touched.mpr ⟨spec.linkOf g p, ⟨p, hp, rfl⟩,
          ⟨congrArg Prod.fst hpair, congrArg Prod.snd hpair, hnone⟩, rfl⟩)
      obtain ⟨hparent, hrelated⟩ := Prod.mk.inj hpair
      simp only [pairAt, Graph.value, hset, Cypher.overlay_getD (Fields.nodup_of_sorted h)]
      rw [← Graph.value, ← Graph.value, hparent, hrelated]
  · rw [Function.update_of_ne hpair]
    refine hother fun htouched => hpair ?_
    obtain ⟨l, hl, ⟨hparent, hrelated, -⟩, rfl⟩ := Side.mem_touched.mp htouched
    rw [← (mem_links.mp hl).2] at hparent hrelated
    exact Prod.ext hparent hrelated

end Pivot

/-! ### Pairs in edges -/

namespace Wiring

variable {w : Wiring} {label : String}

/-- The pairs of keys of the edges. -/
def linked (w : Wiring) (g : Graph) : Set (Value × Value) :=
  Link.pair '' w.links g

/-- The pairs of the edges from the nodes with the key of a parent to the nodes with related keys.
Without a direction, an edge is a pair the other way round as well, where its ends have both labels. -/
def tied (w : Wiring) (g : Graph) (k : Value) (keys : List Value) : Set (Value × Value) :=
  {p | ∃ i ∈ g.holding w.parentLabel w.parentKey k, ∃ v ∈ keys,
    ∃ j ∈ g.holding w.relatedLabel w.relatedKey v,
      p = (k, v) ∨
        (w.edge.direction = .both ∧ i ∈ g.labelled w.relatedLabel ∧ j ∈ g.labelled w.parentLabel ∧
          p = (g.value j w.parentKey, g.value i w.relatedKey))}

/-- Making edges adds the pairs of the parent with the keys of the nodes that there are. -/
lemma attach_linked (hw : w.Plain) (hI : I.EqualsJson) (k : Value) (keys : List Value)
    (attributes : Row) (g : Graph) :
    ∃ st, (w.attachment k keys attributes).run I g = some st ∧ g.SameNodes st.graph ∧
      w.linked st.graph = w.linked g ∪ w.tied g k keys := by
  obtain ⟨made, g₁, st, hrun, hmade, hadds, hgives⟩ := attachment_run hw hI k keys attributes g
  have hsame := sameNodes_of_gives hadds hgives
  have hlinks := mem_links_of_gives hadds hgives
  have hpair (i j e : ℕ) :
      (w.linkOf st.graph i j e).pair = (g.value i w.parentKey, g.value j w.relatedKey) := by
    rw [linkOf, Link.pair, hsame.value, hsame.value]
  refine ⟨st, hrun, hsame, Set.ext fun p => ⟨?_, ?_⟩⟩
  · rintro ⟨l, hl, rfl⟩
    rcases (hlinks l).mp hl with hl | ⟨⟨m, e⟩, hm, i, j, hi, hj, hij, rfl⟩
    · exact .inl ⟨l, hl, rfl⟩
    · have hmem : m ∈ w.pairs g k keys := hmade ▸ List.mem_map_of_mem (f := Prod.fst) hm
      obtain ⟨hparent, hkey, hrelated⟩ := mem_pairs.mp hmem
      refine .inr ⟨m.1, hparent, m.2.1, hkey, m.2.2, hrelated, ?_⟩
      rw [hpair]
      rcases hij with hij | ⟨hboth, hij⟩ <;> obtain ⟨rfl, rfl⟩ := Prod.mk.inj hij
      · exact .inl (Prod.ext (Graph.mem_holding.mp hparent).2.1 (Graph.mem_holding.mp hrelated).2.1)
      · exact .inr ⟨hboth, hj, hi, rfl⟩
  · rintro (⟨l, hl, rfl⟩ | ⟨i, hi, v, hv, j, hj, hp⟩)
    · exact ⟨l, (hlinks l).mpr (.inl hl), rfl⟩
    · obtain ⟨hi', hparent, -⟩ := Graph.mem_holding.mp hi
      obtain ⟨hj', hrelated, -⟩ := Graph.mem_holding.mp hj
      have hm : (i, v, j) ∈ made.map Prod.fst := hmade ▸ mem_pairs.mpr ⟨hi, hv, hj⟩
      obtain ⟨⟨_, e⟩, hm, rfl⟩ := List.mem_map.mp hm
      rcases hp with rfl | ⟨hboth, hi, hj, rfl⟩
      · refine ⟨_, (hlinks _).mpr (.inr ⟨_, hm, i, j, hi', hj', .inl rfl, rfl⟩), ?_⟩
        rw [hpair, hparent, hrelated]
      · exact ⟨_, (hlinks _).mpr (.inr ⟨_, hm, j, i, hj, hi, .inr ⟨hboth, rfl⟩, rfl⟩), hpair j i e⟩

/-- Setting properties of edges leaves the pairs. -/
lemma update_linked (hw : w.Plain) (hI : I.EqualsJson) (hnull : k ≠ .null) (v : Value)
    (attributes : Row) (g : Graph) :
    ∃ st, ((Side.edges w).update k v attributes).run I g = some st ∧ g.SameNodes st.graph ∧
      w.linked st.graph = w.linked g := by
  obtain ⟨st, hrun, hsets⟩ := Side.update_run hI (Side.edges_sound hw) hnull v attributes g
  have hlinks : w.links st.graph = _ := links_sets hsets
  refine ⟨st, hrun, Graph.Sets.sameNodes hsets, ?_⟩
  rw [linked, linked, hlinks, Set.image_image]
  refine Set.image_congr fun l _ => ?_
  obtain ⟨-, hparent, hrelated⟩ := l.updated_keys attributes _
  exact Prod.ext hparent hrelated

/-- Nodes of a label are no ends of the edges. -/
structure Outside (w : Wiring) (label : String) (g : Graph) : Prop where
  parent : w.parentLabel ≠ label
  related : w.relatedLabel ≠ label
  apart_parent : g.Apart label w.parentLabel
  apart_related : g.Apart label w.relatedLabel

lemma Outside.linked_around (h : w.Outside label g) (haround : g.Around label g') :
    w.linked g' = w.linked g := by
  rw [linked, linked,
    links_around haround h.parent h.related h.apart_parent h.apart_related]

lemma Outside.tied_around (h : w.Outside label g) (haround : g.Around label g') (k : Value)
    (keys : List Value) : w.tied g' k keys = w.tied g k keys := by
  ext p
  simp only [tied, Set.mem_ofPred_eq, haround.mem_holding h.parent h.apart_parent,
    haround.mem_holding h.related h.apart_related,
    haround.mem_labelled h.parent h.apart_parent, haround.mem_labelled h.related h.apart_related]
  refine exists_congr fun i => and_congr_right fun _ => exists_congr fun v => and_congr_right
    fun _ => exists_congr fun j => and_congr_right fun _ => or_congr_right (and_congr_right
      fun _ => and_congr_right fun hi => and_congr_right fun hj => ?_)
  rw [haround.value h.apart_parent hj, haround.value h.apart_related hi]

end Wiring

/-! ### Relations -/

namespace DirectRelation

variable {d : DirectRelation} {parent : Row}

/-- A relation keeps the pairs of a parent with a key in pivot nodes. -/
def KeepsNodes (d : DirectRelation) (parent : Row) (spec : Pivot) (k : Value) : Prop :=
  ∃ keys, d.strategy.keys? = some keys ∧ d.pivot = some spec ∧ parent.get? keys.localKey = some k

/-- A relation keeps the pairs of a parent with a key in edges. -/
def KeepsEdges (d : DirectRelation) (parent : Row) (w : Wiring) (k : Value) : Prop :=
  ∃ edge parentKey relatedKey, d.strategy.edge? = some (edge, parentKey, relatedKey) ∧
    w = d.wiring edge parentKey relatedKey ∧ parent.get? parentKey = some k

/-- The parent has its keys, the columns are named without a variable, those of a pivot node are two,
and pivot nodes are no ends of the edges. -/
structure Tidy (d : DirectRelation) (parent : Row) (g : Graph) : Prop where
  localKey : ∀ keys, d.strategy.keys? = some keys →
    ∃ k, parent.get? keys.localKey = some k ∧ k ≠ .null
  parentKey : ∀ edge parentKey relatedKey, d.strategy.edge? = some (edge, parentKey, relatedKey) →
    ∃ k, parent.get? parentKey = some k ∧ k ≠ .null
  nodes : ∀ spec k, d.KeepsNodes parent spec k → spec.Plain
  edges : ∀ w k, d.KeepsEdges parent w k → w.Plain
  apart : ∀ spec k w k', d.KeepsNodes parent spec k → d.KeepsEdges parent w k' →
    w.Outside spec.label g

lemma KeepsNodes.unique {spec spec' : Pivot} {k k' : Value} (h : d.KeepsNodes parent spec k)
    (h' : d.KeepsNodes parent spec' k') : spec = spec' ∧ k = k' := by
  obtain ⟨keys, hkeys, hpivot, hk⟩ := h
  obtain ⟨keys', hkeys', hpivot', hk'⟩ := h'
  obtain rfl := Option.some.inj (hkeys.symm.trans hkeys')
  exact ⟨Option.some.inj (hpivot.symm.trans hpivot'), Option.some.inj (hk.symm.trans hk')⟩

lemma KeepsEdges.unique {w w' : Wiring} {k k' : Value} (h : d.KeepsEdges parent w k)
    (h' : d.KeepsEdges parent w' k') : w = w' ∧ k = k' := by
  obtain ⟨edge, parentKey, relatedKey, hedge, rfl, hk⟩ := h
  obtain ⟨edge', parentKey', relatedKey', hedge', rfl, hk'⟩ := h'
  obtain ⟨rfl, rfl, rfl⟩ : edge = edge' ∧ parentKey = parentKey' ∧ relatedKey = relatedKey' := by
    simpa using hedge.symm.trans hedge'
  exact ⟨rfl, Option.some.inj (hk.symm.trans hk')⟩

section

variable {nodes : Keys → Except Error Statement}
  {edges : EdgeSpec → String → String → Except Error Statement}
  {nodePairs : Pivot → Value → Set (Value × Value)}
  {edgePairs : Wiring → Value → Graph → Set (Value × Value)}

/-- A statement about the pivot nodes of the parent, after which they have some pairs. -/
def SetsNodes (I : Interpretation) (d : DirectRelation) (parent : Row) (g : Graph)
    (nodes : Keys → Except Error Statement) (nodePairs : Pivot → Value → Set (Value × Value)) : Prop :=
  ∀ keys spec k, d.pivot = some spec → spec.Plain → parent.get? keys.localKey = some k → k ≠ .null →
    ∃ s st, nodes keys = .ok s ∧ s.run I g = some st ∧ g.Around spec.label st.graph ∧
      spec.linked st.graph = nodePairs spec k

/-- A statement about the edges of the parent, after which they have some pairs. -/
def SetsEdges (I : Interpretation) (d : DirectRelation) (parent : Row)
    (edges : EdgeSpec → String → String → Except Error Statement)
    (edgePairs : Wiring → Value → Graph → Set (Value × Value)) : Prop :=
  ∀ edge parentKey relatedKey k, (d.wiring edge parentKey relatedKey).Plain →
    parent.get? parentKey = some k → k ≠ .null →
      ∃ s, edges edge parentKey relatedKey = .ok s ∧ ∀ g, ∃ st, s.run I g = some st ∧
        g.SameNodes st.graph ∧ (d.wiring edge parentKey relatedKey).linked st.graph =
          edgePairs (d.wiring edge parentKey relatedKey) k g

/-- The statement about nodes is made and run if the relation keeps its pairs in nodes. -/
lemma SetsNodes.run (hnodes : d.SetsNodes I parent g nodes nodePairs) (h : d.Tidy parent g)
    (hpivot : ∀ keys, d.strategy.keys? = some keys → ∃ spec, d.pivot = some spec) {keys : Keys}
    (hkeys : d.strategy.keys? = some keys) :
    ∃ spec k s st, d.KeepsNodes parent spec k ∧ nodes keys = .ok s ∧ s.run I g = some st ∧
      g.Around spec.label st.graph ∧ spec.linked st.graph = nodePairs spec k := by
  obtain ⟨spec, hspec⟩ := hpivot keys hkeys
  obtain ⟨k, hk, hnull⟩ := h.localKey keys hkeys
  have hkeeps : d.KeepsNodes parent spec k := ⟨keys, hkeys, hspec, hk⟩
  obtain ⟨s, st, hrun⟩ := hnodes keys spec k hspec (h.nodes spec k hkeeps) hk hnull
  exact ⟨spec, k, s, st, hkeeps, hrun⟩

/-- The statement about edges is made if the relation keeps its pairs in edges, and runs. -/
lemma SetsEdges.run (hedges : d.SetsEdges I parent edges edgePairs) (h : d.Tidy parent g)
    {edge : EdgeSpec} {parentKey relatedKey : String}
    (hedge : d.strategy.edge? = some (edge, parentKey, relatedKey)) :
    ∃ w k s, d.KeepsEdges parent w k ∧ edges edge parentKey relatedKey = .ok s ∧
      ∀ g, ∃ st, s.run I g = some st ∧ g.SameNodes st.graph ∧ w.linked st.graph = edgePairs w k g := by
  obtain ⟨k, hk, hnull⟩ := h.parentKey edge parentKey relatedKey hedge
  have hkeeps : d.KeepsEdges parent _ k := ⟨edge, parentKey, relatedKey, hedge, rfl, hk⟩
  obtain ⟨s, hrun⟩ := hedges edge parentKey relatedKey k (h.edges _ k hkeeps) hk hnull
  exact ⟨_, k, s, hkeeps, hrun⟩

/-- Statements about both sides leave the pairs that each of them leaves on its own. -/
lemma bothSides_play (h : d.Tidy parent g)
    (hpivot : ∀ keys, d.strategy.keys? = some keys → ∃ spec, d.pivot = some spec)
    (hnodes : d.SetsNodes I parent g nodes nodePairs) (hedges : d.SetsEdges I parent edges edgePairs)
    (haround : ∀ w k label g', w.Outside label g → g.Around label g' →
      edgePairs w k g' = edgePairs w k g) :
    ∃ ss g', d.bothSides nodes edges = .ok ss ∧ playAll I ss g = some g' ∧
      (∀ spec k, d.KeepsNodes parent spec k → spec.linked g' = nodePairs spec k) ∧
      ∀ w k, d.KeepsEdges parent w k → w.linked g' = edgePairs w k g := by
  cases hs : d.strategy with
  | foreignKey keys =>
      obtain ⟨spec, k, s, st, hkeeps, hmade, hrun, -, hlinked⟩ :=
        hnodes.run h hpivot (by rw [hs]; rfl : d.strategy.keys? = some keys)
      refine ⟨[s], st.graph, by simp only [bothSides, hs, hmade]; rfl, Cypher.playAll_cons hrun [],
        fun _ _ hother => ?_, ?_⟩
      · obtain ⟨rfl, rfl⟩ := hkeeps.unique hother
        exact hlinked
      · rintro w k' ⟨edge, parentKey, relatedKey, hedge, -⟩
        rw [hs] at hedge
        cases hedge
  | nativeEdge edge parentKey relatedKey =>
      obtain ⟨w, k, s, hkeeps, hmade, hrun⟩ := hedges.run h (by rw [hs]; rfl)
      obtain ⟨st, hrun, -, hlinked⟩ := hrun g
      refine ⟨[s], st.graph, by simp only [bothSides, hs, hmade]; rfl, Cypher.playAll_cons hrun [],
        ?_, fun _ _ hother => ?_⟩
      · rintro spec k' ⟨keys, hkeys, -⟩
        rw [hs] at hkeys
        cases hkeys
      · obtain ⟨rfl, rfl⟩ := hkeeps.unique hother
        exact hlinked
  | hybrid keys edge parentKey relatedKey =>
      obtain ⟨spec, k, s, st, hkeeps, hmade, hrun, hbeside, hlinked⟩ :=
        hnodes.run h hpivot (by rw [hs]; rfl : d.strategy.keys? = some keys)
      obtain ⟨w, k', s', hkeeps', hmade', hrun'⟩ := hedges.run h (by rw [hs]; rfl)
      obtain ⟨st', hrun', hsame, hlinked'⟩ := hrun' st.graph
      refine ⟨[s, s'], st'.graph, by simp only [bothSides, hs, hmade, hmade']; rfl,
        (Cypher.playAll_cons hrun _).trans (Cypher.playAll_cons hrun' []), fun _ _ hother => ?_,
        fun _ _ hother => ?_⟩
      · obtain ⟨rfl, rfl⟩ := hkeeps.unique hother
        rw [Pivot.linked, Pivot.links_sameNodes hsame]
        exact hlinked
      · -- the edges are made on the graph with the new nodes, which are no ends of them
        obtain ⟨rfl, rfl⟩ := hkeeps'.unique hother
        rw [hlinked']
        exact haround _ _ _ _ (h.apart _ _ _ _ hkeeps hkeeps') hbeside

end

lemma attachNodes_sets (hattributes : (Fields.names attributes).Pairwise (· < ·)) (now : String)
    (keys : List Value) (g : Graph) :
    d.SetsNodes I parent g
      (fun columns => d.attachNodes columns parent keys (stamped d.pivot now attributes true))
      fun spec k => spec.linked g ∪ {p | p.1 = k ∧ p.2 ∈ keys} := by
  intro columns spec k hspec hplain hk hnull
  have hparent : parentValue d.name parent columns.localKey = .ok k := parentValue_eq hk hnull
  obtain ⟨st, hrun, haround, hlinked⟩ := Pivot.attach_linked (I := I) hplain hnull
    (names_stamped_sorted hattributes d.pivot now true) keys g
  refine ⟨_, st, ?_, hrun, haround, hlinked⟩
  simp only [attachNodes, pivotSpec, hspec, hparent]
  rfl

lemma attachEdges_sets (hI : I.EqualsJson) (attributes : Row) (keys : List Value) :
    d.SetsEdges I parent
      (fun edge parentKey relatedKey =>
        d.attachEdges edge parentKey relatedKey parent keys attributes)
      fun w k g => w.linked g ∪ w.tied g k keys := by
  intro edge parentKey relatedKey k hplain hk hnull
  have hparent : parentValue d.name parent parentKey = .ok k := parentValue_eq hk hnull
  refine ⟨_, ?_, fun g => Wiring.attach_linked hplain hI k keys attributes g⟩
  simp only [attachEdges, hparent]
  rfl

lemma updateNodes_sets (hI : I.EqualsJson)
    (hattributes : (Fields.names attributes).Pairwise (· < ·)) (v : Value) (g : Graph) :
    d.SetsNodes I parent g
      (fun keys => do
        let spec ← d.pivotSpec
        let key ← parentValue d.name parent keys.localKey
        return updateIn (nodePattern pivotVariable spec.label) (ofPivot spec.parentReference)
          (ofPivot spec.relatedReference) key v attributes)
      fun spec k => Function.update id (k, v) (spec.moved attributes (k, v)) '' spec.linked g := by
  intro keys spec k hspec hplain hk hnull
  have hparent : parentValue d.name parent keys.localKey = .ok k := parentValue_eq hk hnull
  obtain ⟨st, hrun, haround, hlinked⟩ := Pivot.update_linked hI hplain hnull v hattributes g
  refine ⟨_, st, ?_, hrun, haround, hlinked⟩
  simp only [pivotSpec, hspec, hparent]
  rfl

lemma updateEdges_sets (hI : I.EqualsJson) (v : Value) (attributes : Row) :
    d.SetsEdges I parent
      (fun edge parentKey relatedKey => do
        let key ← parentValue d.name parent parentKey
        return updateIn (d.edgePattern edge pivotVariable) (Property.ofColumn parentVariable parentKey)
          (Property.ofColumn relatedVariable relatedKey) key v attributes)
      fun w _ g => w.linked g := by
  intro edge parentKey relatedKey k hplain hk hnull
  have hparent : parentValue d.name parent parentKey = .ok k := parentValue_eq hk hnull
  refine ⟨_, ?_, fun g => Wiring.update_linked hplain hI hnull v attributes g⟩
  simp only [hparent]
  rfl

/-- Attaching adds the pairs of the parent with the keys that are told apart. -/
lemma attach_pairs (hI : I.EqualsJson) (h : d.Tidy parent g)
    (hpivot : ∀ keys, d.strategy.keys? = some keys → ∃ spec, d.pivot = some spec)
    (hattributes : (Fields.names attributes).Pairwise (· < ·)) (now : String) (keys : List Value) :
    ∃ ss g', d.attach now parent keys attributes = .ok ss ∧ playAll I ss g = some g' ∧
      (∀ spec k, d.KeepsNodes parent spec k →
        spec.linked g' = spec.linked g ∪ {p | p.1 = k ∧ p.2 ∈ Value.distinct keys}) ∧
      ∀ w k, d.KeepsEdges parent w k →
        w.linked g' = w.linked g ∪ w.tied g k (Value.distinct keys) := by
  rw [DirectRelation.attach]
  split_ifs with hnone
  · rw [List.isEmpty_iff.mp hnone]
    refine ⟨[], g, rfl, rfl, fun spec k _ => ?_, fun w k _ => ?_⟩
    · simp
    · simp [Wiring.tied]
  · exact bothSides_play h hpivot (attachNodes_sets hattributes now _ g) (attachEdges_sets hI _ _)
      fun w k label g' houtside haround => by
        rw [houtside.linked_around haround, houtside.tied_around haround]

/-- Updating moves one pair in the nodes, and none in the edges. -/
lemma update_pairs (hI : I.EqualsJson) (h : d.Tidy parent g)
    (hpivot : ∀ keys, d.strategy.keys? = some keys → ∃ spec, d.pivot = some spec)
    (hattributes : (Fields.names attributes).Pairwise (· < ·)) (now : String) (v : Value) :
    ∃ ss g', d.updatePivot now parent v attributes = .ok ss ∧ playAll I ss g = some g' ∧
      (∀ spec k, d.KeepsNodes parent spec k → spec.linked g' = Function.update id (k, v)
        (spec.moved (stamped d.pivot now attributes false) (k, v)) '' spec.linked g) ∧
      ∀ w k, d.KeepsEdges parent w k → w.linked g' = w.linked g :=
  bothSides_play h hpivot (updateNodes_sets hI (names_stamped_sorted hattributes _ now false) v g)
    (updateEdges_sets hI v _) fun _ _ _ _ houtside haround => houtside.linked_around haround

/-- **Which pairs are written**, whatever the attributes name: attaching adds the pairs of the parent
with the keys, in edges those of nodes that there are.  Updating leaves the pairs of edges, and moves a
single pair of nodes to what is written in place of its keys: the pairs stay the same just when there is
no such pair, or nothing else is written in place of its keys. -/
theorem pairs_written {declaration : Declaration} (hI : I.EqualsJson)
    (hbuild : declaration.build = .ok d) (hkind : d.kind = .belongsToMany) (h : d.Tidy parent g)
    (hattributes : (Fields.names attributes).Pairwise (· < ·)) (now : String) :
    (∀ keys : List Value, (∀ v ∈ keys, v.Finite) →
      ∃ ss g', d.attach now parent keys attributes = .ok ss ∧ playAll I ss g = some g' ∧
        (∀ spec k, d.KeepsNodes parent spec k →
          spec.linked g' = spec.linked g ∪ {p | p.1 = k ∧ p.2 ∈ keys}) ∧
        ∀ w k, d.KeepsEdges parent w k → w.linked g' = w.linked g ∪ w.tied g k keys) ∧
    ∀ v, ∃ ss g', d.updatePivot now parent v attributes = .ok ss ∧ playAll I ss g = some g' ∧
      (∀ spec k, d.KeepsNodes parent spec k →
        let moved := spec.moved (stamped d.pivot now attributes false) (k, v)
        spec.linked g' = Function.update id (k, v) moved '' spec.linked g ∧
          (spec.linked g' = spec.linked g ↔ ((k, v) ∈ spec.linked g → moved = (k, v)))) ∧
      ∀ w k, d.KeepsEdges parent w k → w.linked g' = w.linked g := by
  have hpivot : ∀ keys, d.strategy.keys? = some keys → ∃ spec, d.pivot = some spec :=
    fun _ hkeys => Declaration.build_pivot hbuild hkind hkeys
  constructor
  · intro keys hfinite
    have hmem (v : Value) : v ∈ Value.distinct keys ↔ v ∈ keys := Value.mem_distinct
      fun v hv w hw hsame => Value.eq_of_keyText_eq (hfinite v hv) (hfinite w hw) hsame
    obtain ⟨ss, g', hmade, hplay, hnodes, hedges⟩ := attach_pairs hI h hpivot hattributes now keys
    refine ⟨ss, g', hmade, hplay, fun spec k hkeeps => ?_, fun w k hkeeps => ?_⟩
    · simpa only [hmem] using hnodes spec k hkeeps
    · simpa only [Wiring.tied, hmem] using hedges w k hkeeps
  · intro v
    obtain ⟨ss, g', hmade, hplay, hnodes, hedges⟩ := update_pairs hI h hpivot hattributes now v
    refine ⟨ss, g', hmade, hplay, fun spec k hkeeps => ?_, hedges⟩
    have hlinked := hnodes spec k hkeeps
    exact ⟨hlinked, by rw [hlinked, image_update_id_eq_iff]⟩

end DirectRelation

/-! ### Roles of a user -/

namespace PivotCall

/-- A user, two roles, and a node in which one of them is granted. -/
def granted : Graph :=
  .ofNodes [("User", [("id", .int 1)]), ("Role", [("id", .int 7)]), ("Role", [("id", .int 8)]),
    ("RoleUser", [("role_id", .int 8), ("user_id", .int 1)])]

lemma granted_linked : rolePivots.linked granted = {(.int 1, .int 8)} := by
  have hlabelled : granted.labelled rolePivots.label = [3] := by decide
  have hpair : rolePivots.pairAt granted 3 = (.int 1, .int 8) := by decide
  rw [Pivot.linked_eq, hlabelled, ← hpair]
  simp

lemma granted_edges : roleEdges.linked granted = ∅ := by
  have hlinks : roleEdges.links granted = ∅ := Set.eq_empty_iff_forall_notMem.mpr fun l hl => by
    obtain ⟨i, j, e, ⟨-, -, he⟩, -⟩ := hl
    exact absurd (List.mem_of_mem_filter he) List.not_mem_nil
  rw [Wiring.linked, hlinks, Set.image_empty]

lemma mirroredRoles_tidy : mirroredRoles.Tidy [("id", .int 1)] granted where
  localKey := by
    rintro keys ⟨⟩
    exact ⟨.int 1, rfl, by decide⟩
  parentKey := by
    rintro edge parentKey relatedKey ⟨⟩
    exact ⟨.int 1, rfl, by decide⟩
  nodes := by
    rintro spec k ⟨keys, -, ⟨⟩, -⟩
    exact mirroredRoles_doubled.nodes
  edges := by
    rintro w k ⟨edge, parentKey, relatedKey, ⟨⟩, rfl, -⟩
    exact mirroredRoles_doubled.edges
  apart := by
    rintro spec k w k' ⟨keys, -, ⟨⟩, -⟩ ⟨edge, parentKey, relatedKey, ⟨⟩, rfl, -⟩
    exact ⟨by decide, by decide, by rw [Graph.Apart]; decide, by rw [Graph.Apart]; decide⟩

/-- With attributes that name the key of the parent, two roles are attached to that parent still, one of
which is no node; but an update moves the pair. -/
theorem pairs_written_roles :
    (∃ ss g', mirroredRoles.attach "now" [("id", .int 1)] [.int 7, .int 404] [("user_id", .int 2)] =
        .ok ss ∧ playAll .json ss granted = some g' ∧
      rolePivots.linked g' = {(.int 1, .int 8), (.int 1, .int 7), (.int 1, .int 404)} ∧
      roleEdges.linked g' = {(.int 1, .int 7)}) ∧
    ∃ ss g', mirroredRoles.updatePivot "now" [("id", .int 1)] (.int 8) [("user_id", .int 2)] =
        .ok ss ∧ playAll .json ss granted = some g' ∧ rolePivots.linked g' = {(.int 2, .int 8)} := by
  have hbuild : ({ Client.userRoles with
      strategy := .hybrid, edge := some ⟨"HAS_ROLE", .outgoing⟩ } : Declaration).build =
        .ok mirroredRoles := rfl
  have hnodes : mirroredRoles.KeepsNodes [("id", .int 1)] rolePivots (.int 1) :=
    ⟨⟨"id", "id"⟩, rfl, rfl, rfl⟩
  have hedges : mirroredRoles.KeepsEdges [("id", .int 1)] roleEdges (.int 1) :=
    ⟨⟨"HAS_ROLE", .outgoing⟩, "id", "id", rfl, rfl, rfl⟩
  have hordered : (Fields.names [("user_id", Value.int 2)]).Pairwise (· < ·) :=
    List.pairwise_singleton _ _
  obtain ⟨hattach, hupdate⟩ := DirectRelation.pairs_written Cypher.Interpretation.json_equalsJson
    hbuild rfl mirroredRoles_tidy hordered "now"
  have hfinite : ∀ v ∈ [Value.int 7, .int 404], v.Finite := by
    intro v hv
    obtain ⟨n, -, rfl⟩ := List.mem_map.mp (show v ∈ [7, 404].map Value.int from hv)
    trivial
  obtain ⟨ss, g', hmade, hplay, hattached, htied⟩ := hattach [.int 7, .int 404] hfinite
  obtain ⟨ss', g'', hmade', hplay', hmoved, -⟩ := hupdate (.int 8)
  refine ⟨⟨ss, g', hmade, hplay, ?_, ?_⟩, ss', g'', hmade', hplay', ?_⟩
  · rw [hattached _ _ hnodes, granted_linked]
    ext ⟨k, v⟩
    simp only [Set.mem_union, Set.mem_singleton_iff, Set.mem_insert_iff, Set.mem_ofPred_eq,
      List.mem_cons, List.not_mem_nil, or_false, Prod.mk.injEq]
    tauto
  · rw [htied _ _ hedges, granted_edges, Set.empty_union]
    have hparent : granted.holding roleEdges.parentLabel roleEdges.parentKey (.int 1) = [0] := by
      decide
    have hrole : granted.holding roleEdges.relatedLabel roleEdges.relatedKey (.int 7) = [1] := by
      decide
    have hnone : granted.holding roleEdges.relatedLabel roleEdges.relatedKey (.int 404) = [] := by
      decide
    have hdirection : roleEdges.edge.direction ≠ .both := by decide
    ext p
    simp [Wiring.tied, hparent, hrole, hnone, hdirection]
  · rw [(hmoved _ _ hnodes).1, granted_linked, Set.image_singleton, Function.update_self]
    rfl

/-- An update that names the key of the parent moves the role to another user. -/
theorem pair_moved :
    Client.userRoles.build = .ok Client.rolesOfUsers ∧ ∃ ss g',
      Client.rolesOfUsers.updatePivot "now" [("id", .int 1)] (.int 8) [("user_id", .int 2)] =
        .ok ss ∧ playAll .json ss granted = some g' ∧
      rolePivots.linked g' ≠ rolePivots.linked granted := by
  obtain ⟨ss, hss⟩ : ∃ ss, Client.rolesOfUsers.updatePivot "now" [("id", .int 1)] (.int 8)
      [("user_id", .int 2)] = .ok ss := ⟨_, rfl⟩
  have hread : (playAll .json ss granted).map (fun g =>
      (g.labelled "RoleUser", rolePivots.pairAt g 3)) = some ([3], (.int 2, .int 8)) := by
    obtain rfl := Except.ok.inj hss
    decide +kernel
  obtain ⟨g', hplay, hread⟩ := Option.map_eq_some_iff.mp hread
  obtain ⟨hlabelled, hpair⟩ := Prod.mk.inj hread
  refine ⟨rfl, ss, g', hss, hplay, fun hsame => ?_⟩
  have hmem : (Value.int 2, Value.int 8) ∈ rolePivots.linked g' := by
    rw [Pivot.linked_eq, ← hpair]
    exact Set.mem_image_of_mem _ (hlabelled ▸ List.mem_singleton_self 3)
  rw [hsame, granted_linked] at hmem
  exact absurd (Set.mem_singleton_iff.mp hmem) (by decide)

end PivotCall

end GraphMapper
