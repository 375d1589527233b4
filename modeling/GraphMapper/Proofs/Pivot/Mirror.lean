import GraphMapper.Proofs.Pivot.Keeping
import GraphMapper.Selection.Statement

/-!
Pivots that are kept twice, as nodes and as edges.

* `Tie`: what a link says, whichever its pivot is; `Pivot.ties`, `Wiring.ties`: what all nodes say, and
  what all edges say;
* `withoutTies`, `newTies`, `overlaidTies`: the edits of ties that statements about links come to, each
  of which sees pairs of keys alone (`PairsKept`);
* `Wiring.Clear`: pivot nodes are no ends of the edges, and an edge is one link;
* `Mirrors`: nodes and edges were edited alike; `Mirrors.attach`, `Mirrors.detach`, `Mirrors.update`
  (**both copies are edited alike**): so they are by the statements of a hybrid relation, and
  `Mirrors.addsNodes` by a new node.
-/

namespace GraphMapper

open Cypher (Graph Interpretation Statement overlay playAll)

/-! ### Ties -/

/-- What a link says, whichever its pivot is. -/
structure Tie where
  parent : Value
  related : Value
  attributes : String → Option Value

/-- Properties without those under some names. -/
def visible (hidden : List String) (properties : String → Option Value) : String → Option Value :=
  fun name => if name ∈ hidden then none else properties name

lemma visible_congr {hidden : List String} {f g : String → Option Value}
    (h : ∀ name, name ∉ hidden → f name = g name) : visible hidden f = visible hidden g := by
  funext name
  rw [visible, visible]
  split_ifs with hname
  · rfl
  · exact h name hname

/-- What a link says, apart from the properties under some names. -/
def Link.tie (hidden : List String) (l : Link) : Tie :=
  ⟨l.parent, l.related, visible hidden l.properties⟩

/-- The keys of a tie. -/
def Tie.pair (t : Tie) : Value × Value :=
  (t.parent, t.related)

/-- What the pivot nodes of a graph say. -/
def Pivot.ties (spec : Pivot) (g : Graph) : Set Tie :=
  Link.tie spec.references '' spec.links g

/-- What the edges of a graph say. -/
def Wiring.ties (w : Wiring) (hidden : List String) (g : Graph) : Set Tie :=
  Link.tie hidden '' w.links g

/-! ### Edits -/

/-- The pairs of keys that an edit leaves depend on those there were alone. -/
def PairsKept (edit : Set Tie → Set Tie) : Prop :=
  ∀ s s', Tie.pair '' s = Tie.pair '' s' → Tie.pair '' edit s = Tie.pair '' edit s'

lemma PairsKept.comp {edit edit' : Set Tie → Set Tie} (h : PairsKept edit) (h' : PairsKept edit') :
    PairsKept (edit' ∘ edit) :=
  fun s s' hpairs => h' _ _ (h s s' hpairs)

/-- Ties without those whose keys fulfil a condition. -/
def withoutTies (wanted : Value × Value → Prop) (s : Set Tie) : Set Tie :=
  {t ∈ s | ¬ wanted t.pair}

/-- The ties of a parent to some related keys, with the same properties. -/
def newTies (hidden : List String) (k : Value) (keys : List Value) (values : Row) : Set Tie :=
  {t | t.parent = k ∧ t.related ∈ keys ∧ t.attributes = visible hidden (overlay values fun _ => none)}

open Classical in
/-- Ties of which those whose keys fulfil a condition have properties set. -/
noncomputable def overlaidTies (hidden : List String) (wanted : Value × Value → Prop) (values : Row)
    (s : Set Tie) : Set Tie :=
  (fun t => if wanted t.pair then
    { t with attributes := visible hidden (overlay values t.attributes) } else t) '' s

lemma pairsKept_withoutTies (wanted : Value × Value → Prop) : PairsKept (withoutTies wanted) := by
  have hpairs (s : Set Tie) : Tie.pair '' withoutTies wanted s =
      {p ∈ Tie.pair '' s | ¬ wanted p} := by
    ext p
    constructor
    · rintro ⟨t, ⟨ht, hwanted⟩, rfl⟩
      exact ⟨⟨t, ht, rfl⟩, hwanted⟩
    · rintro ⟨⟨t, ht, rfl⟩, hwanted⟩
      exact ⟨t, ⟨ht, hwanted⟩, rfl⟩
  intro s s' h
  rw [hpairs, hpairs, h]

lemma pairsKept_union (new : Set Tie) : PairsKept (· ∪ new) := by
  intro s s' h
  rw [Set.image_union, Set.image_union, h]

lemma pairsKept_overlaidTies (hidden : List String) (wanted : Value × Value → Prop) (values : Row) :
    PairsKept (overlaidTies hidden wanted values) := by
  have hpairs (s : Set Tie) : Tie.pair '' overlaidTies hidden wanted values s = Tie.pair '' s := by
    rw [overlaidTies, Set.image_image]
    refine Set.image_congr fun t _ => ?_
    split_ifs <;> rfl
  intro s s' h
  rw [hpairs, hpairs, h]

section

variable {links new : Set Link} {ids : Set ℕ} {wanted : Value × Value → Prop} {hidden : List String}

/-- Where a pivot is one link, deleting the pivots of some links takes away what these links say. -/
lemma ties_without (hids : ∀ p, p ∈ ids ↔ ∃ l ∈ links, wanted (l.parent, l.related) ∧ l.pivot = p)
    (hinj : Set.InjOn Link.pivot links) :
    Link.tie hidden '' {l ∈ links | l.pivot ∉ ids} =
      withoutTies wanted (Link.tie hidden '' links) := by
  ext t
  constructor
  · rintro ⟨l, ⟨hl, hpivot⟩, rfl⟩
    exact ⟨⟨l, hl, rfl⟩, fun hwanted => hpivot ((hids _).mpr ⟨l, hl, hwanted, rfl⟩)⟩
  · rintro ⟨⟨l, hl, rfl⟩, hwanted⟩
    refine ⟨l, ⟨hl, fun hpivot => hwanted ?_⟩, rfl⟩
    obtain ⟨m, hm, hmwanted, hsame⟩ := (hids _).mp hpivot
    exact hinj hm hl hsame ▸ hmwanted

/-- Where a pivot is one link, setting properties of the pivots of some links sets those that these
links tell. -/
lemma ties_updated (values : Row)
    (hids : ∀ p, p ∈ ids ↔ ∃ l ∈ links, wanted (l.parent, l.related) ∧ l.pivot = p)
    (hinj : Set.InjOn Link.pivot links) :
    Link.tie hidden '' (Link.updated values ids '' links) =
      overlaidTies hidden wanted values (Link.tie hidden '' links) := by
  have hmem {l : Link} (hl : l ∈ links) : l.pivot ∈ ids ↔ wanted (l.parent, l.related) := by
    refine (hids _).trans ⟨?_, fun hwanted => ⟨l, hl, hwanted, rfl⟩⟩
    rintro ⟨m, hm, hwanted, hsame⟩
    exact hinj hm hl hsame ▸ hwanted
  have hoverlay (f : String → Option Value) :
      visible hidden (overlay values f) = visible hidden (overlay values (visible hidden f)) :=
    visible_congr fun name hname => Cypher.overlay_congr (if_neg hname).symm
  rw [overlaidTies, Set.image_image, Set.image_image]
  refine Set.image_congr fun l hl => ?_
  have hpair : (l.tie hidden).pair = (l.parent, l.related) := rfl
  rw [Link.updated, hpair]
  split_ifs with hpivot hwanted hwanted
  · rw [Link.tie, Link.overlaid, Link.tie, hoverlay]
  · exact absurd ((hmem hl).mp hpivot) hwanted
  · exact absurd ((hmem hl).mpr hwanted) hpivot
  · rfl

/-- What new links of a parent say. -/
lemma ties_new {k : Value} {keys : List Value} {values : Row}
    (hmade : ∀ v ∈ keys, ∃ l ∈ new, l.related = v)
    (hnew : ∀ l ∈ new, l.parent = k ∧ l.related ∈ keys ∧
      visible hidden l.properties = visible hidden (overlay values fun _ => none)) :
    Link.tie hidden '' new = newTies hidden k keys values := by
  ext t
  constructor
  · rintro ⟨l, hl, rfl⟩
    exact hnew l hl
  · rintro ⟨hparent, hrelated, hattributes⟩
    obtain ⟨l, hl, heq⟩ := hmade t.related hrelated
    obtain ⟨hlparent, -, hproperties⟩ := hnew l hl
    refine ⟨l, hl, ?_⟩
    rw [Link.tie, hlparent, heq, hproperties, ← hparent, ← hattributes]

end

/-! ### Stores in which the two copies do not meet -/

namespace Wiring

variable {w : Wiring} {label : String} {g g' : Graph}

/-- Nodes of the label are no ends of the edges, and the ends of an edge can be told apart. -/
structure Clear (w : Wiring) (label : String) (g : Graph) : Prop where
  parent : w.parentLabel ≠ label
  related : w.relatedLabel ≠ label
  apart_parent : g.Apart label w.parentLabel
  apart_related : g.Apart label w.relatedLabel
  ends : w.edge.direction ≠ .both ∨
    (w.parentLabel ≠ w.relatedLabel ∧ g.Apart w.parentLabel w.relatedLabel)

namespace Clear

lemma around (h : w.Clear label g) (haround : g.Around label g') : w.Clear label g' where
  parent := h.parent
  related := h.related
  apart_parent := haround.apart h.parent h.apart_parent
  apart_related := haround.apart h.related h.apart_related
  ends := h.ends.imp_right fun ⟨hne, hapart⟩ => ⟨hne, fun i hi hparent hrelated => by
    have hlabel : label ∉ g'.labels i := fun hlabel =>
      haround.apart h.parent h.apart_parent i hi hlabel hparent
    obtain ⟨hi, hold⟩ := (haround.mem i).mp ⟨hi, hlabel⟩
    rw [(haround.same i hi hold).1] at hparent hrelated
    exact hapart i hi hparent hrelated⟩

lemma sameNodes (h : w.Clear label g) (hsame : g.SameNodes g') : w.Clear label g' := by
  have hapart {a b : String} (hab : g.Apart a b) : g'.Apart a b := by
    rw [Graph.Apart, hsame.nodes, hsame.labels]
    exact hab
  exact ⟨h.parent, h.related, hapart h.apart_parent, hapart h.apart_related,
    h.ends.imp_right (And.imp_right hapart)⟩

/-- An edge is one link. -/
lemma links_injOn (h : w.Clear label g) : Set.InjOn Link.pivot (w.links g) := by
  rcases h.ends with hdirection | ⟨-, hapart⟩
  · exact Wiring.links_injOn hdirection
  by_cases hdirection : w.edge.direction = .both
  · rintro _ ⟨i, j, e, hl, rfl⟩ _ ⟨i', j', e', hm, rfl⟩ (rfl : e = e')
    have hends := (List.mem_filter.mp hl.edge).2
    have hends' := (List.mem_filter.mp hm.edge).2
    simp only [hdirection, Graph.joins, Bool.and_eq_true, Bool.or_eq_true, decide_eq_true_eq]
      at hends hends'
    have hcross : i ≠ j' := by
      rintro rfl
      obtain ⟨hi, hparent⟩ := Graph.mem_labelled.mp hl.parent
      exact hapart i hi hparent (Graph.mem_labelled.mp hm.related).2
    obtain ⟨rfl, rfl⟩ : i = i' ∧ j = j' := by omega
    rfl
  · exact Wiring.links_injOn hdirection

/-- No edge is a link of its related node. -/
lemma not_reversed (h : w.Clear label g) {k : Value} {keys : List Value} {l : Link} :
    ¬ w.Reversed g k keys l := by
  rintro ⟨hboth, m, hm, hrelated, -⟩
  rcases h.ends with hdirection | ⟨-, hapart⟩
  · exact hdirection hboth
  · obtain ⟨hi, hparent⟩ :=
      Graph.mem_labelled.mp (Graph.mem_holding.mp (Wiring.mem_pairs.mp hm).1).1
    exact hapart m.1 hi hparent (Graph.mem_labelled.mp hrelated).2

end Clear

end Wiring

/-! ### Nodes more -/

namespace Cypher.Graph.AddsNodes

variable {g g' : Graph} {labels : List String} {ids : List ℕ} {label : String}

lemma mem_nodes (h : g.AddsNodes labels ids g') {i : ℕ} (hi : i ∈ g.nodes) : i ∈ g'.nodes :=
  h.nodes ▸ List.mem_append_left _ hi

lemma labelled_old (h : g.AddsNodes labels ids g') {i : ℕ} (hi : i ∈ g.nodes) :
    i ∈ g'.labelled label ↔ i ∈ g.labelled label := by
  rw [Graph.mem_labelled, Graph.mem_labelled, h.labels_old i hi]
  exact and_congr_left fun _ => ⟨fun _ => hi, fun _ => h.mem_nodes hi⟩

lemma apart (h : g.AddsNodes labels ids g') {other : String} (hapart : g.Apart label other)
    (hnew : label ∈ labels → other ∉ labels) : g'.Apart label other := by
  intro i hi hlabel
  rcases List.mem_append.mp (h.nodes ▸ hi) with hi | hi
  · rw [h.labels_old i hi] at hlabel ⊢
    exact hapart i hi hlabel
  · rw [h.labels_new i hi] at hlabel ⊢
    exact hnew hlabel

lemma value_old (h : g.AddsNodes labels ids g') {i : ℕ} (hi : i ∈ g.nodes) (name : String) :
    g'.value i name = g.value i name := by
  rw [Graph.value, Graph.value, h.ofNode_old i hi]

lemma holding_old (h : g.AddsNodes labels ids g') {column : String} {v : Value} {i : ℕ}
    (hi : i ∈ g.holding label column v) : i ∈ g'.holding label column v := by
  obtain ⟨hlabel, hvalue, hnull⟩ := Graph.mem_holding.mp hi
  have hmem := (Graph.mem_labelled.mp hlabel).1
  exact Graph.mem_holding.mpr ⟨(h.labelled_old hmem).mpr hlabel,
    (h.value_old hmem column).trans hvalue, hnull⟩

end Cypher.Graph.AddsNodes

lemma Pivot.links_addsNodes {spec : Pivot} {g g' : Graph} {labels : List String} {ids : List ℕ}
    (h : g.AddsNodes labels ids g') (hlabel : spec.label ∉ labels) : spec.links g' = spec.links g := by
  have hlabelled (i : ℕ) : i ∈ g'.labelled spec.label ↔ i ∈ g.labelled spec.label := by
    refine ⟨fun hi => ?_, fun hi => (h.labelled_old (Graph.mem_labelled.mp hi).1).mpr hi⟩
    obtain ⟨hmem, hmem'⟩ := Graph.mem_labelled.mp hi
    rcases List.mem_append.mp (h.nodes ▸ hmem) with hold | hnew
    · exact (h.labelled_old hold).mp hi
    · exact absurd (h.labels_new i hnew ▸ hmem') hlabel
  ext l
  rw [Pivot.mem_links, Pivot.mem_links, hlabelled]
  refine and_congr_right fun hp => ?_
  have hp := (Graph.mem_labelled.mp hp).1
  rw [Pivot.linkOf, Pivot.linkOf, h.value_old hp, h.value_old hp, h.ofNode_old _ hp]

lemma Wiring.links_addsNodes {w : Wiring} {g g' : Graph} {labels : List String} {ids : List ℕ}
    (h : g.AddsNodes labels ids g') : w.links g' = w.links g := by
  have hbetween (i j : ℕ) : g'.between w.edge.edgeType w.edge.direction i j =
      g.between w.edge.edgeType w.edge.direction i j := by
    rw [Graph.between, Graph.between, h.edges, h.edgeType]
    cases w.edge.direction <;> simp only [Graph.joins, h.source, h.target]
  -- an edge there was leads between nodes there were
  have hold {i j e : ℕ} (he : e ∈ g.between w.edge.edgeType w.edge.direction i j) :
      i ∈ g.nodes ∧ j ∈ g.nodes := by
    obtain ⟨he, hjoins⟩ := List.mem_filter.mp he
    have hsource := g.source_mem e he
    have htarget := g.target_mem e he
    cases hd : w.edge.direction <;>
      simp only [hd, Graph.joins, Bool.and_eq_true, Bool.or_eq_true, decide_eq_true_eq] at hjoins
    · exact ⟨hjoins.2.1 ▸ hsource, hjoins.2.2 ▸ htarget⟩
    · exact ⟨hjoins.2.2 ▸ htarget, hjoins.2.1 ▸ hsource⟩
    · rcases hjoins.2 with ⟨rfl, rfl⟩ | ⟨rfl, rfl⟩
      · exact ⟨hsource, htarget⟩
      · exact ⟨htarget, hsource⟩
  have hlink {i j e : ℕ} (hi : i ∈ g.nodes) (hj : j ∈ g.nodes) :
      w.linkOf g' i j e = w.linkOf g i j e := by
    rw [linkOf, linkOf, h.value_old hi, h.value_old hj, h.ofEdge]
  ext l
  constructor
  · rintro ⟨i, j, e, ⟨hi, hj, he⟩, rfl⟩
    rw [hbetween] at he
    obtain ⟨hmem, hmem'⟩ := hold he
    exact ⟨i, j, e, ⟨(h.labelled_old hmem).mp hi, (h.labelled_old hmem').mp hj, he⟩,
      (hlink hmem hmem').symm⟩
  · rintro ⟨i, j, e, ⟨hi, hj, he⟩, rfl⟩
    obtain ⟨hmem, hmem'⟩ := hold he
    exact ⟨i, j, e, ⟨(h.labelled_old hmem).mpr hi, (h.labelled_old hmem').mpr hj,
      hbetween i j ▸ he⟩, hlink hmem hmem'⟩

/-! ### Both copies -/

variable {I : Interpretation} {spec : Pivot} {w : Wiring} {g g' g'' : Graph} {k : Value}

/-- From one graph to another one pivot nodes and edges were edited alike, and no parent and no related
node was lost. -/
structure Mirrors (spec : Pivot) (w : Wiring) (g g' : Graph) : Prop where
  clear : w.Clear spec.label g'
  edit : ∃ edit, PairsKept edit ∧ spec.ties g' = edit (spec.ties g) ∧
    w.ties spec.references g' = edit (w.ties spec.references g)
  parent : ∀ v, ∀ i ∈ g.holding w.parentLabel w.parentKey v, i ∈ g'.holding w.parentLabel w.parentKey v
  related : ∀ v, ∀ j ∈ g.holding w.relatedLabel w.relatedKey v,
    j ∈ g'.holding w.relatedLabel w.relatedKey v

namespace Mirrors

lemma refl (h : w.Clear spec.label g) : Mirrors spec w g g :=
  ⟨h, ⟨id, fun _ _ hpairs => hpairs, rfl, rfl⟩, fun _ _ hi => hi, fun _ _ hj => hj⟩

lemma trans (h : Mirrors spec w g g') (h' : Mirrors spec w g' g'') : Mirrors spec w g g'' := by
  obtain ⟨edit, hpairs, hnodes, hedges⟩ := h.edit
  obtain ⟨edit', hpairs', hnodes', hedges'⟩ := h'.edit
  refine ⟨h'.clear, ⟨edit' ∘ edit, hpairs.comp hpairs', ?_, ?_⟩,
    fun v i hi => h'.parent v i (h.parent v i hi), fun v j hj => h'.related v j (h.related v j hj)⟩
  · rw [hnodes', hnodes]
    rfl
  · rw [hedges', hedges]
    rfl

/-- Pairs of keys that nodes and edges agree in stay so. -/
lemma pairs (h : Mirrors spec w g g')
    (hsame : Tie.pair '' spec.ties g = Tie.pair '' w.ties spec.references g) :
    Tie.pair '' spec.ties g' = Tie.pair '' w.ties spec.references g' := by
  obtain ⟨edit, hpairs, hnodes, hedges⟩ := h.edit
  rw [hnodes, hedges]
  exact hpairs _ _ hsame

/-- Ties that nodes and edges agree in stay so. -/
lemma ties (h : Mirrors spec w g g') (hsame : spec.ties g = w.ties spec.references g) :
    spec.ties g' = w.ties spec.references g' := by
  obtain ⟨edit, -, hnodes, hedges⟩ := h.edit
  rw [hnodes, hedges, hsame]

lemma holding_around (h : w.Clear spec.label g) (haround : g.Around spec.label g') {v : Value} :
    (∀ i, i ∈ g'.holding w.parentLabel w.parentKey v ↔ i ∈ g.holding w.parentLabel w.parentKey v) ∧
      ∀ j, j ∈ g'.holding w.relatedLabel w.relatedKey v ↔
        j ∈ g.holding w.relatedLabel w.relatedKey v :=
  ⟨haround.mem_holding h.parent h.apart_parent, haround.mem_holding h.related h.apart_related⟩

/-- A statement about pivot nodes and then one about edges, which make the same edit. -/
lemma ofSides (hclear : w.Clear spec.label g) (haround : g.Around spec.label g')
    (hsame : g'.SameNodes g'') {edit : Set Tie → Set Tie} (hpairs : PairsKept edit)
    (hnodes : spec.ties g' = edit (spec.ties g))
    (hedges : w.ties spec.references g'' = edit (w.ties spec.references g')) :
    Mirrors spec w g g'' := by
  have hties : w.ties spec.references g' = w.ties spec.references g := by
    rw [Wiring.ties, Wiring.ties, Wiring.links_around haround hclear.parent hclear.related
      hclear.apart_parent hclear.apart_related]
  have hties' : spec.ties g'' = spec.ties g' := by
    rw [Pivot.ties, Pivot.ties, Pivot.links_sameNodes hsame]
  refine ⟨(hclear.around haround).sameNodes hsame, ⟨edit, hpairs, hties'.trans hnodes, ?_⟩,
    fun v i hi => ?_, fun v j hj => ?_⟩
  · rw [hedges, hties]
  · rw [hsame.holding]
    exact ((holding_around hclear haround).1 i).mpr hi
  · rw [hsame.holding]
    exact ((holding_around hclear haround).2 j).mpr hj

/-- **Attaching makes the same ties twice**, where the nodes that are to be tied are there. -/
theorem attach (hI : I.EqualsJson) (hspec : spec.Plain) (hw : w.Plain)
    (hclear : w.Clear spec.label g) {attributes : Row} (hattributes : spec.Keyed k attributes)
    (hparent : ∃ i, i ∈ g.holding w.parentLabel w.parentKey k) {keys : List Value}
    (hrelated : ∀ v ∈ keys, ∃ j, j ∈ g.holding w.relatedLabel w.relatedKey v) :
    ∃ g', playAll I [spec.attachment k keys attributes, w.attachment k keys attributes] g =
      some g' ∧ Mirrors spec w g g' := by
  obtain ⟨st, new, hrun, haround, hlinks, hmade, hnew⟩ :=
    Pivot.attach_run (I := I) hspec keys hattributes g
  obtain ⟨st', new', hrun', hsame, hlinks', hmade', hnew'⟩ :=
    Wiring.attach_run hw hI k keys attributes st.graph
  refine ⟨st'.graph, (Cypher.playAll_cons hrun _).trans (Cypher.playAll_cons hrun' []),
    ofSides hclear haround hsame (pairsKept_union (newTies spec.references k keys attributes)) ?_ ?_⟩
  · rw [Pivot.ties, hlinks, Set.image_union]
    refine congrArg _ (ties_new hmade fun l hl => ?_)
    obtain ⟨-, hlparent, hlrelated, hproperties⟩ := hnew l hl
    refine ⟨hlparent, hlrelated, visible_congr fun name hname => ?_⟩
    simp only [Pivot.references, List.mem_cons, List.not_mem_nil, or_false, not_or] at hname
    exact hproperties name hname.1 hname.2
  · rw [Wiring.ties, hlinks', Set.image_union]
    refine congrArg _ (ties_new (fun v hv => ?_) fun l hl => ?_)
    · obtain ⟨i, hi⟩ := hparent
      obtain ⟨j, hj⟩ := hrelated v hv
      obtain ⟨hparents, hrelateds⟩ := holding_around hclear haround
      obtain ⟨l, hl, -, hlrelated⟩ := hmade' (i, v, j) (Wiring.mem_pairs.mpr
        ⟨(hparents i).mpr hi, hv, ((holding_around hclear haround).2 j).mpr hj⟩)
      exact ⟨l, hl, hlrelated⟩
    · obtain ⟨hproperties, hbetween⟩ := hnew' l hl
      obtain ⟨hlparent, hlrelated⟩ :=
        hbetween.resolve_right (hclear.around haround).not_reversed
      exact ⟨hlparent, hlrelated, by rw [hproperties]⟩

/-- **Detaching takes the same ties away twice**, unless the engine refuses it. -/
theorem detach (hI : I.EqualsJson) (hspec : spec.Plain) (hw : w.Plain)
    (hclear : w.Clear spec.label g) (hk : k ≠ .null) (keys : Option (List Value))
    (hplay : playAll I [(Side.nodes spec).detach k keys, (Side.edges w).detach k keys] g = some g') :
    Mirrors spec w g g' := by
  obtain ⟨ids, hids, hrun⟩ := Pivot.detach_run hspec hI hk keys g
  split_ifs at hrun with hedges
  · rw [playAll, hrun] at hplay
    cases hplay
  · obtain ⟨st, hrun, hgraph⟩ := hrun
    obtain ⟨ids', hids', st', hrun', hgraph'⟩ := Wiring.detach_run hw hI hk keys st.graph
    rw [Cypher.playAll_cons hrun, Cypher.playAll_cons hrun', playAll, Option.some.injEq] at hplay
    subst hplay
    have hlabel : ∀ p ∈ ids, spec.label ∈ g.labels p := fun p hp =>
      Pivot.labelled_of_touched ((hids p).mp hp)
    have haround : g.Around spec.label st.graph := by
      rw [hgraph]
      refine Graph.around_withoutNodes hlabel fun e he => ⟨fun hp => ?_, fun hp => ?_⟩
      · exact hedges ⟨e, he, .inl hp⟩
      · exact hedges ⟨e, he, .inr hp⟩
    have hsame : st.graph.SameNodes st'.graph := hgraph' ▸ ⟨rfl, rfl, rfl⟩
    let wanted (p : Value × Value) : Prop := p.1 = k ∧ speaksOf keys p.2
    refine ofSides hclear haround hsame (pairsKept_withoutTies wanted) ?_ ?_
    · rw [Pivot.ties, hgraph, Pivot.links_withoutNodes]
      exact ties_without (fun p => (hids p).trans Side.mem_touched) Pivot.links_injOn
    · rw [Wiring.ties, hgraph', Wiring.links_withoutEdges]
      exact ties_without (fun p => (hids' p).trans Side.mem_touched)
        (hclear.around haround).links_injOn

/-- **Updating sets the same properties twice**. -/
theorem update (hI : I.EqualsJson) (hspec : spec.Plain) (hw : w.Plain)
    (hclear : w.Clear spec.label g) (hk : k ≠ .null) (v : Value) {attributes : Row}
    (hattributes : ∀ column ∈ spec.references, column ∉ Fields.names attributes) :
    ∃ g', playAll I [(Side.nodes spec).update k v attributes, (Side.edges w).update k v attributes] g =
      some g' ∧ Mirrors spec w g g' := by
  obtain ⟨st, hrun, hsets⟩ := Side.update_run hI (Side.nodes_sound hspec) hk v attributes g
  obtain ⟨st', hrun', hsets'⟩ := Side.update_run hI (Side.edges_sound hw) hk v attributes st.graph
  have haround : g.Around spec.label st.graph :=
    Graph.Sets.around hsets fun _ => Pivot.labelled_of_touched
  have hlinks : spec.links st.graph = _ := Pivot.links_sets hsets
    (hattributes _ List.mem_cons_self) (hattributes _ (List.mem_cons_of_mem _ List.mem_cons_self))
  have hlinks' : w.links st'.graph = _ := Wiring.links_sets hsets'
  let wanted (p : Value × Value) : Prop := p.1 = k ∧ p.2 = v ∧ v ≠ .null
  refine ⟨st'.graph, (Cypher.playAll_cons hrun _).trans (Cypher.playAll_cons hrun' []),
    ofSides hclear haround (Graph.Sets.sameNodes hsets')
      (pairsKept_overlaidTies spec.references wanted attributes) ?_ ?_⟩
  · rw [Pivot.ties, hlinks]
    exact ties_updated attributes (fun _ => Side.mem_touched) Pivot.links_injOn
  · rw [Wiring.ties, hlinks']
    exact ties_updated attributes (fun _ => Side.mem_touched) (hclear.around haround).links_injOn

/-- A new related node is no tie. -/
lemma addsNodes (hclear : w.Clear spec.label g) {ids : List ℕ}
    (hadds : g.AddsNodes [w.relatedLabel] ids g') : Mirrors spec w g g' := by
  have hlabel : spec.label ∉ [w.relatedLabel] := by simpa using hclear.related.symm
  refine ⟨⟨hclear.parent, hclear.related, hadds.apart hclear.apart_parent fun h => absurd h hlabel,
    hadds.apart hclear.apart_related fun h => absurd h hlabel,
    hclear.ends.imp_right fun ⟨hne, hapart⟩ =>
      ⟨hne, hadds.apart hapart fun h => absurd (List.mem_singleton.mp h) hne⟩⟩,
    ⟨id, fun _ _ hpairs => hpairs, ?_, ?_⟩, fun v i hi => hadds.holding_old hi,
    fun v j hj => hadds.holding_old hj⟩
  · rw [Pivot.ties, Pivot.links_addsNodes hadds hlabel]
    rfl
  · rw [Wiring.ties, Wiring.links_addsNodes hadds]
    rfl

end Mirrors

end GraphMapper
