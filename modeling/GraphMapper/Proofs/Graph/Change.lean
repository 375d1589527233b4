import GraphMapper.Proofs.Graph.Statement
import GraphMapper.Proofs.Value.Fields

/-!
What the changing steps of a statement leave of a graph.

* `overlay`: properties as a function of their names, after some are set; a name that is set no longer
  tells what it was, setting twice is setting once, and entries that were made before make no difference;
* `Graph.SameElements`: only properties differ; `Graph.changes`, `Graph.ofNode_changes`,
  `Graph.ofEdge_changes`: each node and each edge is changed by what concerns it, in order;
* `Graph.Gives`: some nodes or edges were given properties, each its own;
* `Graph.AddsNodes`, `Graph.AddsEdges`: nodes or edges more, everything else as it was;
* `Pattern.createAll_node`, `Pattern.createAll_path`: one new node, or one new edge, for each row;
* `playAll`: the graph after statements one after the other.
-/

namespace GraphMapper

/-! ### Properties by name -/

namespace Fields

variable {α : Type}

lemma get?_put (fields : Fields α) (name : String) (entry : α) :
    get? (fields.put name entry) = Function.update (get? fields) name (some entry) := by
  funext other
  by_cases h : other = name
  · subst h
    rw [get?_put_self, Function.update_self]
  · rw [get?_put_of_ne _ h, Function.update_of_ne h]

/-- An entry that is made twice is made once. -/
lemma put_put_self (fields : Fields α) (name : String) (x y : α) :
    (fields.put name x).put name y = fields.put name y := by
  induction fields with
  | nil => simp [put]
  | cons entry rest ih =>
      obtain ⟨key, old⟩ := entry
      rw [put]
      split_ifs with hlt heq
      · simp [put, hlt]
      · simp [put, heq]
      · simp [put, hlt, heq, ih]

lemma get?_drop_self (fields : Fields α) (name : String) : (fields.drop name).get? name = none := by
  induction fields with
  | nil => rfl
  | cons head rest ih =>
      obtain ⟨key, entry⟩ := head
      rw [drop, List.filter_cons]
      rw [drop] at ih
      split_ifs with hkey
      · have hne : name ≠ key := fun h => by simp [h] at hkey
        rw [get?, List.lookup_cons, beq_eq_false_iff_ne.mpr hne]
        exact ih
      · exact ih

lemma get?_drop_update (fields : Fields α) (name : String) :
    get? (fields.drop name) = Function.update (get? fields) name none := by
  funext other
  by_cases h : other = name
  · subst h
    rw [get?_drop_self, Function.update_self]
  · rw [get?_drop _ h, Function.update_of_ne h]

end Fields

namespace Cypher

/-- Properties by name after some are set; null takes a property away. -/
def overlay (changes : Row) (f : String → Option Value) : String → Option Value :=
  changes.foldl
    (fun f entry => Function.update f entry.1 (if entry.2.isNull then none else some entry.2)) f

lemma get?_assignProperties (properties changes : Row) :
    Fields.get? (assignProperties properties changes) =
      overlay changes (Fields.get? properties) := by
  induction changes generalizing properties with
  | nil => rfl
  | cons entry rest ih =>
      rw [assignProperties, List.foldl_cons, ← assignProperties, ih, overlay, overlay,
        List.foldl_cons]
      split_ifs
      · rw [Fields.get?_drop_update]
      · rw [Fields.get?_put]

section Overlay

variable {changes : Row} {f g : String → Option Value} {name : String}

/-- What a property is after some are set depends on what it was alone. -/
lemma overlay_congr (h : f name = g name) : overlay changes f name = overlay changes g name := by
  induction changes generalizing f g with
  | nil => exact h
  | cons entry rest ih =>
      rw [overlay, overlay, List.foldl_cons, List.foldl_cons]
      refine ih ?_
      by_cases hname : name = entry.1
      · subst hname
        rw [Function.update_self, Function.update_self]
      · rw [Function.update_of_ne hname, Function.update_of_ne hname, h]

lemma overlay_of_notMem (h : name ∉ Fields.names changes) : overlay changes f name = f name := by
  induction changes generalizing f with
  | nil => rfl
  | cons entry rest ih =>
      obtain ⟨hname, hrest⟩ : name ≠ entry.1 ∧ name ∉ Fields.names rest := by
        simpa [Fields.names] using h
      rw [overlay, List.foldl_cons, ← overlay, ih hrest, Function.update_of_ne hname]

/-- A property that is set no longer tells what it was. -/
lemma overlay_of_mem (h : name ∈ Fields.names changes) :
    overlay changes f name = overlay changes g name := by
  induction changes generalizing f g with
  | nil => simp [Fields.names] at h
  | cons entry rest ih =>
      rw [overlay, overlay, List.foldl_cons, List.foldl_cons, ← overlay, ← overlay]
      by_cases hrest : name ∈ Fields.names rest
      · exact ih hrest
      · have hname : name = entry.1 := by
          rcases List.mem_cons.mp h with h | h
          · exact h
          · exact absurd h hrest
        subst hname
        exact overlay_congr (by rw [Function.update_self, Function.update_self])

/-- Setting twice is setting once. -/
lemma overlay_overlay (changes : Row) (f : String → Option Value) :
    overlay changes (overlay changes f) = overlay changes f := by
  funext name
  by_cases h : name ∈ Fields.names changes
  · exact overlay_of_mem h
  · rw [overlay_of_notMem h]

lemma overlay_put_of_ne {other : String} (h : other ≠ name) (changes : Row) (v : Value)
    (f : String → Option Value) :
    overlay (changes.put name v) f other = overlay changes f other := by
  induction changes generalizing f with
  | nil => exact Function.update_of_ne h _ _
  | cons entry rest ih =>
      obtain ⟨key, old⟩ := entry
      rw [Fields.put]
      split_ifs with hlt heq
      · exact overlay_congr (Function.update_of_ne h _ _)
      · subst heq
        change overlay rest (Function.update f name _) other =
          overlay rest (Function.update f name _) other
        exact overlay_congr (by rw [Function.update_of_ne h, Function.update_of_ne h])
      · exact ih _

/-- An entry of another name that was made before makes no difference. -/
lemma overlay_put_put {other : String} (h : name ≠ other) (changes : Row) (x v : Value)
    (f : String → Option Value) :
    overlay ((changes.put other x).put name v) f name = overlay (changes.put name v) f name := by
  have hcons {key : String} (hkey : name ≠ key) (y : Value) (rest : Row)
      (f : String → Option Value) : overlay ((key, y) :: rest) f name = overlay rest f name :=
    overlay_congr (Function.update_of_ne hkey _ _)
  induction changes generalizing f with
  | nil =>
      rw [Fields.put, Fields.put, Fields.put, if_neg h]
      split_ifs with hlt
      · exact hcons h x [] _
      · exact hcons h x _ f
  | cons entry rest ih =>
      obtain ⟨key, old⟩ := entry
      rw [Fields.put]
      split_ifs with hlt heq
      · rw [Fields.put, if_neg h]
        split_ifs with hname
        · rw [Fields.put, if_pos (String.lt_trans hname hlt)]
          exact hcons h x _ _
        · exact hcons h x _ f
      · subst heq
        rw [Fields.put, Fields.put, if_neg h, if_neg h]
        split_ifs with hname
        · exact (hcons h x rest _).trans (hcons h old rest _).symm
        · exact (hcons h x _ f).trans (hcons h old _ f).symm
      · rw [Fields.put, Fields.put]
        split_ifs with hname hkey
        · exact overlay_put_of_ne h rest x _
        · exact overlay_put_of_ne h rest x _
        · exact ih _

lemma overlay_put_self (h : name ∉ Fields.names changes) {v : Value} (hv : v ≠ .null)
    (f : String → Option Value) : overlay (changes.put name v) f name = some v := by
  have hset : (if v.isNull then none else some v) = some v := by
    cases v <;> simp_all [Value.isNull]
  induction changes generalizing f with
  | nil => exact (Function.update_self _ _ _).trans hset
  | cons entry rest ih =>
      obtain ⟨key, old⟩ := entry
      obtain ⟨hkey, hrest⟩ : name ≠ key ∧ name ∉ Fields.names rest := by simpa [Fields.names] using h
      rw [Fields.put]
      split_ifs with hlt
      · rw [overlay, List.foldl_cons, ← overlay, overlay_of_notMem h, Function.update_self]
        exact hset
      · exact ih hrest _

end Overlay

/-! ### Changes of properties -/

namespace Graph

/-- Graphs with the same nodes and edges, which may differ in properties. -/
structure SameElements (g g' : Graph) : Prop where
  nodes : g'.nodes = g.nodes
  edges : g'.edges = g.edges
  labels : g'.labels = g.labels
  edgeType : g'.edgeType = g.edgeType
  source : g'.source = g.source
  target : g'.target = g.target

namespace SameElements

variable {g g' g'' : Graph}

lemma refl (g : Graph) : g.SameElements g :=
  ⟨rfl, rfl, rfl, rfl, rfl, rfl⟩

lemma trans (h : g.SameElements g') (h' : g'.SameElements g'') : g.SameElements g'' where
  nodes := h'.nodes.trans h.nodes
  edges := h'.edges.trans h.edges
  labels := h'.labels.trans h.labels
  edgeType := h'.edgeType.trans h.edgeType
  source := h'.source.trans h.source
  target := h'.target.trans h.target

lemma labelled (h : g.SameElements g') (label : String) : g'.labelled label = g.labelled label := by
  rw [Graph.labelled, Graph.labelled, h.nodes, h.labels]

lemma between (h : g.SameElements g') (edgeType : String) (direction : Direction) (i j : ℕ) :
    g'.between edgeType direction i j = g.between edgeType direction i j := by
  rw [Graph.between, Graph.between, h.edges, h.edgeType]
  cases direction <;> simp only [joins, h.source, h.target]

end SameElements

lemma sameElements_change (g : Graph) (f : Row → Row) (entity : Entity) :
    g.SameElements (g.change f entity) := by
  cases entity <;> exact ⟨rfl, rfl, rfl, rfl, rfl, rfl⟩

/-- Two changes of one node or edge are one. -/
lemma change_change (g : Graph) (f f' : Row → Row) (entity : Entity) :
    (g.change f entity).change f' entity = g.change (fun row => f' (f row)) entity := by
  cases entity <;> simp [change]

/-- Changes one after the other. -/
def changes (g : Graph) (all : List (Entity × (Row → Row))) : Graph :=
  all.foldl (fun g p => g.change p.2 p.1) g

/-- What the changes of one node or edge make of properties. -/
def changesOf (all : List (Entity × (Row → Row))) (entity : Entity) (row : Row) : Row :=
  (all.filter fun p => p.1 = entity).foldl (fun row p => p.2 row) row

lemma sameElements_changes (g : Graph) (all : List (Entity × (Row → Row))) :
    g.SameElements (g.changes all) := by
  induction all generalizing g with
  | nil => exact .refl g
  | cons p rest ih => exact (g.sameElements_change p.2 p.1).trans (ih _)

/-- Each node is changed by what concerns it, in order. -/
lemma ofNode_changes (g : Graph) (all : List (Entity × (Row → Row))) (i : ℕ) :
    (g.changes all).ofNode i = changesOf all (.node i) (g.ofNode i) := by
  induction all generalizing g with
  | nil => rfl
  | cons p rest ih =>
      obtain ⟨entity, f⟩ := p
      rw [changes, List.foldl_cons, ← changes, ih, changesOf, changesOf, List.filter_cons]
      by_cases h : entity = .node i
      · subst h
        simp [change]
      · rw [if_neg (by simpa using h)]
        congr 1
        cases entity with
        | node j =>
            have hij : i ≠ j := fun hij => h (by rw [hij])
            simp [change, Function.update_of_ne hij]
        | edge e => rfl
        | value v => rfl

/-- Each edge is changed by what concerns it, in order. -/
lemma ofEdge_changes (g : Graph) (all : List (Entity × (Row → Row))) (e : ℕ) :
    (g.changes all).ofEdge e = changesOf all (.edge e) (g.ofEdge e) := by
  induction all generalizing g with
  | nil => rfl
  | cons p rest ih =>
      obtain ⟨entity, f⟩ := p
      rw [changes, List.foldl_cons, ← changes, ih, changesOf, changesOf, List.filter_cons]
      by_cases h : entity = .edge e
      · subst h
        simp [change]
      · rw [if_neg (by simpa using h)]
        congr 1
        cases entity with
        | edge j =>
            have hej : e ≠ j := fun hej => h (by rw [hej])
            simp [change, Function.update_of_ne hej]
        | node i => rfl
        | value v => rfl

lemma changesOf_of_notMem {all : List (Entity × (Row → Row))} {entity : Entity}
    (h : entity ∉ all.map Prod.fst) (row : Row) : changesOf all entity row = row := by
  have hnone : all.filter (fun p => p.1 = entity) = [] :=
    List.filter_eq_nil_iff.mpr fun p hp => by
      rintro heq
      exact h (List.mem_map.mpr ⟨p, hp, by simpa using heq⟩)
  rw [changesOf, hnone, List.foldl_nil]

/-- What is changed once is changed by that. -/
lemma changesOf_of_nodup {all : List (Entity × (Row → Row))} (hnodup : (all.map Prod.fst).Nodup)
    {p : Entity × (Row → Row)} (hp : p ∈ all) (row : Row) : changesOf all p.1 row = p.2 row := by
  have hone : all.filter (fun q => q.1 = p.1) = [p] := by
    induction all with
    | nil => simp at hp
    | cons q rest ih =>
        rw [List.map_cons, List.nodup_cons] at hnodup
        rcases List.mem_cons.mp hp with rfl | hp
        · rw [List.filter_cons_of_pos (by simp), List.filter_eq_nil_iff.mpr]
          intro q hq heq
          exact hnodup.1 (List.mem_map.mpr ⟨q, hq, by simpa using heq⟩)
        · have hne : q.1 ≠ p.1 := fun heq =>
            hnodup.1 (heq ▸ List.mem_map_of_mem (f := Prod.fst) hp)
          rw [List.filter_cons_of_neg (by simpa using hne)]
          exact ih hnodup.2 hp
  rw [changesOf, hone, List.foldl_cons, List.foldl_nil]

/-- What is overlaid by the same properties any number of times is so once. -/
lemma get?_changesOf_overlay {all : List (Entity × (Row → Row))} {values : Row}
    (h : ∀ p ∈ all, ∀ row, Fields.get? (p.2 row) = overlay values (Fields.get? row))
    {entity : Entity} (hentity : entity ∈ all.map Prod.fst) (row : Row) :
    Fields.get? (changesOf all entity row) = overlay values (Fields.get? row) := by
  have hfold (some : List (Entity × (Row → Row))) (hsome : ∀ p ∈ some, p ∈ all) (row : Row) :
      overlay values (Fields.get? (some.foldl (fun row p => p.2 row) row)) =
        overlay values (Fields.get? row) := by
    induction some generalizing row with
    | nil => rfl
    | cons p rest ih =>
        rw [List.foldl_cons, ih (fun q hq => hsome q (List.mem_cons_of_mem _ hq)),
          h p (hsome p List.mem_cons_self), overlay_overlay]
  obtain ⟨p, hp, hpe⟩ := List.mem_map.mp hentity
  have hmem : p ∈ all.filter fun q => q.1 = entity := List.mem_filter.mpr ⟨hp, by simpa using hpe⟩
  obtain ⟨init, last, hsplit⟩ := List.eq_nil_or_concat' (all.filter fun q => q.1 = entity)
    |>.resolve_left (List.ne_nil_of_mem hmem)
  have hall : ∀ q ∈ init ++ [last], q ∈ all := fun q hq =>
    List.mem_of_mem_filter (p := fun q => q.1 = entity) (hsplit ▸ hq)
  rw [changesOf, hsplit, List.foldl_append, List.foldl_cons, List.foldl_nil,
    h last (hall last (by simp))]
  exact hfold init (fun q hq => hall q (List.mem_append_left _ hq)) row

/-- What no change is about keeps its properties. -/
lemma properties_changes_of_notMem (g : Graph) {all : List (Entity × (Row → Row))} {x : Entity}
    (h : x ∉ all.map Prod.fst) : x.properties (g.changes all) = x.properties g := by
  cases x with
  | node i => exact (g.ofNode_changes all i).trans (changesOf_of_notMem h _)
  | edge e => exact (g.ofEdge_changes all e).trans (changesOf_of_notMem h _)
  | value v => cases v <;> rfl

/-- Graphs of which the second one has given properties at some nodes, or edges, and is like the first
one otherwise. -/
structure Gives {α : Type} (g : Graph) (entity : ℕ → Entity) (made : List (α × ℕ)) (given : α → Row)
    (g' : Graph) : Prop where
  elements : g.SameElements g'
  given : ∀ m ∈ made, (entity m.2).properties g' = given m.1
  other : ∀ x, (∀ m ∈ made, x ≠ entity m.2) → x.properties g' = x.properties g

/-- Nodes, or edges, without repetitions are given properties one after the other. -/
lemma gives_changes {α : Type} {entity : ℕ → Entity} (hentity : entity = .node ∨ entity = .edge)
    {made : List (α × ℕ)} (hnodup : (made.map Prod.snd).Nodup) (given : α → Row) (g : Graph) :
    g.Gives entity made given (g.changes (made.map fun m => (entity m.2, fun _ => given m.1))) := by
  set all : List (Entity × (Row → Row)) := made.map fun m => (entity m.2, fun _ => given m.1) with hall
  have hinj : Function.Injective entity := by
    rcases hentity with rfl | rfl
    · exact fun _ _ => Entity.node.inj
    · exact fun _ _ => Entity.edge.inj
  have hids : (all.map Prod.fst).Nodup := by
    have h := hnodup.map hinj
    rw [List.map_map] at h
    rwa [hall, List.map_map]
  refine ⟨g.sameElements_changes all, fun m hm => ?_, fun x hx => ?_⟩
  · have hmem : (entity m.2, fun _ => given m.1) ∈ all := List.mem_map_of_mem hm
    rcases hentity with rfl | rfl
    · exact (g.ofNode_changes all m.2).trans (changesOf_of_nodup hids hmem _)
    · exact (g.ofEdge_changes all m.2).trans (changesOf_of_nodup hids hmem _)
  · refine g.properties_changes_of_notMem fun hmem => ?_
    obtain ⟨_, hp, rfl⟩ := List.mem_map.mp hmem
    obtain ⟨m, hm, rfl⟩ := List.mem_map.mp hp
    exact hx m hm rfl

/-! ### Nodes and edges more -/

/-- Nodes more, of the given labels, and everything else as it was. -/
structure AddsNodes (g : Graph) (labels : List String) (ids : List ℕ) (g' : Graph) : Prop where
  nodes : g'.nodes = g.nodes ++ ids
  labels_new : ∀ i ∈ ids, g'.labels i = labels
  labels_old : ∀ i ∈ g.nodes, g'.labels i = g.labels i
  ofNode_old : ∀ i ∈ g.nodes, g'.ofNode i = g.ofNode i
  edges : g'.edges = g.edges
  edgeType : g'.edgeType = g.edgeType
  source : g'.source = g.source
  target : g'.target = g.target
  ofEdge : g'.ofEdge = g.ofEdge

namespace AddsNodes

variable {g g' g'' : Graph} {labels : List String} {ids more : List ℕ}

lemma refl (g : Graph) (labels : List String) : g.AddsNodes labels [] g where
  nodes := (List.append_nil _).symm
  labels_new := by simp
  labels_old _ _ := rfl
  ofNode_old _ _ := rfl
  edges := rfl
  edgeType := rfl
  source := rfl
  target := rfl
  ofEdge := rfl

lemma trans (h : g.AddsNodes labels ids g') (h' : g'.AddsNodes labels more g'') :
    g.AddsNodes labels (ids ++ more) g'' where
  nodes := by rw [h'.nodes, h.nodes, List.append_assoc]
  labels_new i hi := by
    rcases List.mem_append.mp hi with hi | hi
    · rw [h'.labels_old i (h.nodes ▸ List.mem_append_right _ hi), h.labels_new i hi]
    · exact h'.labels_new i hi
  labels_old i hi := by
    rw [h'.labels_old i (h.nodes ▸ List.mem_append_left _ hi), h.labels_old i hi]
  ofNode_old i hi := by
    rw [h'.ofNode_old i (h.nodes ▸ List.mem_append_left _ hi), h.ofNode_old i hi]
  edges := h'.edges.trans h.edges
  edgeType := h'.edgeType.trans h.edgeType
  source := h'.source.trans h.source
  target := h'.target.trans h.target
  ofEdge := h'.ofEdge.trans h.ofEdge

lemma addNode (g : Graph) (labels : List String) :
    g.AddsNodes labels [unused g.nodes] (g.addNode labels) where
  nodes := rfl
  labels_new i hi := by
    rw [List.mem_singleton.mp hi]
    exact Function.update_self _ _ _
  labels_old i hi := Function.update_of_ne (ne_unused hi) _ _
  ofNode_old i hi := Function.update_of_ne (ne_unused hi) _ _
  edges := rfl
  edgeType := rfl
  source := rfl
  target := rfl
  ofEdge := rfl

lemma nodup (h : g.AddsNodes labels ids g') : ids.Nodup :=
  (h.nodes ▸ g'.nodes_nodup).of_append_right

lemma notMem (h : g.AddsNodes labels ids g') {i : ℕ} (hi : i ∈ ids) : i ∉ g.nodes := fun hg =>
  List.disjoint_of_nodup_append (h.nodes ▸ g'.nodes_nodup) hg hi

end AddsNodes

/-- Edges of a type more, each with its source and its target, and everything else as it was. -/
structure AddsEdges (g : Graph) (edgeType : String) (ties : List ((ℕ × ℕ) × ℕ)) (g' : Graph) :
    Prop where
  edges : g'.edges = g.edges ++ ties.map Prod.snd
  new : ∀ t ∈ ties, g'.edgeType t.2 = edgeType ∧ (g'.source t.2, g'.target t.2) = t.1
  old : ∀ e ∈ g.edges, g'.edgeType e = g.edgeType e ∧ g'.source e = g.source e ∧
    g'.target e = g.target e ∧ g'.ofEdge e = g.ofEdge e
  nodes : g'.nodes = g.nodes
  labels : g'.labels = g.labels
  ofNode : g'.ofNode = g.ofNode

namespace AddsEdges

variable {g g' g'' : Graph} {edgeType : String} {ties more : List ((ℕ × ℕ) × ℕ)}

lemma refl (g : Graph) (edgeType : String) : g.AddsEdges edgeType [] g where
  edges := (List.append_nil _).symm
  new := by simp
  old _ _ := ⟨rfl, rfl, rfl, rfl⟩
  nodes := rfl
  labels := rfl
  ofNode := rfl

lemma trans (h : g.AddsEdges edgeType ties g') (h' : g'.AddsEdges edgeType more g'') :
    g.AddsEdges edgeType (ties ++ more) g'' where
  edges := by rw [h'.edges, h.edges, List.map_append, List.append_assoc]
  new t ht := by
    rcases List.mem_append.mp ht with ht | ht
    · have hmem : t.2 ∈ g'.edges :=
        h.edges ▸ List.mem_append_right _ (List.mem_map_of_mem (f := Prod.snd) ht)
      obtain ⟨htype, hsource, htarget, -⟩ := h'.old t.2 hmem
      rw [htype, hsource, htarget]
      exact h.new t ht
    · exact h'.new t ht
  old e he := by
    obtain ⟨htype, hsource, htarget, hproperties⟩ := h'.old e (h.edges ▸ List.mem_append_left _ he)
    rw [htype, hsource, htarget, hproperties]
    exact h.old e he
  nodes := h'.nodes.trans h.nodes
  labels := h'.labels.trans h.labels
  ofNode := h'.ofNode.trans h.ofNode

lemma addEdge (g : Graph) (edgeType : String) {i j : ℕ} (hi : i ∈ g.nodes) (hj : j ∈ g.nodes) :
    g.AddsEdges edgeType [((i, j), unused g.edges)] (g.addEdge edgeType i j hi hj) where
  edges := rfl
  new t ht := by
    rw [List.mem_singleton.mp ht]
    exact ⟨Function.update_self _ _ _,
      Prod.ext (Function.update_self _ _ _) (Function.update_self _ _ _)⟩
  old e he := ⟨Function.update_of_ne (ne_unused he) _ _, Function.update_of_ne (ne_unused he) _ _,
    Function.update_of_ne (ne_unused he) _ _, Function.update_of_ne (ne_unused he) _ _⟩
  nodes := rfl
  labels := rfl
  ofNode := rfl

lemma nodup (h : g.AddsEdges edgeType ties g') : (ties.map Prod.snd).Nodup :=
  (h.edges ▸ g'.edges_nodup).of_append_right

lemma notMem (h : g.AddsEdges edgeType ties g') {t : (ℕ × ℕ) × ℕ} (ht : t ∈ ties) :
    t.2 ∉ g.edges := fun hg =>
  List.disjoint_of_nodup_append (h.edges ▸ g'.edges_nodup) hg
    (List.mem_map_of_mem (f := Prod.snd) ht)

end AddsEdges

end Graph

/-! ### Creation -/

/-- The source and the target of an edge that is made from one node to another. -/
def Direction.ends (direction : Direction) (i j : ℕ) : ℕ × ℕ :=
  match direction with
  | .incoming => (j, i)
  | .outgoing | .both => (i, j)

section CreateAll

variable {α : Type} {row : α → Env} {items : List α}

/-- A node on its own is made anew for each row. -/
lemma Pattern.createAll_node {binder : String} (label : String)
    (h : ∀ a ∈ items, row a binder = none) (g : Graph) :
    ∃ (made : List (α × ℕ)) (g' : Graph),
      Pattern.createAll (.node ⟨binder, some label⟩) g (items.map row) =
        (g', made.map fun m => (row m.1).set binder (.node m.2)) ∧
      made.map Prod.fst = items ∧ g.AddsNodes [label] (made.map Prod.snd) g' := by
  induction items generalizing g with
  | nil => exact ⟨[], g, rfl, rfl, .refl g _⟩
  | cons a rest ih =>
      obtain ⟨made, g', hall, hitems, hadds⟩ :=
        ih (fun b hb => h b (List.mem_cons_of_mem _ hb)) (g.addNode [label])
      refine ⟨(a, Graph.unused g.nodes) :: made, g', ?_, by rw [List.map_cons, hitems],
        (Graph.AddsNodes.addNode g [label]).trans hadds⟩
      simp [createAll, create, Node.create, h a List.mem_cons_self, hall]

/-- An edge between bound nodes is made anew for each row. -/
lemma Pattern.createAll_path {left right : String} (edge : Edge) (hbinder : edge.binder ≠ "")
    (ends : α → ℕ × ℕ) (g : Graph)
    (h : ∀ a ∈ items, row a left = some (.node (ends a).1) ∧
      row a right = some (.node (ends a).2) ∧ (ends a).1 ∈ g.nodes ∧ (ends a).2 ∈ g.nodes) :
    ∃ (made : List (α × ℕ)) (g' : Graph),
      Pattern.createAll (.path ⟨left, none⟩ edge ⟨right, none⟩) g (items.map row) =
        (g', made.map fun m => (row m.1).set edge.binder (.edge m.2)) ∧
      made.map Prod.fst = items ∧
      g.AddsEdges edge.edgeType
        (made.map fun m => (edge.direction.ends (ends m.1).1 (ends m.1).2, m.2)) g' := by
  induction items generalizing g with
  | nil => exact ⟨[], g, rfl, rfl, .refl g _⟩
  | cons a rest ih =>
      obtain ⟨hleft, hright, hi, hj⟩ := h a List.mem_cons_self
      obtain ⟨g₁, hadd, hcreate⟩ : ∃ g₁,
          g.AddsEdges edge.edgeType
            [(edge.direction.ends (ends a).1 (ends a).2, Graph.unused g.edges)] g₁ ∧
          Pattern.create g (row a) (.path ⟨left, none⟩ edge ⟨right, none⟩) =
            (g₁, (row a).set edge.binder (.edge (Graph.unused g.edges))) := by
        obtain ⟨binder, edgeType, direction⟩ := edge
        cases direction with
        | incoming =>
            refine ⟨_, .addEdge g edgeType hj hi, ?_⟩
            simp [Pattern.create, Node.create, Env.node?, Edge.create, hleft, hright, hi, hj, hbinder]
        | outgoing =>
            refine ⟨_, .addEdge g edgeType hi hj, ?_⟩
            simp [Pattern.create, Node.create, Env.node?, Edge.create, hleft, hright, hi, hj, hbinder]
        | both =>
            refine ⟨_, .addEdge g edgeType hi hj, ?_⟩
            simp [Pattern.create, Node.create, Env.node?, Edge.create, hleft, hright, hi, hj, hbinder]
      obtain ⟨made, g', hall, hitems, hadds⟩ := ih g₁ fun b hb => by
        rw [hadd.nodes]
        exact h b (List.mem_cons_of_mem _ hb)
      refine ⟨(a, Graph.unused g.edges) :: made, g', ?_, by rw [List.map_cons, hitems],
        hadd.trans hadds⟩
      rw [List.map_cons, createAll, hcreate]
      simp only [hall, List.map_cons]

end CreateAll

/-! ### Statements one after the other -/

/-- The graph after statements one after the other; there is none if one is refused. -/
def playAll (I : Interpretation) : List Statement → Graph → Option Graph
  | [], g => some g
  | s :: rest, g => (s.run I g).bind fun st => playAll I rest st.graph

lemma playAll_cons {I : Interpretation} {s : Statement} {g : Graph} {st : State}
    (h : s.run I g = some st) (rest : List Statement) :
    playAll I (s :: rest) g = playAll I rest st.graph := by
  rw [playAll, h]
  rfl

end Cypher

end GraphMapper
