import GraphMapper.Proofs.Graph.Compiled
import GraphMapper.Proofs.Graph.Reach

/-!
The rows of the matches of a relation.

* `Hops`, `DirectRelation.hop_rows` (**hops lead where relations lead**): the matches of a hop from a
  bound node have one row for each way to a node;
* `Anchor.hits`: the nodes with one of the keys, each with what it leads to;
* `Lookup.Finds`, `Relation.route_rows` (**lookups start from keys**): the matches of a lookup have
  one row for each of these.
-/

namespace GraphMapper

open Cypher (Direction Edge Env Expr Graph Interpretation Match Property conditionsOperands
  parameterValue routeRows)

variable {I : Interpretation} {g : Graph} {params : Row} {row : Env}

/-! ### Hops -/

/-- A row with a node more, and perhaps a pivot on the way to it. -/
structure Hops (target pivot : String) (row : Env) (j : ℕ) (row' : Env) : Prop where
  there : row' target = some (.node j)
  other : ∀ name, name ≠ target → name ≠ pivot → row' name = row name

lemma Hops.set (target pivot : String) (row : Env) (j : ℕ) :
    Hops target pivot row j (row.set target (.node j)) :=
  ⟨Env.set_self _ _ _, fun _ hne _ => Env.set_of_ne hne _ _⟩

/-- The value of a column in a row where its variable stands for a node. -/
lemma value_ofColumn {binder column : String} {i : ℕ} (hb : row binder = some (.node i))
    (hc : columnOwner column = "") :
    row.value g (Property.ofColumn binder column) = g.value i column := by
  rw [ofColumn_of_columnOwner_eq hc]
  exact Env.value_of_node hb

/-- The rows of a node whose column equals that of a node at hand. -/
lemma rows_columnsEqual (hI : I.EqualsJson) {target label column source column' : String} {i : ℕ}
    (hs : row source = some (.node i)) (ht : row target = none) (hc : columnOwner column = "")
    (hc' : columnOwner column' = "") :
    (Match.mk (nodePattern target label) [columnsEqual target column source column']).rows I g params
      row = (g.holding label column (g.value i column')).map fun j => row.set target (.node j) := by
  have hne : source ≠ target := by
    rintro rfl
    simp [hs] at ht
  rw [nodePattern, Cypher.Match.rows_node ht]
  refine congrArg (List.map _) (List.filter_congr fun j _ => ?_)
  have hsource : (row.set target (.node j)) source = some (.node i) := by
    rw [Env.set_of_ne hne, hs]
  rw [columnsEqual, Cypher.chain_conditionsOperands_equals, Cypher.Term.value,
    value_ofColumn (Env.set_self _ _ _) hc, value_ofColumn hsource hc', decide_eq_decide, hI.eq_yes]
  exact and_congr_right fun h => by rw [h]

/-- The rows of the edges from a node at hand, one for each edge. -/
lemma rows_edge {source target pivot label : String} {edge : Edge} {i : ℕ}
    (hs : row source = some (.node i)) (ht : row target = none)
    (hmeets : ∀ j e, ∃ row', edge.meets e (row.set target (.node j)) = [row'] ∧
      Hops target pivot row j row') :
    List.Forall₂ (Hops target pivot row)
      ((g.labelled label).flatMap fun j =>
        (g.between edge.edgeType edge.direction i j).map fun _ => j)
      ((Match.mk (.path ⟨source, none⟩ edge ⟨target, some label⟩) []).rows I g params row) := by
  choose f hf hhops using hmeets
  rw [Cypher.Match.rows_path hs ht]
  refine List.rel_flatMap (R := (· = ·)) (List.forall₂_refl _) ?_
  rintro j _ rfl
  have hmap : (g.between edge.edgeType edge.direction i j).flatMap (fun e => [f j e]) =
      (g.between edge.edgeType edge.direction i j).map (f j) := List.flatMap_pure_eq_map _ _
  simp only [hf]
  rw [hmap, List.forall₂_map_left_iff, List.forall₂_map_right_iff]
  exact List.forall₂_same.mpr fun e _ => hhops j e

namespace DirectRelation

variable {d : DirectRelation}

/-- The edges of a hop bind the pivot if there may be one, and nothing otherwise. -/
lemma meets_edge (d : DirectRelation) {target pivot : String} (hp : row pivot = none)
    (hne : pivot ≠ target) (hnil : pivot ≠ "") (edgeType : String) (direction : Direction)
    (j e : ℕ) :
    ∃ row', Edge.meets ⟨if d.kind = .belongsToMany then pivot else "", edgeType, direction⟩ e
      (row.set target (.node j)) = [row'] ∧ Hops target pivot row j row' := by
  by_cases hkind : d.kind = .belongsToMany
  · refine ⟨(row.set target (.node j)).set pivot (.edge e), ?_, ?_, fun name ht hpiv => ?_⟩
    · simp [Edge.meets, hkind, hnil, Env.set_of_ne hne, hp]
    · rw [Env.set_of_ne hne.symm, Env.set_self]
    · rw [Env.set_of_ne hpiv, Env.set_of_ne ht]
  · refine ⟨row.set target (.node j), ?_, .set target pivot row j⟩
    simp [Edge.meets, hkind]

/-- **Hops lead where relations lead**: the rows of a hop from a bound node are those of the nodes
that the hop leads to, one for each way. -/
theorem hop_rows (hI : I.EqualsJson) (hpivot : d.HasPivot)
    (hkeys : ∀ column ∈ d.keyColumns, columnOwner column = "") {source target pivot : String} {i : ℕ}
    (hs : row source = some (.node i)) (ht : row target = none) (hp : row pivot = none)
    (hne : pivot ≠ target) (hnil : pivot ≠ "") :
    List.Forall₂ (Hops target pivot row) (d.reached g i)
      (routeRows I g params (d.hop source target pivot) row) := by
  rcases d.tied hpivot with ⟨edge, hover⟩ | ⟨outer, inner, hover⟩ | ⟨spec, outer, inner, hover⟩
  · rw [hover.hop, hover.reached, Cypher.routeRows_singleton]
    exact rows_edge hs ht fun j e => d.meets_edge hp hne hnil _ _ j e
  · obtain ⟨ho, hi⟩ := hover.keyColumns
    rw [hover.hop, hover.reached, Cypher.routeRows_singleton,
      rows_columnsEqual hI hs ht (hkeys _ hi) (hkeys _ ho), List.forall₂_map_right_iff]
    exact List.forall₂_same.mpr fun j _ => .set target pivot row j
  · obtain ⟨⟨ho, hparent⟩, hrelated, hi⟩ := hover.keyColumns
    rw [hover.hop, hover.reached, Cypher.routeRows_cons,
      rows_columnsEqual hI hs hp (hkeys _ hparent) (hkeys _ ho), List.flatMap_map]
    refine List.rel_flatMap (R := (· = ·)) (List.forall₂_refl _) ?_
    rintro p _ rfl
    have ht' : (row.set pivot (.node p)) target = none := by
      rw [Env.set_of_ne hne.symm, ht]
    dsimp only
    rw [Cypher.routeRows_singleton,
      rows_columnsEqual hI (Env.set_self _ _ _) ht' (hkeys _ hi) (hkeys _ hrelated),
      List.forall₂_map_right_iff]
    refine List.forall₂_same.mpr fun j _ => ⟨Env.set_self _ _ _, fun name htarget hpiv => ?_⟩
    rw [Env.set_of_ne htarget, Env.set_of_ne hpiv]

end DirectRelation

/-! ### Keys -/

namespace Anchor

/-- The nodes with one of the keys and what they lead to, one pair for each path. -/
def hits (g : Graph) (a : Anchor) (keys : List Value) : List (ℕ × ℕ) :=
  ((g.labelled a.label).filter fun i =>
    g.value i a.column ∈ keys ∧ g.value i a.column ≠ .null).flatMap
      fun i => (a.onward i).map fun j => (i, j)

lemma key_mem_of_mem_hits {a : Anchor} {keys : List Value} {hit : ℕ × ℕ} (h : hit ∈ a.hits g keys) :
    g.value hit.1 a.column ∈ keys := by
  obtain ⟨i, hi, hhit⟩ := List.mem_flatMap.mp h
  obtain ⟨j, -, rfl⟩ := List.mem_map.mp hhit
  exact (of_decide_eq_true (List.mem_filter.mp hi).2).1

/-- Pairs of which the first parts are chosen twice. -/
lemma map_snd_filter_pairs {α β : Type} (l : List α) (onward : α → List β) (p q : α → Bool) :
    (((l.filter p).flatMap fun i => (onward i).map fun j => (i, j)).filter fun hit => q hit.1).map
      Prod.snd = (l.filter fun i => p i && q i).flatMap onward := by
  induction l with
  | nil => rfl
  | cons i rest ih =>
      cases hp : p i <;> cases hq : q i <;>
        simp [hp, hq, ih, List.filter_map, Function.comp_def]

/-- Of what the keys lead to, what one of them leads to. -/
lemma map_snd_filter_hits (g : Graph) (a : Anchor) {keys : List Value} {v : Value} (hv : v ∈ keys)
    (hnull : v ≠ .null) :
    ((a.hits g keys).filter fun hit => g.value hit.1 a.column = v).map Prod.snd = a.led g v := by
  rw [hits, map_snd_filter_pairs _ _ _ fun i => g.value i a.column = v, led, Graph.holding]
  refine congrArg (List.flatMap _) (List.filter_congr fun i _ => ?_)
  rw [← Bool.decide_and, decide_eq_decide]
  constructor
  · rintro ⟨⟨_, _⟩, rfl⟩
    exact ⟨rfl, hnull⟩
  · rintro ⟨rfl, _⟩
    exact ⟨⟨hv, hnull⟩, rfl⟩

end Anchor

/-! ### Lookups -/

/-- No name that is given out is bound. -/
def Unbound (row : Env) : Prop :=
  ∀ name, isGenerated name → row name = none

lemma unbound_nodeRow {binder : String} (h : isGenerated binder = false) (i : ℕ) :
    Unbound (nodeRow binder i) := fun name hname => by
  refine Env.set_of_ne ?_ _ _
  rintro rfl
  simp [h] at hname

lemma Hops.unbound {target pivot : String} {j : ℕ} {row' : Env} (h : Hops target pivot row j row')
    (ht : isGenerated target = false) (hp : isGenerated pivot = false) (hrow : Unbound row) :
    Unbound row' := fun name hname => by
  rw [h.other name ?_ ?_, hrow name hname]
  · rintro rfl
    simp [ht] at hname
  · rintro rfl
    simp [hp] at hname

/-- A row of a lookup: the key of the parent is that of the node it starts from, the related node has
its variable, and no name that is given out is bound. -/
structure Lookup.Finds (g : Graph) (key : Property) (column : String) (hit : ℕ × ℕ) (row : Env) :
    Prop where
  key : row.value g key = g.value hit.1 column
  related : row relatedVariable = some (.node hit.2)
  unbound : Unbound row

/-- The rows of the nodes with one of the keys. -/
lemma rows_oneOf (hI : I.EqualsJson) {binder label column parameter : String} {keys : List Value}
    (hc : columnOwner column = "") (hkeys : parameterValue params parameter = .array keys) :
    (Match.mk (nodePattern binder label)
      [.oneOf (Property.ofColumn binder column) parameter]).rows I g params .empty =
        ((g.labelled label).filter fun i =>
          g.value i column ∈ keys ∧ g.value i column ≠ .null).map (nodeRow binder) := by
  rw [nodePattern, Cypher.Match.rows_node rfl]
  refine congrArg (List.map _) (List.filter_congr fun i _ => ?_)
  have hvalue : (nodeRow binder i).value g (Property.ofColumn binder column) = g.value i column :=
    value_ofColumn (Env.set_self _ _ _) hc
  rw [decide_eq_decide]
  change Cypher.Truth.chain (conditionsOperands I g params
    [.test (.property _) .among (.parameter _)] (nodeRow binder i)) = .yes ↔ _
  rw [conditionsOperands, conditionsOperands, operands_test hvalue, hkeys]
  simp only [Cypher.Truth.joinedBy, List.append_nil, Cypher.Truth.chain_singleton, Cypher.Test.holds,
    Cypher.Truth.any_eq_yes, List.mem_map, hI.eq_yes]
  constructor
  · rintro ⟨k, hk, rfl, hne⟩
    exact ⟨hk, hne⟩
  · rintro ⟨hk, hne⟩
    exact ⟨_, hk, rfl, hne⟩

/-- Matches that start from the nodes with one of the keys and go on from each of them. -/
lemma rows_from (hI : I.EqualsJson) {binder label column parameter : String} {keys : List Value}
    (hc : columnOwner column = "") (hkeys : parameterValue params parameter = .array keys)
    {rest : List (Match Expr)} {onward : ℕ → List ℕ}
    (h : ∀ i, List.Forall₂
      (fun j row => Lookup.Finds g (Property.ofColumn binder column) column (i, j) row) (onward i)
      (routeRows I g params rest (nodeRow binder i))) :
    List.Forall₂ (Lookup.Finds g (Property.ofColumn binder column) column)
      (Anchor.hits g ⟨label, column, onward⟩ keys)
      (routeRows I g params
        (⟨nodePattern binder label, [.oneOf (Property.ofColumn binder column) parameter]⟩ :: rest)
        .empty) := by
  rw [Cypher.routeRows_cons, rows_oneOf hI hc hkeys, List.flatMap_map, Anchor.hits]
  refine List.rel_flatMap (R := (· = ·)) (List.forall₂_refl _) ?_
  rintro i _ rfl
  exact List.forall₂_map_left_iff.mpr (h i)

/-- One hop from a parent. -/
lemma DirectRelation.lookup_rows (hI : I.EqualsJson) {d : DirectRelation} (hpivot : d.HasPivot)
    (hkeys : ∀ column ∈ d.keyColumns, columnOwner column = "") {column : String}
    (hc : columnOwner column = "") (i : ℕ) :
    List.Forall₂
      (fun j row => Lookup.Finds g (Property.ofColumn parentVariable column) column (i, j) row)
      (d.reached g i)
      (routeRows I g params (d.hop parentVariable relatedVariable pivotVariable)
        (nodeRow parentVariable i)) := by
  have hparent : nodeRow parentVariable i parentVariable = some (.node i) := Env.set_self _ _ _
  refine (d.hop_rows hI hpivot hkeys hparent rfl rfl (by decide) (by decide)).imp fun j row h => ?_
  refine ⟨value_ofColumn ?_ hc, h.there,
    h.unbound (by decide) (by decide) (unbound_nodeRow (by decide) i)⟩
  rw [h.other _ (by decide) (by decide), hparent]

/-- Two hops from a parent. -/
lemma ThroughRelation.lookup_rows (hI : I.EqualsJson) {t : ThroughRelation}
    (hpivots : (Relation.through t).HasPivots)
    (hkeys : ∀ column ∈ (Relation.through t).keyColumns, columnOwner column = "") {column : String}
    (hc : columnOwner column = "") (i : ℕ) :
    List.Forall₂
      (fun j row => Lookup.Finds g (Property.ofColumn parentVariable column) column (i, j) row)
      ((Relation.through t).reached g i)
      (routeRows I g params (t.first.hop parentVariable "mid0" "pivot0" ++
        t.second.hop "mid0" relatedVariable pivotVariable) (nodeRow parentVariable i)) := by
  obtain ⟨hfirst, hsecond⟩ := List.forall_mem_append.mp hkeys
  have hparent : nodeRow parentVariable i parentVariable = some (.node i) := Env.set_self _ _ _
  rw [Cypher.routeRows_append, Relation.reached]
  refine List.rel_flatMap
    (t.first.hop_rows hI hpivots.1 hfirst hparent rfl rfl (by decide) (by decide)) ?_
  intro j row hmid
  have hrelated : row relatedVariable = none := hmid.other _ (by decide) (by decide)
  have hpivot : row pivotVariable = none := hmid.other _ (by decide) (by decide)
  have hunbound := hmid.unbound (by decide) (by decide) (unbound_nodeRow (by decide) i)
  refine (t.second.hop_rows hI hpivots.2 hsecond hmid.there hrelated hpivot (by decide)
    (by decide)).imp fun k row' h => ?_
  refine ⟨value_ofColumn ?_ hc, h.there, h.unbound (by decide) (by decide) hunbound⟩
  rw [h.other _ (by decide) (by decide), hmid.other _ (by decide) (by decide), hparent]

/-- The related node itself is looked up by its key. -/
lemma rows_related (hI : I.EqualsJson) {label column parameter : String} {keys : List Value}
    (hc : columnOwner column = "") (hkeys : parameterValue params parameter = .array keys) :
    List.Forall₂ (Lookup.Finds g (Property.ofColumn relatedVariable column) column)
      (Anchor.hits g ⟨label, column, fun j => [j]⟩ keys)
      (routeRows I g params [⟨nodePattern relatedVariable label,
        [.oneOf (Property.ofColumn relatedVariable column) parameter]⟩] .empty) := by
  refine rows_from hI hc hkeys fun j => ?_
  rw [Cypher.routeRows_nil]
  have hrelated : nodeRow relatedVariable j relatedVariable = some (.node j) := Env.set_self _ _ _
  exact .cons ⟨value_ofColumn hrelated hc, hrelated, unbound_nodeRow (by decide) j⟩ .nil

/-- The pivots are looked up by their reference to the parent. -/
lemma rows_pivot (hI : I.EqualsJson) {label column label' column' reference parameter : String}
    {keys : List Value} (hc : columnOwner column = "") (hc' : columnOwner column' = "")
    (hr : columnOwner reference = "") (hkeys : parameterValue params parameter = .array keys) :
    List.Forall₂ (Lookup.Finds g (Property.ofColumn pivotVariable column) column)
      (Anchor.hits g ⟨label, column, fun p => g.holding label' column' (g.value p reference)⟩ keys)
      (routeRows I g params
        [⟨nodePattern pivotVariable label,
            [.oneOf (Property.ofColumn pivotVariable column) parameter]⟩,
          ⟨nodePattern relatedVariable label',
            [columnsEqual relatedVariable column' pivotVariable reference]⟩] .empty) := by
  refine rows_from hI hc hkeys fun p => ?_
  have hpivot : nodeRow pivotVariable p pivotVariable = some (.node p) := Env.set_self _ _ _
  rw [Cypher.routeRows_singleton, rows_columnsEqual hI hpivot rfl hc' hr,
    List.forall₂_map_right_iff]
  refine List.forall₂_same.mpr fun j _ => ?_
  have hhop := Hops.set relatedVariable pivotVariable (nodeRow pivotVariable p) j
  refine ⟨value_ofColumn ?_ hc, hhop.there,
    hhop.unbound (by decide) (by decide) (unbound_nodeRow (by decide) p)⟩
  rw [Env.set_of_ne (by decide), hpivot]

/-- **Lookups start from keys**: the rows of the matches of a lookup are those of the nodes that have
one of the keys, with all that each of them leads to. -/
theorem Relation.route_rows (hI : I.EqualsJson) {r : Relation} (hpivots : r.HasPivots)
    (hcolumns : ∀ column ∈ r.keyColumns, columnOwner column = "") {parameter : String}
    {keys : List Value} (hkeys : parameterValue params parameter = .array keys) :
    List.Forall₂ (Lookup.Finds g (r.route parameter).2 (r.anchor g).column)
      ((r.anchor g).hits g keys) (routeRows I g params (r.route parameter).1 .empty) := by
  have hparent := hcolumns _ r.parentKey_mem
  cases r with
  | through t =>
      exact rows_from hI hparent hkeys fun i => t.lookup_rows hI hpivots hcolumns hparent i
  | direct d =>
      rw [Relation.route]
      rcases d.tied hpivots with ⟨edge, hover⟩ | ⟨outer, inner, hover⟩ | ⟨spec, outer, inner, hover⟩
      · rw [hover.directRoute?, hover.anchor]
        exact rows_from hI hparent hkeys fun i => d.lookup_rows hI hpivots hcolumns hparent i
      · rw [hover.directRoute?, hover.anchor]
        exact rows_related hI (hcolumns _ hover.keyColumns.2) hkeys
      · rw [hover.directRoute?, hover.anchor]
        obtain ⟨⟨-, hreference⟩, hrelated, hinner⟩ := hover.keyColumns
        exact rows_pivot hI (hcolumns _ hreference) (hcolumns _ hinner) (hcolumns _ hrelated) hkeys

/-! ### Conditions of the matches -/

/-- The conditions of a hop are tests. -/
lemma DirectRelation.hop_tests {d : DirectRelation} (hpivot : d.HasPivot)
    (source target pivot : String) : ∀ m ∈ d.hop source target pivot, m.TestsOnly := by
  rcases d.tied hpivot with ⟨edge, hover⟩ | ⟨outer, inner, hover⟩ | ⟨spec, outer, inner, hover⟩ <;>
    simp [hover.hop, Match.TestsOnly, columnsEqual, Expr.equals]

/-- The matches of a lookup are some, and their conditions are tests. -/
lemma Relation.route_tests {r : Relation} (hpivots : r.HasPivots) (parameter : String) :
    (r.route parameter).1 ≠ [] ∧ ∀ m ∈ (r.route parameter).1, m.TestsOnly := by
  have hstart (binder label : String) (key : Property) :
      Match.TestsOnly ⟨nodePattern binder label, [.oneOf key parameter]⟩ := by
    simp [Match.TestsOnly, Expr.oneOf]
  cases r with
  | through t =>
      refine ⟨List.cons_ne_nil _ _, List.forall_mem_cons.mpr ⟨hstart _ _ _, ?_⟩⟩
      exact List.forall_mem_append.mpr
        ⟨t.first.hop_tests hpivots.1 _ _ _, t.second.hop_tests hpivots.2 _ _ _⟩
  | direct d =>
      rw [Relation.route]
      rcases d.tied hpivots with ⟨edge, hover⟩ | ⟨outer, inner, hover⟩ | ⟨spec, outer, inner, hover⟩
      · rw [hover.directRoute?]
        exact ⟨List.cons_ne_nil _ _,
          List.forall_mem_cons.mpr ⟨hstart _ _ _, d.hop_tests hpivots _ _ _⟩⟩
      · rw [hover.directRoute?]
        exact ⟨List.cons_ne_nil _ _, List.forall_mem_singleton.mpr (hstart _ _ _)⟩
      · rw [hover.directRoute?]
        refine ⟨List.cons_ne_nil _ _, List.forall_mem_cons.mpr ⟨hstart _ _ _, ?_⟩⟩
        simp [Match.TestsOnly, columnsEqual, Expr.equals]

end GraphMapper
