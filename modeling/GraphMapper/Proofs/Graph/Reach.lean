import GraphMapper.Proofs.Graph.Meaning
import GraphMapper.Proofs.Reading.Truth
import GraphMapper.Relation.Pattern

/-!
Where relations lead.

* `Graph.holding`: the nodes of a label that have a value in a column;
* `DirectRelation.reached`, `Relation.reached`: the nodes that a relation leads to, read off the
  graph;
* `Relation.Accepted`, `Relation.Plain`: relations as they are declared and composed, and ones whose
  columns name no variable;
* `Anchor`, `Relation.anchor`: where the search for what is related to given keys starts;
* `DirectRelation.tied`: a hop goes over edges, over columns that agree, or over a pivot, in all that
  is made of it;
* `Relation.correlation_reached` (**correlations lead where relations lead**).
-/

namespace GraphMapper

open Cypher (Env Expr Graph Interpretation Match Property)

/-! ### Nodes that a relation leads to -/

/-- The nodes of a label that have a value in a column; null is no value. -/
def Cypher.Graph.holding (g : Graph) (label column : String) (v : Value) : List ℕ :=
  (g.labelled label).filter fun j => g.value j column = v ∧ v ≠ .null

lemma Cypher.Graph.mem_holding {g : Graph} {label column : String} {v : Value} {j : ℕ} :
    j ∈ g.holding label column v ↔ j ∈ g.labelled label ∧ g.value j column = v ∧ v ≠ .null := by
  simp [Graph.holding]

/-- The nodes that one hop leads to from a node: over each edge, or wherever the columns agree, with a
pivot between if there is one. -/
def DirectRelation.reached (g : Graph) (d : DirectRelation) (i : ℕ) : List ℕ :=
  match d.strategy with
  | .nativeEdge edge _ _ | .hybrid _ edge _ _ =>
    (g.labelled d.relatedLabel).flatMap fun j =>
      (g.between edge.edgeType edge.direction i j).map fun _ => j
  | .foreignKey keys =>
    match d.kind with
    | .belongsTo => g.holding d.relatedLabel keys.localKey (g.value i keys.foreignKey)
    | .hasOne | .hasMany => g.holding d.relatedLabel keys.foreignKey (g.value i keys.localKey)
    | .belongsToMany =>
      match d.pivot with
      | none => []
      | some spec =>
        (g.holding spec.label spec.parentReference (g.value i keys.localKey)).flatMap fun p =>
          g.holding d.relatedLabel keys.foreignKey (g.value p spec.relatedReference)

/-- The nodes that a relation leads to from a node, once for each path. -/
def Relation.reached (g : Graph) : Relation → ℕ → List ℕ
  | .direct d, i => d.reached g i
  | .through t, i => (t.first.reached g i).flatMap (t.second.reached g)

/-! ### Relations as they are declared -/

/-- Relations that a declaration or a composition gives, with conditions and orders added later. -/
inductive Relation.Accepted : Relation → Prop where
  | built {declaration : Declaration} {d : DirectRelation} (h : declaration.build = .ok d) :
    Accepted (.direct d)
  | composed {name : String} {kind : RelationKind} {first second r : Relation}
    (h : Relation.compose name kind first second = .ok r) (first_accepted : Accepted first)
    (second_accepted : Accepted second) : Accepted r
  | constrained {r : Relation} (h : Accepted r) (filter : Filter) : Accepted (r.constrain filter)
  | ordered {r : Relation} (h : Accepted r) (column : String) (direction : Cypher.SortDirection) :
    Accepted (r.orderBy column direction)

/-- A many-to-many relation kept in properties has a pivot. -/
def DirectRelation.HasPivot (d : DirectRelation) : Prop :=
  ∀ keys, d.strategy = .foreignKey keys → d.kind = .belongsToMany → ∃ spec, d.pivot = some spec

/-- All hops of a relation have the pivots they need. -/
def Relation.HasPivots : Relation → Prop
  | .direct d => d.HasPivot
  | .through t => t.first.HasPivot ∧ t.second.HasPivot

/-- A many-to-many relation that is built has a pivot if properties are kept. -/
lemma Declaration.build_pivot {declaration : Declaration} {d : DirectRelation}
    (h : declaration.build = .ok d) (hkind : d.kind = .belongsToMany) {keys : Keys}
    (hkeys : d.strategy.keys? = some keys) : ∃ spec, d.pivot = some spec := by
  rw [Declaration.build] at h
  rcases hs : declaration.resolveStrategy with e | strategy
  · simp [hs, bind, Except.bind] at h
  · rcases hp : declaration.checkPivot strategy with e | ⟨⟩
    · simp [hs, hp, bind, Except.bind] at h
    · simp only [hs, hp, bind, Except.bind, pure, Except.pure] at h
      obtain rfl := Except.ok.inj h
      dsimp only at hkeys hkind
      simp only [Declaration.checkPivot, hkind, hkeys, if_true] at hp
      cases hpivot : declaration.pivot with
      | none => simp [hpivot] at hp
      | some spec => exact ⟨spec, rfl⟩

lemma Declaration.build_hasPivot {declaration : Declaration} {d : DirectRelation}
    (h : declaration.build = .ok d) : d.HasPivot :=
  fun _ hstrategy hkind => Declaration.build_pivot h hkind (by rw [hstrategy]; rfl)

/-- What is composed leads over two hops. -/
lemma Relation.compose_eq_ok {name : String} {kind : RelationKind} {first second r : Relation}
    (h : Relation.compose name kind first second = .ok r) :
    ∃ k d d', first = .direct d ∧ second = .direct d' ∧
      r = .through { name, kind := k, first := d, second := d', scope := {} } := by
  cases kind with
  | direct k => simp [Relation.compose] at h
  | through k =>
      cases first with
      | through t => simp [Relation.compose] at h
      | direct d =>
          cases second with
          | through t => simp [Relation.compose] at h
          | direct d' =>
              rw [Relation.compose] at h
              split_ifs at h
              exact ⟨k, d, d', rfl, rfl, (Except.ok.inj h).symm⟩

theorem Relation.Accepted.hasPivots {r : Relation} (h : r.Accepted) : r.HasPivots := by
  induction h with
  | built h => exact Declaration.build_hasPivot h
  | composed h _ _ hfirst hsecond =>
      obtain ⟨k, d, d', rfl, rfl, rfl⟩ := Relation.compose_eq_ok h
      exact ⟨hfirst, hsecond⟩
  | @constrained r _ filter ih => cases r <;> exact ih
  | @ordered r _ column direction ih => cases r <;> exact ih

/-- The columns by which the queries of a hop find its nodes. -/
def DirectRelation.keyColumns (d : DirectRelation) : List String :=
  (match d.strategy with
    | .foreignKey keys => [keys.localKey, keys.foreignKey]
    | .nativeEdge _ parentKey _ | .hybrid _ _ parentKey _ => [parentKey]) ++
  (match d.pivot with
    | none => []
    | some spec => [spec.parentReference, spec.relatedReference])

/-- The columns of all hops. -/
def Relation.keyColumns : Relation → List String
  | .direct d => d.keyColumns
  | .through t => t.first.keyColumns ++ t.second.keyColumns

/-- A relation whose key columns and scope name no variable, and whose scope has no text written by
hand. -/
structure Relation.Plain (r : Relation) : Prop where
  keys : ∀ column ∈ r.keyColumns, columnOwner column = ""
  rawFree : membersRawFree r.finalScope.filter
  within : membersWithin ∅ r.finalScope.filter

/-! ### Where a search starts -/

/-- Where a search for given keys starts: the nodes of a label with one of the keys in a column, and
what each of them leads to. -/
structure Anchor where
  label : String
  column : String
  onward : ℕ → List ℕ

/-- The nodes that a value of the column leads to, once for each path. -/
def Anchor.led (g : Graph) (a : Anchor) (v : Value) : List ℕ :=
  (g.holding a.label a.column v).flatMap a.onward

lemma Anchor.led_null (g : Graph) (a : Anchor) : a.led g .null = [] := by
  simp [led, Graph.holding]

/-- The start of a search.  Where properties tie the nodes, the key is found at the related node or at
the pivot, and the parent need not be looked at. -/
def Relation.anchor (g : Graph) (r : Relation) : Anchor :=
  let fromParent : Anchor := ⟨r.parentLabel, r.parentKey, r.reached g⟩
  match r with
  | .through _ => fromParent
  | .direct d =>
    match d.strategy, d.kind, d.pivot with
    | .foreignKey keys, .belongsToMany, some spec =>
      ⟨spec.label, spec.parentReference, fun p =>
        g.holding d.relatedLabel keys.foreignKey (g.value p spec.relatedReference)⟩
    | .foreignKey _, .belongsToMany, none => fromParent
    | .foreignKey keys, .belongsTo, _ => ⟨d.relatedLabel, keys.localKey, fun j => [j]⟩
    | .foreignKey keys, _, _ => ⟨d.relatedLabel, keys.foreignKey, fun j => [j]⟩
    | _, _, _ => fromParent

/-- Whether the search starts from the parents themselves. -/
def Relation.startsAtParent : Relation → Bool
  | .through _ => true
  | .direct d =>
    match d.strategy with
    | .foreignKey _ => false
    | .nativeEdge _ _ _ | .hybrid _ _ _ _ => true

/-! ### Ties -/

/-- A hop over edges. -/
structure DirectRelation.OverEdges (d : DirectRelation) (edge : EdgeSpec) : Prop where
  hop : ∀ source target pivot, d.hop source target pivot =
    [⟨edge.between ⟨source, none⟩ (if d.kind = .belongsToMany then pivot else "")
      ⟨target, some d.relatedLabel⟩, []⟩]
  directRoute? : ∀ parameter, d.directRoute? parameter = none
  correlation : d.correlation = .edge edge.edgeType edge.direction
  reached : ∀ g i, d.reached g i = (g.labelled d.relatedLabel).flatMap fun j =>
    (g.between edge.edgeType edge.direction i j).map fun _ => j
  anchor : ∀ g, (Relation.direct d).anchor g = ⟨d.parentLabel, d.parentKey, d.reached g⟩
  startsAtParent : (Relation.direct d).startsAtParent = true

/-- A hop over a column of the parent and one of the related node that agree. -/
structure DirectRelation.OverColumns (d : DirectRelation) (outer inner : String) : Prop where
  keyColumns : outer ∈ d.keyColumns ∧ inner ∈ d.keyColumns
  parentKey : d.parentKey = outer
  hop : ∀ source target pivot, d.hop source target pivot =
    [⟨nodePattern target d.relatedLabel, [columnsEqual target inner source outer]⟩]
  directRoute? : ∀ parameter, d.directRoute? parameter =
    let key := Property.ofColumn relatedVariable inner
    some ([⟨nodePattern relatedVariable d.relatedLabel, [.oneOf key parameter]⟩], key)
  correlation : d.correlation = .column outer inner
  reached : ∀ g i, d.reached g i = g.holding d.relatedLabel inner (g.value i outer)
  anchor : ∀ g, (Relation.direct d).anchor g = ⟨d.relatedLabel, inner, fun j => [j]⟩
  startsAtParent : (Relation.direct d).startsAtParent = false

/-- A hop over a pivot with a column that agrees with one of the parent, and one that agrees with one
of the related node. -/
structure DirectRelation.OverPivot (d : DirectRelation) (spec : Pivot) (outer inner : String) :
    Prop where
  keyColumns : (outer ∈ d.keyColumns ∧ spec.parentReference ∈ d.keyColumns) ∧
    spec.relatedReference ∈ d.keyColumns ∧ inner ∈ d.keyColumns
  parentKey : d.parentKey = outer
  hop : ∀ source target pivot, d.hop source target pivot =
    [⟨nodePattern pivot spec.label, [columnsEqual pivot spec.parentReference source outer]⟩,
      ⟨nodePattern target d.relatedLabel, [columnsEqual target inner pivot spec.relatedReference]⟩]
  directRoute? : ∀ parameter, d.directRoute? parameter =
    let key := Property.ofColumn pivotVariable spec.parentReference
    some ([⟨nodePattern pivotVariable spec.label, [.oneOf key parameter]⟩,
      ⟨nodePattern relatedVariable d.relatedLabel,
        [columnsEqual relatedVariable inner pivotVariable spec.relatedReference]⟩], key)
  correlation : d.correlation = .through (.column outer spec.parentReference) spec.label
    (.column spec.relatedReference inner)
  reached : ∀ g i, d.reached g i =
    (g.holding spec.label spec.parentReference (g.value i outer)).flatMap fun p =>
      g.holding d.relatedLabel inner (g.value p spec.relatedReference)
  anchor : ∀ g, (Relation.direct d).anchor g = ⟨spec.label, spec.parentReference, fun p =>
    g.holding d.relatedLabel inner (g.value p spec.relatedReference)⟩
  startsAtParent : (Relation.direct d).startsAtParent = false

namespace DirectRelation

variable {d : DirectRelation}

lemma overEdges {edge : EdgeSpec} {parentKey relatedKey : String}
    (h : d.strategy.edge? = some (edge, parentKey, relatedKey)) : d.OverEdges edge := by
  cases hstrategy : d.strategy with
  | foreignKey keys => simp [hstrategy, Strategy.edge?] at h
  | nativeEdge edge' _ _ =>
      simp only [hstrategy, Strategy.edge?, Option.some.injEq, Prod.mk.injEq] at h
      obtain ⟨rfl, -⟩ := h
      constructor <;> intros <;> simp only [hop, DirectRelation.directRoute?, correlation,
        DirectRelation.reached, Relation.anchor, Relation.startsAtParent, hstrategy]
      rfl
  | hybrid keys edge' _ _ =>
      simp only [hstrategy, Strategy.edge?, Option.some.injEq, Prod.mk.injEq] at h
      obtain ⟨rfl, -⟩ := h
      constructor <;> intros <;> simp only [hop, DirectRelation.directRoute?, correlation,
        DirectRelation.reached, Relation.anchor, Relation.startsAtParent, hstrategy]
      rfl

variable {keys : Keys}

lemma overColumns_of_belongsTo (h : d.strategy = .foreignKey keys) (hkind : d.kind = .belongsTo) :
    d.OverColumns keys.foreignKey keys.localKey := by
  constructor <;> intros <;> simp [hop, DirectRelation.directRoute?, correlation,
    DirectRelation.reached, DirectRelation.parentKey, DirectRelation.keyColumns, Relation.anchor,
    Relation.startsAtParent, h, hkind]

lemma overColumns_of_has (h : d.strategy = .foreignKey keys)
    (hkind : d.kind = .hasOne ∨ d.kind = .hasMany) :
    d.OverColumns keys.localKey keys.foreignKey := by
  rcases hkind with hkind | hkind <;> constructor <;> intros <;> simp [hop,
    DirectRelation.directRoute?, correlation, DirectRelation.reached, DirectRelation.parentKey,
    DirectRelation.keyColumns, Relation.anchor, Relation.startsAtParent, h, hkind]

lemma overPivot {spec : Pivot} (h : d.strategy = .foreignKey keys) (hkind : d.kind = .belongsToMany)
    (hspec : d.pivot = some spec) : d.OverPivot spec keys.localKey keys.foreignKey := by
  constructor <;> intros <;> simp [hop, DirectRelation.directRoute?, correlation,
    DirectRelation.reached, DirectRelation.parentKey, DirectRelation.keyColumns, Relation.anchor,
    Relation.startsAtParent, h, hkind, hspec]

/-- **Ties**: what a hop goes over settles all that is made of it. -/
theorem tied (hpivot : d.HasPivot) :
    (∃ edge, d.OverEdges edge) ∨ (∃ outer inner, d.OverColumns outer inner) ∨
      ∃ spec outer inner, d.OverPivot spec outer inner := by
  -- strategies and kinds are told apart here; what follows knows of the three ties alone
  cases hstrategy : d.strategy with
  | nativeEdge edge _ _ => exact .inl ⟨edge, overEdges (by rw [hstrategy, Strategy.edge?])⟩
  | hybrid keys edge _ _ => exact .inl ⟨edge, overEdges (by rw [hstrategy, Strategy.edge?])⟩
  | foreignKey keys =>
      refine .inr ?_
      cases hkind : d.kind with
      | belongsTo => exact .inl ⟨_, _, overColumns_of_belongsTo hstrategy hkind⟩
      | hasOne => exact .inl ⟨_, _, overColumns_of_has hstrategy (.inl hkind)⟩
      | hasMany => exact .inl ⟨_, _, overColumns_of_has hstrategy (.inr hkind)⟩
      | belongsToMany =>
          obtain ⟨spec, hspec⟩ := hpivot keys hstrategy hkind
          exact .inr ⟨spec, _, _, overPivot hstrategy hkind hspec⟩

lemma parentKey_mem (d : DirectRelation) : d.parentKey ∈ d.keyColumns := by
  rw [parentKey, keyColumns]
  cases d.strategy with
  | foreignKey keys => cases d.kind <;> simp
  | nativeEdge edge parentKey relatedKey => simp
  | hybrid keys edge parentKey relatedKey => simp

end DirectRelation

lemma Relation.parentKey_mem (r : Relation) : r.parentKey ∈ r.keyColumns := by
  cases r with
  | direct d => exact d.parentKey_mem
  | through t => exact List.mem_append_left _ t.first.parentKey_mem

namespace Relation

variable {g : Graph} {r : Relation}

lemma anchor_of_startsAtParent (hpivots : r.HasPivots) (h : r.startsAtParent) :
    r.anchor g = ⟨r.parentLabel, r.parentKey, r.reached g⟩ := by
  cases r with
  | through t => rfl
  | direct d =>
      rcases d.tied hpivots with ⟨edge, hover⟩ | ⟨outer, inner, hover⟩ | ⟨spec, outer, inner, hover⟩
      · exact hover.anchor g
      · simp [hover.startsAtParent] at h
      · simp [hover.startsAtParent] at h

/-- Where properties tie the nodes, the key of a parent leads to what the relation leads to. -/
lemma led_of_not_startsAtParent (hpivots : r.HasPivots) (h : r.startsAtParent = false) (i : ℕ) :
    (r.anchor g).led g (g.value i r.parentKey) = r.reached g i := by
  cases r with
  | through t => simp [startsAtParent] at h
  | direct d =>
      rw [Anchor.led, reached, parentKey]
      rcases d.tied hpivots with ⟨edge, hover⟩ | ⟨outer, inner, hover⟩ | ⟨spec, outer, inner, hover⟩
      · simp [hover.startsAtParent] at h
      · rw [hover.anchor, hover.reached, hover.parentKey]
        exact List.flatMap_singleton' _
      · rw [hover.anchor, hover.reached, hover.parentKey]

end Relation

/-! ### Correlations -/

variable {I : Interpretation} {g : Graph}

/-- Columns that agree. -/
lemma reached_column (hI : I.EqualsJson) {outer inner : String} (ho : columnOwner outer = "")
    (hi : columnOwner inner = "") (env : Env) (label : String) (i : ℕ) :
    (Correlation.column outer inner).reached I g env label i =
      g.holding label inner (g.value i outer) := by
  refine List.filter_congr fun j _ => ?_
  rw [columnValue_of_owner_eq ho, columnValue_of_owner_eq hi, decide_eq_decide, hI.eq_yes]
  exact and_congr_right fun h => by rw [h]

namespace DirectRelation

variable {d : DirectRelation}

/-- The correlation of a hop leads to the nodes that the hop leads to. -/
lemma correlation_reached (hI : I.EqualsJson) (hpivot : d.HasPivot)
    (hkeys : ∀ column ∈ d.keyColumns, columnOwner column = "") (env : Env) (i : ℕ) :
    d.correlation.reached I g env d.relatedLabel i = d.reached g i := by
  rcases d.tied hpivot with ⟨edge, hover⟩ | ⟨outer, inner, hover⟩ | ⟨spec, outer, inner, hover⟩
  · rw [hover.correlation, hover.reached, Correlation.reached]
  · obtain ⟨ho, hi⟩ := hover.keyColumns
    rw [hover.correlation, hover.reached, reached_column hI (hkeys _ ho) (hkeys _ hi)]
  · obtain ⟨⟨ho, hp⟩, hr, hi⟩ := hover.keyColumns
    rw [hover.correlation, hover.reached, Correlation.reached,
      reached_column hI (hkeys _ ho) (hkeys _ hp)]
    exact List.flatMap_congr fun p _ => reached_column hI (hkeys _ hr) (hkeys _ hi) env _ p

/-- The correlation of a hop names the columns of the hop. -/
lemma correlation_within (hpivot : d.HasPivot)
    (hkeys : ∀ column ∈ d.keyColumns, columnOwner column = "") (names : Set String) :
    d.correlation.Within names := by
  have hcolumn {column : String} (h : column ∈ d.keyColumns) : columnWithin names column :=
    .inl (hkeys column h)
  rcases d.tied hpivot with ⟨edge, hover⟩ | ⟨outer, inner, hover⟩ | ⟨spec, outer, inner, hover⟩
  · rw [hover.correlation]
    trivial
  · rw [hover.correlation]
    exact ⟨hcolumn hover.keyColumns.1, hcolumn hover.keyColumns.2⟩
  · rw [hover.correlation]
    obtain ⟨⟨ho, hp⟩, hr, hi⟩ := hover.keyColumns
    exact ⟨⟨hcolumn ho, hcolumn hp⟩, hcolumn hr, hcolumn hi⟩

end DirectRelation

namespace Relation

variable {r : Relation}

/-- **Correlations lead where relations lead**. -/
theorem correlation_reached (hI : I.EqualsJson) (hpivots : r.HasPivots)
    (hkeys : ∀ column ∈ r.keyColumns, columnOwner column = "") (env : Env) (i : ℕ) :
    r.correlation.reached I g env r.relatedLabel i = r.reached g i := by
  cases r with
  | direct d => exact d.correlation_reached hI hpivots hkeys env i
  | through t =>
      obtain ⟨hfirst, hsecond⟩ := List.forall_mem_append.mp hkeys
      rw [correlation, Correlation.reached, reached, t.first.correlation_reached hI hpivots.1 hfirst]
      exact List.flatMap_congr fun j _ => t.second.correlation_reached hI hpivots.2 hsecond env j

lemma correlation_within (hpivots : r.HasPivots)
    (hkeys : ∀ column ∈ r.keyColumns, columnOwner column = "") (names : Set String) :
    r.correlation.Within names := by
  cases r with
  | direct d => exact d.correlation_within hpivots hkeys names
  | through t =>
      obtain ⟨hfirst, hsecond⟩ := List.forall_mem_append.mp hkeys
      exact ⟨t.first.correlation_within hpivots.1 hfirst names,
        t.second.correlation_within hpivots.2 hsecond names⟩

end Relation

end GraphMapper
