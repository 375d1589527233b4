import GraphMapper.Proofs.Pivot.Attachment
import GraphMapper.Proofs.Value.Keys

/-!
How a relation keeps its pivots.

* `DirectRelation.Writes`: the statements that a relation makes for a parent, by its strategy;
* `attachedTo`, `linksOfOthers`: the related keys of a parent, and the links of other parents;
* `Terms`, `Leaves`: on what terms statements do what they are for, and what they leave;
* `Keeping`: what the statements of a relation do to the links, all that is needed to see what follows
  from them; `Keeping.foreignKey`, `Keeping.nativeEdge`: it holds for nodes and for edges.
-/

namespace GraphMapper

open Cypher (Graph Interpretation Statement playAll)

variable {I : Interpretation} {d : DirectRelation} {parent : Row} {k : Value}

namespace DirectRelation

/-! ### Statements by strategy -/

/-- The edges of the relation with the labels and the key columns at their ends. -/
def wiring (d : DirectRelation) (edge : EdgeSpec) (parentKey relatedKey : String) : Wiring :=
  ⟨d.parentLabel, d.relatedLabel, edge, parentKey, relatedKey⟩

/-- The statements that a relation makes for a parent. -/
structure Writes (d : DirectRelation) (parent : Row) (current : Statement)
    (attach : List Value → Row → List Statement) (detach : Option (List Value) → List Statement)
    (update : Value → Row → List Statement) : Prop where
  current : d.currentKeys parent = .ok current
  attach : ∀ now keys attributes, d.attach now parent keys attributes =
    .ok (if (Value.distinct keys).isEmpty then []
      else attach (Value.distinct keys) (stamped d.pivot now attributes true))
  detach : ∀ keys, d.detach parent keys = .ok (if keys.any (·.isEmpty) then [] else detach keys)
  update : ∀ now v attributes, d.updatePivot now parent v attributes =
    .ok (update v (stamped d.pivot now attributes false))

lemma parentValue_eq {name column : String} (hk : parent.get? column = some k) (hnull : k ≠ .null) :
    parentValue name parent column = .ok k := by
  rw [parentValue, hk]
  cases k <;> simp_all

/-- A column that a parent has, or else no statement about it is made. -/
lemma parentValue_cases (name column : String) (parent : Row) :
    (∃ k, parent.get? column = some k ∧ k ≠ .null) ∨
      parentValue name parent column = .error (.invalidRelation name (.parentWithout column)) := by
  rw [parentValue]
  cases h : parent.get? column with
  | none => exact .inr rfl
  | some k =>
      cases k with
      | null => exact .inr rfl
      | bool | number | string | array | object => exact .inl ⟨_, rfl, by simp⟩

section

variable {keys : Keys} {spec : Pivot} {edge : EdgeSpec} {parentKey relatedKey : String}

lemma writes_foreignKey (h : d.strategy = .foreignKey keys) (hpivot : d.pivot = some spec)
    (hk : parent.get? keys.localKey = some k) (hnull : k ≠ .null) :
    d.Writes parent ((Side.nodes spec).current k)
      (fun keys attributes => [spec.attachment k keys attributes])
      (fun keys => [(Side.nodes spec).detach k keys])
      (fun v attributes => [(Side.nodes spec).update k v attributes]) := by
  have hparent : parentValue d.name parent keys.localKey = .ok k := parentValue_eq hk hnull
  refine ⟨?_, fun now keys attributes => ?_, fun keys => ?_, fun now v attributes => ?_⟩
  · simp only [currentKeys, h, pivotSpec, hpivot, hparent]
    rfl
  · simp only [DirectRelation.attach, bothSides, h, attachNodes, pivotSpec, hpivot, hparent]
    split_ifs <;> rfl
  · simp only [DirectRelation.detach, bothSides, h, pivotSpec, hpivot, hparent]
    split_ifs <;> rfl
  · simp only [updatePivot, bothSides, h, pivotSpec, hpivot, hparent]
    rfl

lemma writes_nativeEdge (h : d.strategy = .nativeEdge edge parentKey relatedKey)
    (hk : parent.get? parentKey = some k) (hnull : k ≠ .null) :
    d.Writes parent ((Side.edges (d.wiring edge parentKey relatedKey)).current k)
      (fun keys attributes => [(d.wiring edge parentKey relatedKey).attachment k keys attributes])
      (fun keys => [(Side.edges (d.wiring edge parentKey relatedKey)).detach k keys])
      (fun v attributes => [(Side.edges (d.wiring edge parentKey relatedKey)).update k v
        attributes]) := by
  have hparent : parentValue d.name parent parentKey = .ok k := parentValue_eq hk hnull
  refine ⟨?_, fun now keys attributes => ?_, fun keys => ?_, fun now v attributes => ?_⟩
  · simp only [currentKeys, h, hparent]
    rfl
  · simp only [DirectRelation.attach, bothSides, h, attachEdges, hparent]
    split_ifs <;> rfl
  · simp only [DirectRelation.detach, bothSides, h, hparent]
    split_ifs <;> rfl
  · simp only [updatePivot, bothSides, h, hparent]
    rfl

lemma writes_hybrid (h : d.strategy = .hybrid keys edge parentKey relatedKey)
    (hpivot : d.pivot = some spec) (hsame : keys.localKey = parentKey)
    (hk : parent.get? parentKey = some k) (hnull : k ≠ .null) :
    d.Writes parent ((Side.edges (d.wiring edge parentKey relatedKey)).current k)
      (fun keys attributes => [spec.attachment k keys attributes,
        (d.wiring edge parentKey relatedKey).attachment k keys attributes])
      (fun keys => [(Side.nodes spec).detach k keys,
        (Side.edges (d.wiring edge parentKey relatedKey)).detach k keys])
      (fun v attributes => [(Side.nodes spec).update k v attributes,
        (Side.edges (d.wiring edge parentKey relatedKey)).update k v attributes]) := by
  have hparent : parentValue d.name parent parentKey = .ok k := parentValue_eq hk hnull
  have hlocal : parentValue d.name parent keys.localKey = .ok k := hsame ▸ hparent
  refine ⟨?_, fun now keys attributes => ?_, fun keys => ?_, fun now v attributes => ?_⟩
  · simp only [currentKeys, h, hparent]
    rfl
  · simp only [DirectRelation.attach, bothSides, h, attachNodes, attachEdges, pivotSpec, hpivot,
      hparent, hlocal]
    split_ifs <;> rfl
  · simp only [DirectRelation.detach, bothSides, h, pivotSpec, hpivot, hparent, hlocal]
    split_ifs <;> rfl
  · simp only [updatePivot, bothSides, h, pivotSpec, hpivot, hparent, hlocal]
    rfl

end

end DirectRelation

/-! ### Keys that are attached -/

/-- The related keys of a parent; null is no key. -/
def attachedTo (links : Set Link) (k : Value) : Set Value :=
  {v | v ≠ .null ∧ ∃ l ∈ links, l.parent = k ∧ l.related = v}

/-- The links of other parents. -/
def linksOfOthers (links : Set Link) (k : Value) : Set Link :=
  {l ∈ links | l.parent ≠ k}

section

variable {links new : Set Link} {ids : Set ℕ} {wanted : Value → Prop}

/-- Deleting the pivots of some links of a parent takes away the related keys of these links, provided
that a pivot is one link of the parent. -/
lemma attachedTo_delete (hids : ∀ p, p ∈ ids ↔ ∃ l ∈ links, l.Between k wanted ∧ l.pivot = p)
    (hone : ∀ l ∈ links, ∀ m ∈ links, l.parent = k → m.parent = k → l.pivot = m.pivot → l = m) :
    attachedTo {l ∈ links | l.pivot ∉ ids} k = {v ∈ attachedTo links k | ¬ wanted v} := by
  ext v
  constructor
  · rintro ⟨hnull, l, ⟨hl, hpivot⟩, hparent, rfl⟩
    exact ⟨⟨hnull, l, hl, hparent, rfl⟩,
      fun hwanted => hpivot ((hids _).mpr ⟨l, hl, ⟨hparent, hwanted⟩, rfl⟩)⟩
  · rintro ⟨⟨hnull, l, hl, hparent, rfl⟩, hwanted⟩
    refine ⟨hnull, l, ⟨hl, fun hpivot => ?_⟩, hparent, rfl⟩
    obtain ⟨m, hm, ⟨hmparent, hmwanted⟩, hsame⟩ := (hids _).mp hpivot
    exact hwanted (hone l hl m hm hparent hmparent hsame.symm ▸ hmwanted)

lemma linksOfOthers_delete (hids : ∀ p, p ∈ ids ↔ ∃ l ∈ links, l.Between k wanted ∧ l.pivot = p)
    (hinj : Set.InjOn Link.pivot links) :
    linksOfOthers {l ∈ links | l.pivot ∉ ids} k = linksOfOthers links k := by
  ext l
  refine ⟨fun ⟨⟨hl, _⟩, hparent⟩ => ⟨hl, hparent⟩, fun ⟨hl, hparent⟩ =>
    ⟨⟨hl, fun hpivot => ?_⟩, hparent⟩⟩
  obtain ⟨m, hm, ⟨hmparent, -⟩, hsame⟩ := (hids _).mp hpivot
  exact hparent (hinj hm hl hsame ▸ hmparent)

/-- Setting properties leaves the keys. -/
lemma attachedTo_updated (values : Row) (ids : Set ℕ) (links : Set Link) (k : Value) :
    attachedTo (Link.updated values ids '' links) k = attachedTo links k := by
  ext v
  constructor
  · rintro ⟨hnull, _, ⟨l, hl, rfl⟩, hparent, hrelated⟩
    obtain ⟨-, hp, hr⟩ := l.updated_keys values ids
    exact ⟨hnull, l, hl, hp ▸ hparent, hr ▸ hrelated⟩
  · rintro ⟨hnull, l, hl, hparent, hrelated⟩
    obtain ⟨-, hp, hr⟩ := l.updated_keys values ids
    exact ⟨hnull, _, ⟨l, hl, rfl⟩, hp.trans hparent, hr.trans hrelated⟩

lemma linksOfOthers_updated (values : Row)
    (hids : ∀ p, p ∈ ids → ∃ l ∈ links, l.parent = k ∧ l.pivot = p)
    (hinj : Set.InjOn Link.pivot links) :
    linksOfOthers (Link.updated values ids '' links) k = linksOfOthers links k := by
  have hother : ∀ l ∈ links, l.parent ≠ k → l.updated values ids = l := by
    intro l hl hparent
    refine if_neg fun hpivot => ?_
    obtain ⟨m, hm, hmparent, hsame⟩ := hids _ hpivot
    exact hparent (hinj hm hl hsame ▸ hmparent)
  ext l
  constructor
  · rintro ⟨⟨m, hm, rfl⟩, hparent⟩
    obtain ⟨-, hp, -⟩ := m.updated_keys values ids
    rw [hp] at hparent
    rw [hother m hm hparent]
    exact ⟨hm, hparent⟩
  · rintro ⟨hl, hparent⟩
    exact ⟨⟨l, hl, hother l hl hparent⟩, hparent⟩

/-- Links more of a parent give related keys more. -/
lemma attachedTo_union {keys : List Value} (hnull : ∀ v ∈ keys, v ≠ .null)
    (hmade : ∀ v ∈ keys, ∃ l ∈ new, l.parent = k ∧ l.related = v)
    (hnew : ∀ l ∈ new, l.parent = k → l.related ∈ keys) :
    attachedTo (links ∪ new) k = attachedTo links k ∪ {v | v ∈ keys} := by
  ext v
  constructor
  · rintro ⟨hv, l, hl | hl, hparent, rfl⟩
    · exact .inl ⟨hv, l, hl, hparent, rfl⟩
    · exact .inr (hnew l hl hparent)
  · rintro (⟨hv, l, hl, hparent, hrelated⟩ | hv)
    · exact ⟨hv, l, .inl hl, hparent, hrelated⟩
    · obtain ⟨l, hl, hparent, hrelated⟩ := hmade v hv
      exact ⟨hnull v hv, l, .inr hl, hparent, hrelated⟩

lemma linksOfOthers_union (hnew : ∀ l ∈ new, l.parent = k) :
    linksOfOthers (links ∪ new) k = linksOfOthers links k := by
  ext l
  refine ⟨fun ⟨hl, hparent⟩ => ⟨hl.resolve_right fun h => hparent (hnew l h), hparent⟩,
    fun ⟨hl, hparent⟩ => ⟨.inl hl, hparent⟩⟩

end

/-! ### What statements do to links -/

/-- On what terms the statements of a relation do what they are for. -/
structure Terms where
  links : Graph → Set Link
  /-- The graphs that they may be run on, and that they leave. -/
  fit : Graph → Prop
  attachable : Set Value
  detachable : Set Value
  /-- Attributes that may be written. -/
  spared : Row → Prop
  /-- Attributes may be written to pivots that are there. -/
  lasting : Prop
  /-- A pivot is one of a single parent. -/
  apart : Prop

/-- From a graph that is fit to another one: the related keys of the parent are those given, and
nothing was done to other parents, as far as that can be told apart. -/
structure Leaves (T : Terms) (k : Value) (g : Graph) (attached : Set Value) (g' : Graph) : Prop where
  fit : T.fit g'
  attached : attachedTo (T.links g') k = attached
  others : T.apart → linksOfOthers (T.links g') k = linksOfOthers (T.links g) k

section

variable {T : Terms} {g g' g'' : Graph} {s s' : Set Value}

lemma Leaves.refl (h : T.fit g) : Leaves T k g (attachedTo (T.links g) k) g :=
  ⟨h, rfl, fun _ => rfl⟩

lemma Leaves.trans (h : Leaves T k g s g') (h' : Leaves T k g' s' g'') : Leaves T k g s' g'' :=
  ⟨h'.fit, h'.attached, fun hapart => (h'.others hapart).trans (h.others hapart)⟩

end

/-- What the statements of a relation do to its links, in graphs that are fit for it. -/
structure Keeping (I : Interpretation) (d : DirectRelation) (parent : Row) (k : Value) (T : Terms) :
    Prop where
  read : ∀ g, T.fit g → ∃ s st answers, d.currentKeys parent = .ok s ∧ s.run I g = some st ∧
    st.graph = g ∧ st.answers = some answers ∧
    ∀ v, v ∈ (answers.map (·.row)).filterMap (Fields.get? · relatedKeyColumn) ↔
      ∃ l ∈ T.links g, l.parent = k ∧ l.related = v
  detach : ∀ g keys, T.fit g → (∀ v ∈ keys, v ∈ T.detachable) →
    ∃ ss g', d.detach parent (some keys) = .ok ss ∧ playAll I ss g = some g' ∧
      Leaves T k g {v ∈ attachedTo (T.links g) k | v ∉ Value.distinct keys} g'
  attach : ∀ g now keys attributes, T.fit g → (∀ v ∈ keys, v ∈ T.attachable) → T.spared attributes →
    ∃ ss g', d.attach now parent keys attributes = .ok ss ∧ playAll I ss g = some g' ∧
      Leaves T k g (attachedTo (T.links g) k ∪ {v | v ∈ Value.distinct keys}) g'
  update : ∀ g now v attributes, T.fit g → T.spared attributes → T.lasting →
    ∃ ss g', d.updatePivot now parent v attributes = .ok ss ∧ playAll I ss g = some g' ∧
      Leaves T k g (attachedTo (T.links g) k) g'

/-- A relation that makes one statement at a time keeps its pivots, if each statement that there is
something to do for leaves what it should. -/
lemma Keeping.ofStatements {T : Terms} {current : Statement} {attach : List Value → Row → Statement}
    {detach : Option (List Value) → Statement} {update : Value → Row → Statement}
    (hwrites : d.Writes parent current (fun keys attributes => [attach keys attributes])
      (fun keys => [detach keys]) (fun v attributes => [update v attributes]))
    (hread : ∀ g, T.fit g → ∃ st answers, current.run I g = some st ∧ st.graph = g ∧
      st.answers = some answers ∧
      ∀ v, v ∈ (answers.map (·.row)).filterMap (Fields.get? · relatedKeyColumn) ↔
        ∃ l ∈ T.links g, l.parent = k ∧ l.related = v)
    (hdetach : ∀ g keys, T.fit g → (∀ v ∈ keys, v ∈ T.detachable) →
      ∃ st, (detach (some keys)).run I g = some st ∧
        Leaves T k g {v ∈ attachedTo (T.links g) k | v ∉ Value.distinct keys} st.graph)
    (hattach : ∀ g now keys attributes, T.fit g → (∀ v ∈ keys, v ∈ T.attachable) →
      T.spared attributes →
      ∃ st, (attach keys (stamped d.pivot now attributes true)).run I g = some st ∧
        Leaves T k g (attachedTo (T.links g) k ∪ {v | v ∈ keys}) st.graph)
    (hupdate : ∀ g now v attributes, T.fit g → T.spared attributes → T.lasting →
      ∃ st, (update v (stamped d.pivot now attributes false)).run I g = some st ∧
        Leaves T k g (attachedTo (T.links g) k) st.graph) :
    Keeping I d parent k T where
  read g hfit := by
    obtain ⟨st, answers, h⟩ := hread g hfit
    exact ⟨current, st, answers, hwrites.current, h⟩
  detach g keys hfit hkeys := by
    have hmade := hwrites.detach (some keys)
    cases keys with
    | nil => exact ⟨[], g, hmade, rfl, by simpa [Value.distinct, Value.distinctFrom] using .refl hfit⟩
    | cons key rest =>
        obtain ⟨st, hrun, hleaves⟩ := hdetach g (key :: rest) hfit hkeys
        exact ⟨_, st.graph, hmade, Cypher.playAll_cons hrun [], hleaves⟩
  attach g now keys attributes hfit hkeys hspared := by
    have hmade := hwrites.attach now keys attributes
    split_ifs at hmade with hnone
    · exact ⟨[], g, hmade, rfl, by simpa [List.isEmpty_iff.mp hnone] using .refl hfit⟩
    · obtain ⟨st, hrun, hleaves⟩ := hattach g now (Value.distinct keys) attributes hfit
        (fun v hv => hkeys v (Value.distinctFrom_subset [] _ hv)) hspared
      exact ⟨_, st.graph, hmade, Cypher.playAll_cons hrun [], hleaves⟩
  update g now v attributes hfit hspared hlasting := by
    obtain ⟨st, hrun, hleaves⟩ := hupdate g now v attributes hfit hspared hlasting
    exact ⟨_, st.graph, hwrites.update now v attributes, Cypher.playAll_cons hrun [], hleaves⟩

/-! ### Pivots that are nodes -/

section

variable {spec : Pivot} {attributes : Row}

/-- Attributes that do not name the keys of a pivot. -/
def Pivot.SparedBy (spec : Pivot) (attributes : Row) : Prop :=
  ∀ column ∈ spec.references, column ∉ Fields.names attributes

/-- The time that is recorded with each change is not kept in place of a key. -/
def Pivot.Lasting (spec : Pivot) : Prop :=
  spec.timestamps = true → "updated_at" ∉ spec.references

/-- With such attributes the key of the parent is written, even in place of a time. -/
lemma Pivot.SparedBy.keyed (h : spec.SparedBy attributes) (hnull : k ≠ .null) (now : String)
    (creating : Bool) : spec.Keyed k (stamped (some spec) now attributes creating) := by
  have hput (changes : Row) (other : String) (x : Value) (hchanges : spec.Keyed k changes) :
      spec.Keyed k (changes.put other x) := by
    intro f
    by_cases hother : spec.parentReference = other
    · rw [← hother, Fields.put_put_self]
      exact hchanges f
    · exact (Cypher.overlay_put_put hother changes x k f).trans (hchanges f)
  have hkeyed : spec.Keyed k attributes := fun f =>
    Cypher.overlay_put_self (h _ List.mem_cons_self) hnull f
  rw [stamped]
  dsimp only
  split_ifs
  · exact hput _ _ _ (hput _ _ _ hkeyed)
  · exact hput _ _ _ hkeyed
  · exact hkeyed

/-- A change with such attributes leaves the keys. -/
lemma Pivot.SparedBy.stamped (h : spec.SparedBy attributes) (hlasting : spec.Lasting) (now : String) :
    spec.SparedBy (stamped (some spec) now attributes false) := by
  intro column hcolumn
  simp only [GraphMapper.stamped, Bool.false_eq_true, if_false]
  split_ifs with hstamps
  · intro hmem
    rcases Fields.mem_names_put.mp hmem with rfl | hmem
    · exact hlasting hstamps hcolumn
    · exact h column hcolumn hmem
  · exact h column hcolumn

end

lemma Side.mem_touched {side : Side} {g : Graph} {wanted : Link → Prop} {p : ℕ} :
    p ∈ side.touched g wanted ↔ ∃ l ∈ side.links g, wanted l ∧ l.pivot = p :=
  ⟨fun ⟨l, ⟨hl, hwanted⟩, hp⟩ => ⟨l, hl, hwanted, hp⟩,
    fun ⟨l, hl, hwanted, hp⟩ => ⟨l, ⟨hl, hwanted⟩, hp⟩⟩

/-- Pivot nodes have the label. -/
lemma Pivot.labelled_of_touched {spec : Pivot} {g : Graph} {wanted : Link → Prop} {p : ℕ}
    (hp : p ∈ (Side.nodes spec).touched g wanted) : spec.label ∈ g.labels p := by
  obtain ⟨l, hl, -, rfl⟩ := Side.mem_touched.mp hp
  exact (Graph.mem_labelled.mp (mem_links.mp hl).1).2

lemma attachedTo_speaksOf (links : Set Link) (k : Value) (keys : List Value) :
    {v ∈ attachedTo links k | ¬ speaksOf (some keys) v} =
      {v ∈ attachedTo links k | v ∉ Value.distinct keys} := by
  ext v
  refine and_congr_right fun hv => not_congr ⟨fun h => (h keys rfl).1, fun h => ?_⟩
  rintro given ⟨⟩
  exact ⟨h, hv.1⟩

namespace Pivot

variable {spec : Pivot} {detachable : Set Value} {g g' : Graph}

/-- No edge is at the pivots between the parent and the keys that may be detached. -/
def Loose (spec : Pivot) (k : Value) (detachable : Set Value) (g : Graph) : Prop :=
  ∀ l ∈ spec.links g, l.Between k (· ∈ detachable) →
    ∀ e ∈ g.edges, g.source e ≠ l.pivot ∧ g.target e ≠ l.pivot

/-- Pivots stay so, if those that are nodes of before have the keys of before. -/
lemma Loose.around (hloose : spec.Loose k detachable g) (h : g.Around spec.label g')
    (hlinks : ∀ l ∈ spec.links g', l.pivot ∈ g.nodes →
      ∃ m ∈ spec.links g, m.pivot = l.pivot ∧ m.parent = l.parent ∧ m.related = l.related) :
    spec.Loose k detachable g' := by
  intro l hl ⟨hparent, hdetachable⟩ e he
  rw [h.edges] at he
  rw [h.source, h.target]
  by_cases hp : l.pivot ∈ g.nodes
  · obtain ⟨m, hm, hpivot, hmparent, hmrelated⟩ := hlinks l hl hp
    exact hpivot ▸ hloose m hm ⟨hmparent.trans hparent, hmrelated ▸ hdetachable⟩ e he
  · exact ⟨fun heq => hp (heq ▸ g.source_mem e he), fun heq => hp (heq ▸ g.target_mem e he)⟩

/-- The terms on which nodes keep pivots. -/
def terms (spec : Pivot) (k : Value) (detachable : Set Value) : Terms where
  links := spec.links
  fit := spec.Loose k detachable
  attachable := {v | v ≠ .null}
  detachable := detachable
  spared := spec.SparedBy
  lasting := spec.Lasting
  apart := True

lemma terms_links (spec : Pivot) (k : Value) (detachable : Set Value) :
    (spec.terms k detachable).links = spec.links := rfl

/-- Deleting pivot nodes that no edge is at detaches their keys. -/
lemma Loose.detach (hloose : spec.Loose k detachable g) (hspec : spec.Plain) (hI : I.EqualsJson)
    (hnull : k ≠ .null) {keys : List Value} (hkeys : ∀ v ∈ keys, v ∈ detachable) :
    ∃ st, ((Side.nodes spec).detach k (some keys)).run I g = some st ∧
      Leaves (spec.terms k detachable) k g
        {v ∈ attachedTo (spec.links g) k | v ∉ Value.distinct keys} st.graph := by
  obtain ⟨ids, hids, hrun⟩ := Pivot.detach_run hspec hI hnull (some keys) g
  have hids (p : ℕ) : p ∈ {p | p ∈ ids} ↔ ∃ l ∈ spec.links g, l.Between k (speaksOf (some keys)) ∧
      l.pivot = p := (hids p).trans Side.mem_touched
  have hlabelled : ∀ p ∈ ids, spec.label ∈ g.labels p := fun p hp => by
    obtain ⟨l, hl, -, rfl⟩ := (hids p).mp hp
    exact (Graph.mem_labelled.mp (mem_links.mp hl).1).2
  have hedges : ∀ e ∈ g.edges, g.source e ∉ ids ∧ g.target e ∉ ids := by
    have hat : ∀ p ∈ ids, ∀ e ∈ g.edges, g.source e ≠ p ∧ g.target e ≠ p := fun p hp => by
      obtain ⟨l, hl, hbetween, rfl⟩ := (hids p).mp hp
      exact hloose l hl ⟨hbetween.1,
        hkeys _ (Value.distinctFrom_subset [] _ (hbetween.2 keys rfl).1)⟩
    exact fun e he => ⟨fun hp => (hat _ hp e he).1 rfl, fun hp => (hat _ hp e he).2 rfl⟩
  rw [if_neg (by
    rintro ⟨e, he, hat | hat⟩
    · exact (hedges e he).1 hat
    · exact (hedges e he).2 hat)] at hrun
  obtain ⟨st, hrun, hgraph⟩ := hrun
  refine ⟨st, hrun, hgraph ▸ ⟨?_, ?_, fun _ => ?_⟩⟩
  · refine hloose.around (Graph.around_withoutNodes hlabelled hedges) fun l hl _ => ?_
    rw [links_withoutNodes] at hl
    exact ⟨l, hl.1, rfl, rfl, rfl⟩
  · rw [terms_links, links_withoutNodes, ← attachedTo_speaksOf]
    exact attachedTo_delete hids fun l hl m hm _ _ hsame =>
      links_injOn hl hm hsame
  · rw [terms_links, links_withoutNodes]
    exact linksOfOthers_delete hids links_injOn

/-- Making pivot nodes attaches keys. -/
lemma Loose.attach (hloose : spec.Loose k detachable g) (hspec : spec.Plain) {keys : List Value}
    (hkeys : ∀ v ∈ keys, v ≠ .null) {attributes : Row} (hattributes : spec.Keyed k attributes) :
    ∃ st, (spec.attachment k keys attributes).run I g = some st ∧
      Leaves (spec.terms k detachable) k g
        (attachedTo (spec.links g) k ∪ {v | v ∈ keys}) st.graph := by
  obtain ⟨st, new, hrun, haround, hlinks, hmade, hnew⟩ :=
    attach_run (I := I) hspec keys hattributes g
  refine ⟨st, hrun, ?_, ?_, fun _ => ?_⟩
  · refine hloose.around haround fun l hl hp => ?_
    rw [hlinks] at hl
    exact ⟨l, hl.resolve_right fun hl => (hnew l hl).1 hp, rfl, rfl, rfl⟩
  · rw [terms_links, hlinks]
    refine attachedTo_union hkeys (fun v hv => ?_) fun l hl _ => (hnew l hl).2.2.1
    obtain ⟨l, hl, hrelated⟩ := hmade v hv
    exact ⟨l, hl, (hnew l hl).2.1, hrelated⟩
  · rw [terms_links, hlinks]
    exact linksOfOthers_union fun l hl => (hnew l hl).2.1

/-- Setting properties of pivot nodes leaves the keys. -/
lemma Loose.update (hloose : spec.Loose k detachable g) (hspec : spec.Plain) (hI : I.EqualsJson)
    (hnull : k ≠ .null) (v : Value) {attributes : Row} (hspared : spec.SparedBy attributes) :
    ∃ st, ((Side.nodes spec).update k v attributes).run I g = some st ∧
      Leaves (spec.terms k detachable) k g (attachedTo (spec.links g) k) st.graph := by
  obtain ⟨st, hrun, hsets⟩ := Side.update_run hI (Side.nodes_sound hspec) hnull v attributes g
  have hlinks : spec.links st.graph = _ := links_sets hsets (hspared _ List.mem_cons_self)
    (hspared _ (List.mem_cons_of_mem _ List.mem_cons_self))
  refine ⟨st, hrun, ?_, ?_, fun _ => ?_⟩
  · refine hloose.around (Graph.Sets.around hsets fun _ => labelled_of_touched) fun l hl _ => ?_
    rw [hlinks] at hl
    obtain ⟨m, hm, rfl⟩ := hl
    obtain ⟨hpivot, hparent, hrelated⟩ := m.updated_keys attributes _
    exact ⟨m, hm, hpivot.symm, hparent.symm, hrelated.symm⟩
  · rw [terms_links, hlinks, attachedTo_updated]
  · rw [terms_links, hlinks]
    refine linksOfOthers_updated _ (fun p hp => ?_) links_injOn
    obtain ⟨l, hl, hbetween, hp⟩ := Side.mem_touched.mp hp
    exact ⟨l, hl, hbetween.1, hp⟩

end Pivot

/-- **Nodes keep pivots**, as long as no edge is at those that are detached. -/
theorem Keeping.foreignKey {keys : Keys} {spec : Pivot} (hI : I.EqualsJson)
    (h : d.strategy = .foreignKey keys) (hpivot : d.pivot = some spec) (hspec : spec.Plain)
    (hk : parent.get? keys.localKey = some k) (hnull : k ≠ .null) (detachable : Set Value) :
    Keeping I d parent k (spec.terms k detachable) := by
  refine .ofStatements (d.writes_foreignKey h hpivot hk hnull)
    (fun g _ => Side.current_run hI (Side.nodes_sound hspec) hnull g)
    (fun g keys hloose hkeys => Pivot.Loose.detach hloose hspec hI hnull hkeys)
    (fun g now keys attributes hloose hkeys hspared => ?_)
    fun g now v attributes hloose hspared hlasting => ?_
  · rw [hpivot]
    exact Pivot.Loose.attach hloose hspec hkeys (Pivot.SparedBy.keyed hspared hnull now true)
  · rw [hpivot]
    exact Pivot.Loose.update hloose hspec hI hnull v (Pivot.SparedBy.stamped hspared hlasting now)

/-! ### Pivots that are edges -/

lemma Cypher.Graph.SameNodes.holding {g g' : Graph} (h : g.SameNodes g') (label column : String)
    (v : Value) : g'.holding label column v = g.holding label column v := by
  simp only [Graph.holding, h.labelled, h.value]

/-- Around the nodes of a label the nodes with some key are the same. -/
lemma Cypher.Graph.Around.mem_holding {g g' : Graph} {label other column : String}
    (h : g.Around label g') (hother : other ≠ label) (hapart : g.Apart label other) {v : Value}
    (i : ℕ) :
    i ∈ g'.holding other column v ↔ i ∈ g.holding other column v := by
  rw [Graph.mem_holding, Graph.mem_holding, h.mem_labelled hother hapart]
  exact and_congr_right fun hi => by rw [h.value hapart hi]

namespace Wiring

variable {w : Wiring} {g g' : Graph} {attachable : Set Value}

/-- There is a parent with the key, and for each key that may be attached a node that has it.  If the
edges have no direction, there is one parent only. -/
structure Fit (w : Wiring) (k : Value) (attachable : Set Value) (g : Graph) : Prop where
  parent : ∃ i, i ∈ g.holding w.parentLabel w.parentKey k
  related : ∀ v ∈ attachable, ∃ j, j ∈ g.holding w.relatedLabel w.relatedKey v
  single : w.edge.direction = .both → ∀ i ∈ g.holding w.parentLabel w.parentKey k,
    ∀ j ∈ g.holding w.parentLabel w.parentKey k, i = j

lemma Fit.sameNodes (hfit : w.Fit k attachable g) (h : g.SameNodes g') : w.Fit k attachable g' := by
  refine ⟨?_, fun v hv => ?_, fun hboth => ?_⟩
  · rw [h.holding]
    exact hfit.parent
  · rw [h.holding]
    exact hfit.related v hv
  · rw [h.holding]
    exact hfit.single hboth

lemma Fit.mem_pairs (hfit : w.Fit k attachable g) {keys : List Value} (hkeys : ∀ v ∈ keys, v ∈ attachable)
    {v : Value} (hv : v ∈ keys) : ∃ m ∈ w.pairs g k keys, m.2.1 = v := by
  obtain ⟨i, hi⟩ := hfit.parent
  obtain ⟨j, hj⟩ := hfit.related v (hkeys v hv)
  exact ⟨(i, v, j), Wiring.mem_pairs.mpr ⟨hi, hv, hj⟩, rfl⟩

/-- The ends of an edge with a direction are told by the edge. -/
lemma links_injOn (hdirection : w.edge.direction ≠ .both) : Set.InjOn Link.pivot (w.links g) := by
  rintro _ ⟨i, j, e, hl, rfl⟩ _ ⟨i', j', e', hm, rfl⟩ (rfl : e = e')
  have hl := (List.mem_filter.mp hl.edge).2
  have hm := (List.mem_filter.mp hm.edge).2
  have hends : i = i' ∧ j = j' := by
    cases hd : w.edge.direction with
    | both => exact absurd hd hdirection
    | outgoing =>
        simp only [hd, Graph.joins, Bool.and_eq_true, decide_eq_true_eq] at hl hm
        exact ⟨hl.2.1.symm.trans hm.2.1, hl.2.2.symm.trans hm.2.2⟩
    | incoming =>
        simp only [hd, Graph.joins, Bool.and_eq_true, decide_eq_true_eq] at hl hm
        exact ⟨hl.2.2.symm.trans hm.2.2, hl.2.1.symm.trans hm.2.1⟩
  rw [hends.1, hends.2]

/-- An edge is one link of a parent that is fit. -/
lemma Fit.links_injOn (hfit : w.Fit k attachable g) (hnull : k ≠ .null) :
    ∀ l ∈ w.links g, ∀ m ∈ w.links g, l.parent = k → m.parent = k → l.pivot = m.pivot → l = m := by
  by_cases hdirection : w.edge.direction = .both
  · rintro _ ⟨i, j, e, hl, rfl⟩ _ ⟨i', j', e', hm, rfl⟩ hparent hparent' (rfl : e = e')
    obtain rfl := hfit.single hdirection i (Graph.mem_holding.mpr ⟨hl.parent, hparent, hnull⟩) i'
      (Graph.mem_holding.mpr ⟨hm.parent, hparent', hnull⟩)
    have hl := (List.mem_filter.mp hl.edge).2
    have hm := (List.mem_filter.mp hm.edge).2
    simp only [hdirection, Graph.joins, Bool.and_eq_true, Bool.or_eq_true, decide_eq_true_eq]
      at hl hm
    obtain rfl : j = j' := by omega
    rfl
  · exact fun l hl m hm _ _ hsame => Wiring.links_injOn hdirection hl hm hsame

end Wiring

/-- The terms on which edges keep pivots. -/
def Wiring.terms (w : Wiring) (k : Value) (attachable : Set Value) : Terms where
  links := w.links
  fit := w.Fit k attachable
  attachable := attachable
  detachable := Set.univ
  spared _ := True
  lasting := True
  apart := w.edge.direction ≠ .both

lemma Wiring.terms_links (w : Wiring) (k : Value) (attachable : Set Value) :
    (w.terms k attachable).links = w.links := rfl

/-- Deleting edges detaches the keys of the nodes that they tie. -/
lemma Wiring.Fit.detach {w : Wiring} {attachable : Set Value} {g : Graph} (hfit : w.Fit k attachable g)
    (hw : w.Plain) (hI : I.EqualsJson) (hnull : k ≠ .null) (keys : List Value) :
    ∃ st, ((Side.edges w).detach k (some keys)).run I g = some st ∧
      Leaves (w.terms k attachable) k g
        {v ∈ attachedTo (w.links g) k | v ∉ Value.distinct keys} st.graph := by
  obtain ⟨ids, hids, st, hrun, hgraph⟩ := Wiring.detach_run hw hI hnull (some keys) g
  have hids (p : ℕ) : p ∈ {p | p ∈ ids} ↔ ∃ l ∈ w.links g, l.Between k (speaksOf (some keys)) ∧
      l.pivot = p := (hids p).trans Side.mem_touched
  refine ⟨st, hrun, hgraph ▸ ⟨hfit.sameNodes ⟨rfl, rfl, rfl⟩, ?_, fun hdirection => ?_⟩⟩
  · rw [terms_links, links_withoutEdges, ← attachedTo_speaksOf]
    exact attachedTo_delete hids (hfit.links_injOn hnull)
  · rw [terms_links, links_withoutEdges]
    exact linksOfOthers_delete hids (Wiring.links_injOn hdirection)

/-- Making edges attaches keys: without a direction an edge is seen from its other end as well, but no
key of the parent comes of that. -/
lemma Wiring.Fit.attach {w : Wiring} {attachable : Set Value} {g : Graph} (hfit : w.Fit k attachable g)
    (hw : w.Plain) (hI : I.EqualsJson) (hnull : k ≠ .null) {keys : List Value}
    (hkeys : ∀ v ∈ keys, v ∈ attachable) (attributes : Row) :
    ∃ st, (w.attachment k keys attributes).run I g = some st ∧
      Leaves (w.terms k attachable) k g
        (attachedTo (w.links g) k ∪ {v | v ∈ keys}) st.graph := by
  obtain ⟨st, new, hrun, hnodes, hlinks, hmade, hnew⟩ := Wiring.attach_run hw hI k keys attributes g
  refine ⟨st, hrun, hfit.sameNodes hnodes, ?_, fun hdirection => ?_⟩
  · rw [terms_links, hlinks]
    refine attachedTo_union (fun v hv => ?_) (fun v hv => ?_) fun l hl hparent => ?_
    · obtain ⟨j, hj⟩ := hfit.related v (hkeys v hv)
      exact (Graph.mem_holding.mp hj).2.2
    · obtain ⟨m, hm, rfl⟩ := hfit.mem_pairs hkeys hv
      exact hmade m hm
    · rcases (hnew l hl).2 with hbetween | ⟨hboth, m, hm, hi, hj, hparent', hrelated⟩
      · exact hbetween.2
      · -- The other end is a parent with the key, so it is the parent itself.
        obtain ⟨hparents, hmem, hrelateds⟩ := Wiring.mem_pairs.mp hm
        have hj' : m.2.2 ∈ g.holding w.parentLabel w.parentKey k :=
          Graph.mem_holding.mpr ⟨hj, hparent'.symm.trans hparent, hnull⟩
        rw [hrelated, hfit.single hboth m.1 hparents m.2.2 hj', (Graph.mem_holding.mp hrelateds).2.1]
        exact hmem
  · rw [terms_links, hlinks]
    exact linksOfOthers_union fun l hl => (hnew l hl).2.resolve_right
      (fun hreversed => hdirection hreversed.1) |>.1

/-- Setting properties of edges leaves the keys. -/
lemma Wiring.Fit.update {w : Wiring} {attachable : Set Value} {g : Graph} (hfit : w.Fit k attachable g)
    (hw : w.Plain) (hI : I.EqualsJson) (hnull : k ≠ .null) (v : Value) (attributes : Row) :
    ∃ st, ((Side.edges w).update k v attributes).run I g = some st ∧
      Leaves (w.terms k attachable) k g (attachedTo (w.links g) k) st.graph := by
  obtain ⟨st, hrun, hsets⟩ := Side.update_run hI (Side.edges_sound hw) hnull v attributes g
  have hlinks : w.links st.graph = _ := Wiring.links_sets hsets
  refine ⟨st, hrun, hfit.sameNodes (Graph.Sets.sameNodes hsets), ?_, fun hdirection => ?_⟩
  · rw [terms_links, hlinks, attachedTo_updated]
  · rw [terms_links, hlinks]
    refine linksOfOthers_updated _ (fun p hp => ?_) (Wiring.links_injOn hdirection)
    obtain ⟨l, hl, hbetween, hp⟩ := Side.mem_touched.mp hp
    exact ⟨l, hl, hbetween.1, hp⟩

/-- **Edges keep pivots**, where the nodes that are to be tied are there. -/
theorem Keeping.nativeEdge {edge : EdgeSpec} {parentKey relatedKey : String} (hI : I.EqualsJson)
    (h : d.strategy = .nativeEdge edge parentKey relatedKey)
    (hw : (d.wiring edge parentKey relatedKey).Plain) (hk : parent.get? parentKey = some k)
    (hnull : k ≠ .null) (attachable : Set Value) :
    Keeping I d parent k ((d.wiring edge parentKey relatedKey).terms k attachable) :=
  .ofStatements (d.writes_nativeEdge h hk hnull)
    (fun g _ => Side.current_run hI (Side.edges_sound hw) hnull g)
    (fun _ keys hfit _ => Wiring.Fit.detach hfit hw hI hnull keys)
    (fun _ _ _ _ hfit hkeys _ => Wiring.Fit.attach hfit hw hI hnull hkeys _)
    fun _ _ v _ hfit _ _ => Wiring.Fit.update hfit hw hI hnull v _

end GraphMapper
