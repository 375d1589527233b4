import GraphMapper.Proofs.Pivot.Keeping
import GraphMapper.Record.Association

/-!
What the statements about the owner of a record do to a graph.

* `DirectRelation.tie?`, `DirectRelation.foreign?`, `DirectRelation.reference`: the edges to the owner, and
  the property that refers to it;
* `Wiring.At`, `Wiring.couples`: the edges that a node has as a parent, and the records and owners that a
  new edge joins; `Wiring.mem_rows_keyed`, `Wiring.rows_couples`: the rows that are found for them;
* `unlink_run`, `link_run`, `clearReference_run`: the edges of the records with a key go, an edge is made
  from each record with a key to each owner with one, and the reference of the records is cleared;
* `EdgeChange.statements_associate`, `EdgeChange.statements_dissociate`: which of them a waiting change is.
-/

namespace GraphMapper

open Cypher (Answer Entity Env Expr Graph Interpretation Match Pattern Property State Statement Step
  answersOf parameterValue runSteps)

variable {I : Interpretation} {g : Graph} {params : Row}

/-! ### What ties a record to its owner -/

namespace DirectRelation

/-- The edges to the owner. -/
def tie? (d : DirectRelation) : Option Wiring :=
  d.strategy.edge?.map fun (edge, parentKey, relatedKey) => d.wiring edge parentKey relatedKey

/-- The name of the property that refers to the owner. -/
def foreign? (d : DirectRelation) : Option String :=
  d.strategy.keys?.map (·.foreignKey)

/-- What is set to refer to an owner by its key. -/
def reference (d : DirectRelation) (key : Value) : Row :=
  (d.foreign?.map (·, key)).toList

lemma tie?_eq_some {d : DirectRelation} {w : Wiring} (h : d.tie? = some w) :
    d.strategy.edge? = some (w.edge, w.parentKey, w.relatedKey) ∧
      d.wiring w.edge w.parentKey w.relatedKey = w := by
  obtain ⟨⟨edge, recordKey, ownerKey⟩, hedge, rfl⟩ := Option.map_eq_some_iff.mp h
  exact ⟨hedge, rfl⟩

end DirectRelation

namespace Wiring

/-- The edges that a node has as a parent. -/
def At (w : Wiring) (g : Graph) (i e : ℕ) : Prop :=
  ∃ j, w.Joins g i j e

/-- The records with a key, each with each of the owners with one. -/
def couples (w : Wiring) (g : Graph) (v k : Value) : List (ℕ × ℕ) :=
  g.holding w.parentLabel w.parentKey v ×ˢ g.holding w.relatedLabel w.relatedKey k

/-- The rows of the edges of the records with a key. -/
lemma mem_rows_keyed (hI : I.EqualsJson) (w : Wiring) (hplain : columnOwner w.parentKey = "")
    {binder : String} (hname : binder ≠ "") (hparent : binder ≠ parentVariable)
    (hrelated : binder ≠ relatedVariable) {v : Value} (hp0 : parameterValue params "p0" = v)
    {env : Env} :
    env ∈ (Match.mk (w.edge.between ⟨parentVariable, some w.parentLabel⟩ binder
        ⟨relatedVariable, some w.relatedLabel⟩)
      [.equals (Property.ofColumn parentVariable w.parentKey) (.parameter "p0")]).rows I g params
        .empty ↔
      ∃ i j e, w.Joins g i j e ∧ (g.value i w.parentKey = v ∧ v ≠ .null) ∧
        (ends i j).set binder (.edge e) = env := by
  have htests : ∀ e ∈ [Expr.equals (Property.ofColumn parentVariable w.parentKey) (.parameter "p0")],
      ∃ left t right, e = Expr.test left t right :=
    fun e he => ⟨_, _, _, List.mem_singleton.mp he⟩
  have hvalue (i j e : ℕ) : ((ends i j).set binder (.edge e)).value g
      (Property.ofColumn parentVariable w.parentKey) = g.value i w.parentKey := by
    have hrecord : (ends i j).set binder (.edge e) parentVariable = some (.node i) := by
      rw [Env.set_of_ne hparent.symm]
      rfl
    exact value_ofColumn hrecord hplain
  rw [Cypher.Match.rows_eq, List.mem_filter, decide_eq_true_eq,
    chain_conditionsOperands_tests htests, List.forall_mem_singleton, truth_equals hI, hp0]
  constructor
  · rintro ⟨hrow, hkey⟩
    obtain ⟨i, j, e, hjoins, rfl⟩ := (w.mem_rows_between hname hparent hrelated).mp hrow
    exact ⟨i, j, e, hjoins, hvalue i j e ▸ hkey, rfl⟩
  · rintro ⟨i, j, e, hjoins, hkey, rfl⟩
    exact ⟨(w.mem_rows_between hname hparent hrelated).mpr ⟨i, j, e, hjoins, rfl⟩,
      (hvalue i j e).symm ▸ hkey⟩

variable {w : Wiring}

/-- The rows from which edges are made are those of the couples. -/
lemma rows_couples (hI : I.EqualsJson) (hw : w.Plain) {v k : Value}
    (hp0 : parameterValue params "p0" = v) (hp1 : parameterValue params "p1" = k) (g : Graph) :
    ((Match.mk (nodePattern parentVariable w.parentLabel)
        [.equals (Property.ofColumn parentVariable w.parentKey) (.parameter "p0")]).rows I g params
          .empty).flatMap ((Match.mk (nodePattern relatedVariable w.relatedLabel)
            [.equals (Property.ofColumn relatedVariable w.relatedKey) (.parameter "p1")]).rows I g
              params) = (w.couples g v k).map fun m => ends m.1 m.2 := by
  rw [rows_holding (v := v) hI hw.parent rfl fun j => by rw [Cypher.Term.value, hp0],
    List.flatMap_map, couples]
  change _ = List.map _ (List.flatMap _ _)
  rw [List.map_flatMap]
  refine List.flatMap_congr fun i _ => ?_
  rw [rows_holding (v := k) hI hw.related rfl fun j => by rw [Cypher.Term.value, hp1], List.map_map]
  rfl

lemma couples_bound {v k : Value} {m : ℕ × ℕ} (hm : m ∈ w.couples g v k) :
    ends m.1 m.2 parentVariable = some (.node m.1) ∧
      ends m.1 m.2 relatedVariable = some (.node m.2) ∧ m.1 ∈ g.nodes ∧ m.2 ∈ g.nodes := by
  obtain ⟨hi, hj⟩ := List.mem_product.mp hm
  exact ⟨rfl, rfl, List.mem_of_mem_filter (Graph.mem_holding.mp hi).1,
    List.mem_of_mem_filter (Graph.mem_holding.mp hj).1⟩

end Wiring

variable {d : DirectRelation} {w : Wiring} {edge : EdgeSpec} {recordKey ownerKey : String}

/-! ### Removing edges -/

/-- **The edges of the records with the key go.** -/
theorem unlink_run (hI : I.EqualsJson) (d : DirectRelation) (edge : EdgeSpec) (ownerKey : String)
    (hplain : columnOwner recordKey = "") (v : Value) (g : Graph) :
    ∃ (ids : List ℕ) (st : State), (unlink d edge recordKey v).run I g = some st ∧
      st.graph = g.withoutEdges ids ∧
      ∀ e, e ∈ ids ↔ ∃ i ∈ g.holding d.parentLabel recordKey v,
        (d.wiring edge recordKey ownerKey).At g i e := by
  set w := d.wiring edge recordKey ownerKey with hw
  set s := unlink d edge recordKey v with hs
  have hp0 : parameterValue s.parameters "p0" = v := numbered_p0 _ _ _ _
  set rows := (Match.mk (d.edgePattern edge edgeVariable)
    [.equals (Property.ofColumn parentVariable recordKey) (.parameter "p0")]).rows I g s.parameters
      .empty with hrows
  have hmem (env : Env) : env ∈ rows ↔ ∃ i j e, w.Joins g i j e ∧
      (g.value i recordKey = v ∧ v ≠ .null) ∧
      (Wiring.ends i j).set edgeVariable (.edge e) = env :=
    w.mem_rows_keyed hI hplain (by decide) (by decide) (by decide) hp0
  have hnone : rows.filterMap (·.node? edgeVariable) = [] := by
    refine List.filterMap_eq_nil_iff.mpr fun env henv => ?_
    obtain ⟨i, j, e, -, -, rfl⟩ := (hmem env).mp henv
    rfl
  refine ⟨rows.filterMap (·.edge? edgeVariable), ⟨g.withoutEdges
    (rows.filterMap (·.edge? edgeVariable)), rows, none⟩, ?_, rfl, fun e => ?_⟩
  · have hsteps : s.steps = [.find ⟨d.edgePattern edge edgeVariable,
        [.equals (Property.ofColumn parentVariable recordKey) (.parameter "p0")]⟩,
      .delete edgeVariable] := rfl
    rw [Statement.run, hsteps]
    simp only [Cypher.runSteps_cons, Cypher.Step.run, Option.bind_some, Cypher.runSteps_nil,
      List.flatMap_singleton, ← hrows, hnone]
    simp [Graph.withoutNodes, Graph.withoutEdges]
  · rw [List.mem_filterMap]
    constructor
    · rintro ⟨env, henv, he⟩
      obtain ⟨i, j, e', hjoins, ⟨hkey, hnull⟩, rfl⟩ := (hmem env).mp henv
      obtain rfl : e' = e := Option.some.inj he
      exact ⟨i, Graph.mem_holding.mpr ⟨hjoins.parent, hkey, hnull⟩, j, hjoins⟩
    · rintro ⟨i, hi, j, hjoins⟩
      obtain ⟨-, hkey, hnull⟩ := Graph.mem_holding.mp hi
      exact ⟨_, (hmem _).mpr ⟨i, j, e, hjoins, ⟨hkey, hnull⟩, rfl⟩, rfl⟩

/-! ### Making edges -/

/-- The reference of the records in the rows is set. -/
lemma referStep_run (hforeign : ∀ column, d.foreign? = some column → columnOwner column = "")
    {name : String} {k : Value} (hk : d.strategy.keys?.isSome → parameterValue params name = k)
    {rows : List Env} {ids : Set ℕ}
    (hrows : ∀ x, x ∈ rows.map (fun env => (env parentVariable).getD (.value .null)) ↔
      x ∈ Entity.node '' ids) (g : Graph) :
    ∃ g', runSteps I params (referStep d.strategy.keys? name) ⟨g, rows, none⟩ =
        some ⟨g', rows, none⟩ ∧ g.Sets .node (d.reference k) ids g' := by
  cases hkeys : d.strategy.keys? with
  | none =>
      refine ⟨g, rfl, ?_⟩
      rw [DirectRelation.reference, DirectRelation.foreign?, hkeys]
      exact ⟨.refl g, fun _ _ => rfl, fun _ _ => rfl⟩
  | some keys =>
      have hplain : columnOwner keys.foreignKey = "" :=
        hforeign _ (by rw [DirectRelation.foreign?, hkeys]; rfl)
      have hchange (g : Graph) (env : Env) :
          (Cypher.Change.assign (Property.ofColumn parentVariable keys.foreignKey)
            (.parameter name)).apply I params g env =
          (env parentVariable).elim g (g.change fun properties =>
            Cypher.assignProperties properties [(keys.foreignKey, k)]) := by
        rw [Cypher.Change.apply, ofColumn_of_columnOwner_eq hplain, Cypher.Term.value,
          hk (hkeys ▸ rfl)]
      refine ⟨_, ?_, Graph.sets_changes (.inl rfl) hrows _ g⟩
      rw [referStep, Cypher.runSteps_cons, Cypher.Step.run, Option.bind_some, Cypher.runSteps_nil,
        DirectRelation.reference, DirectRelation.foreign?, hkeys]
      exact congrArg (fun g => some (State.mk g rows none)) (foldl_change_eq hchange rows g)

section

variable (d : DirectRelation) (edge : EdgeSpec) (recordKey ownerKey : String) (v k : Value)

lemma link_steps : (link d edge recordKey ownerKey v k).steps =
    ([recordStep d recordKey,
      .find ⟨nodePattern relatedVariable d.relatedLabel,
        [.equals (Property.ofColumn relatedVariable ownerKey) (.parameter "p1")]⟩,
      .create (edge.creating ⟨parentVariable, none⟩ edgeVariable ⟨relatedVariable, none⟩)] ++
        referStep d.strategy.keys? "p2") ++ [.project false [.named .truth "linked"]] := rfl

lemma link_p0 : parameterValue (link d edge recordKey ownerKey v k).parameters "p0" = v := by
  rw [link]
  split_ifs <;> exact numbered_p0 _ _ _ _

lemma link_p1 : parameterValue (link d edge recordKey ownerKey v k).parameters "p1" = k := by
  rw [link]
  split_ifs <;> exact numbered_p1 _ _ _ _ _

lemma link_p2 (hkeys : d.strategy.keys?.isSome) :
    parameterValue (link d edge recordKey ownerKey v k).parameters "p2" = k := by
  obtain ⟨keys, hkeys⟩ := Option.isSome_iff_exists.mp hkeys
  rw [link, hkeys]
  exact numbered_p2 _ _ _ _ _ _

end

/-- **An edge is made from each record with the key to each owner with its key**, and a row is returned
for each; the records refer to the owner. -/
theorem link_run (hI : I.EqualsJson) (hplain : (d.wiring edge recordKey ownerKey).Plain)
    (hforeign : ∀ column, d.foreign? = some column → columnOwner column = "") (v k : Value)
    (g : Graph) :
    ∃ (made : List ((ℕ × ℕ) × ℕ)) (g₁ : Graph) (st : State) (answers : List Answer),
      (link d edge recordKey ownerKey v k).run I g = some st ∧
      st.answers = some answers ∧ answers.length = made.length ∧
      made.map Prod.fst = (d.wiring edge recordKey ownerKey).couples g v k ∧
      g.AddsEdges edge.edgeType (made.map fun m => (edge.direction.ends m.1.1 m.1.2, m.2)) g₁ ∧
      g₁.Sets .node (d.reference k) {i | ∃ m ∈ made, m.1.1 = i} st.graph := by
  set w := d.wiring edge recordKey ownerKey with hw
  set s := link d edge recordKey ownerKey v k with hs
  have hfound : ((Match.mk (nodePattern parentVariable d.parentLabel)
      [.equals (Property.ofColumn parentVariable recordKey) (.parameter "p0")]).rows I g s.parameters
        .empty).flatMap ((Match.mk (nodePattern relatedVariable d.relatedLabel)
          [.equals (Property.ofColumn relatedVariable ownerKey) (.parameter "p1")]).rows I g
            s.parameters) = (w.couples g v k).map fun m => Wiring.ends m.1 m.2 :=
    Wiring.rows_couples hI hplain (link_p0 ..) (link_p1 ..) g
  obtain ⟨direction, hcreating, hends⟩ :=
    Wiring.creating_eq edge ⟨parentVariable, none⟩ edgeVariable ⟨relatedVariable, none⟩
  obtain ⟨made, g₁, hcreate, hmade, hadds⟩ := Cypher.Pattern.createAll_path
    ⟨edgeVariable, edge.edgeType, direction⟩ (by decide : edgeVariable ≠ "")
    (fun m : ℕ × ℕ => m) g fun m hm => Wiring.couples_bound hm
  rw [hends] at hadds
  set rows := made.map fun m => (Wiring.ends m.1.1 m.1.2).set edgeVariable (.edge m.2) with hrows
  have hids (x : Entity) : x ∈ rows.map (fun env => (env parentVariable).getD (.value .null)) ↔
      x ∈ Entity.node '' {i | ∃ m ∈ made, m.1.1 = i} := by
    rw [hrows, List.map_map]
    constructor
    · intro hx
      obtain ⟨m, hm, rfl⟩ := List.mem_map.mp hx
      exact ⟨m.1.1, ⟨m, hm, rfl⟩, rfl⟩
    · rintro ⟨_, ⟨m, hm, rfl⟩, rfl⟩
      exact List.mem_map.mpr ⟨m, hm, rfl⟩
  obtain ⟨g₂, hrefer, hsets⟩ := referStep_run (I := I) hforeign (link_p2 d edge recordKey ownerKey v k) hids g₁
  refine ⟨made, g₁, ⟨g₂, rows, some (answersOf I s.parameters g₂ false
    [.named .truth "linked"] rows)⟩, _, ?_, rfl, ?_, hmade, hadds, hsets⟩
  · rw [Statement.run, link_steps, Cypher.runSteps_append, Cypher.runSteps_append]
    simp only [Cypher.runSteps_cons, Cypher.Step.run, recordStep, Option.bind_some,
      Cypher.runSteps_nil, List.flatMap_singleton, hfound, hcreating, hcreate]
    rw [hrefer]
    rfl
  · rw [answersOf, Cypher.rowGroups_of_no_aggregate (by
      simp [Cypher.Item.named, Cypher.Projection.isAggregate]), hrows]
    simp

/-- **The reference of the records with the key is cleared.** -/
theorem clearReference_run (hI : I.EqualsJson) {keys : Keys} (hkeys : d.strategy.keys? = some keys)
    (hplain : columnOwner recordKey = "")
    (hforeign : ∀ column, d.foreign? = some column → columnOwner column = "") (v : Value)
    (g : Graph) :
    ∃ st : State, (clearReference d keys recordKey v).run I g = some st ∧
      g.Sets .node (d.reference .null) {i | i ∈ g.holding d.parentLabel recordKey v} st.graph := by
  set s := clearReference d keys recordKey v with hs
  have hp0 : parameterValue s.parameters "p0" = v := numbered_p0 _ _ _ _
  have hp1 : parameterValue s.parameters "p1" = .null := numbered_p1 _ _ _ _ _
  have hsteps : s.steps = [recordStep d recordKey] ++ referStep d.strategy.keys? "p1" := by
    rw [hkeys]
    rfl
  have hids (x : Entity) : x ∈ ((g.holding d.parentLabel recordKey v).map fun i =>
      Env.empty.set parentVariable (.node i)).map
        (fun env => (env parentVariable).getD (.value .null)) ↔
      x ∈ Entity.node '' {i | i ∈ g.holding d.parentLabel recordKey v} := by
    simp [eq_comm]
  obtain ⟨g', hrefer, hsets⟩ := referStep_run (I := I) hforeign (fun _ => hp1) hids g
  refine ⟨⟨g', (g.holding d.parentLabel recordKey v).map fun i =>
    Env.empty.set parentVariable (.node i), none⟩, ?_, hsets⟩
  rw [Statement.run, hsteps, Cypher.runSteps_append]
  simp only [Cypher.runSteps_cons, Cypher.Step.run, recordStep, Option.bind_some,
    Cypher.runSteps_nil, List.flatMap_singleton]
  rw [Wiring.rows_holding (v := v) hI hplain rfl fun j => by rw [Cypher.Term.value, hp0]]
  exact hrefer

/-! ### The statements of a change -/

namespace EdgeChange

variable {attributes : Row} {v : Value}

/-- **A record is tied to a new owner** after its edges are removed. -/
lemma statements_associate (hw : d.tie? = some w) (hv : attributes.get? w.parentKey = some v)
    (hnull : v ≠ .null) (k : Value) :
    (EdgeChange.associate d k).statements attributes =
      .ok [⟨unlink d w.edge w.parentKey v, none⟩,
        ⟨link d w.edge w.parentKey w.relatedKey v k, some (d.relatedLabel, k)⟩] := by
  have hvalue : parentValue d.name attributes w.parentKey = .ok v :=
    DirectRelation.parentValue_eq hv hnull
  rw [statements, relation, (DirectRelation.tie?_eq_some hw).1]
  dsimp only
  rw [hvalue]
  rfl

/-- **A record is left without an owner**: its edges are removed, and then it no longer refers to one. -/
lemma statements_dissociate (hw : d.tie? = some w) (hv : attributes.get? w.parentKey = some v)
    (hnull : v ≠ .null) :
    (EdgeChange.dissociate d).statements attributes =
      .ok (⟨unlink d w.edge w.parentKey v, none⟩ ::
        d.strategy.keys?.toList.map fun keys => ⟨clearReference d keys w.parentKey v, none⟩) := by
  have hvalue : parentValue d.name attributes w.parentKey = .ok v :=
    DirectRelation.parentValue_eq hv hnull
  rw [statements, relation, (DirectRelation.tie?_eq_some hw).1]
  dsimp only
  rw [hvalue]
  cases d.strategy.keys? <;> rfl

end EdgeChange

end GraphMapper
