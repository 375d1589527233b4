import GraphMapper.Proofs.Pivot.Link

/-!
What the statements about the pivots there are do to a graph.

* `Side.Finds`, `Side.finds` (**conditions select links**): the rows in which the conditions of a
  statement are true show the links that it speaks of;
* `Side.current_run`: the statement that reads related keys;
* `Side.update_run`: the statement that sets properties;
* `Pivot.detach_run`, `Wiring.detach_run`: the statements that delete pivots.
-/

namespace GraphMapper

open Cypher (Answer Entity Env Expr Graph Interpretation Item Match Pattern Property State Statement
  Truth answersOf conditionsOperands parameterRow parameterValue rowGroups runSteps)

variable {I : Interpretation} {g : Graph} {params : Row}

/-! ### Conditions -/

/-- Tests that hold together are all true. -/
lemma chain_conditionsOperands_tests {conditions : List Expr}
    (h : ∀ e ∈ conditions, ∃ left t right, e = Expr.test left t right) (env : Env) :
    Truth.chain (conditionsOperands I g params conditions env) = .yes ↔
      ∀ e ∈ conditions, e.truth I g params env = .yes := by
  rw [Truth.chain_eq_yes_of_and fun o ho =>
    Cypher.conditionsOperands_of_tests h env o (List.mem_of_mem_tail ho)]
  induction conditions with
  | nil => simp [conditionsOperands]
  | cons e rest ih =>
      obtain ⟨left, t, right, rfl⟩ := h e List.mem_cons_self
      have ih := ih fun e he => h e (List.mem_cons_of_mem _ he)
      have hjoined : (∀ o ∈ Truth.joinedBy .and (conditionsOperands I g params rest env),
          o.2 = .yes) ↔ ∀ o ∈ conditionsOperands I g params rest env, o.2 = .yes := by
        cases conditionsOperands I g params rest env <;> simp [Truth.joinedBy]
      rw [conditionsOperands, List.forall_mem_append, hjoined, ih, List.forall_mem_cons]
      refine and_congr_left fun _ => ?_
      rw [Expr.truth, Expr.operands]
      simp

lemma truth_equals (hI : I.EqualsJson) (p : Property) (name : String) (env : Env) :
    (Expr.equals p (.parameter name)).truth I g params env = .yes ↔
      env.value g p = parameterValue params name ∧ parameterValue params name ≠ .null := by
  rw [Expr.truth, Expr.equals, Expr.operands, Truth.chain_singleton, Cypher.Term.value,
    Cypher.Term.value, Cypher.Test.holds, hI.eq_yes]
  exact and_congr_right fun h => by rw [h]

lemma truth_oneOf (hI : I.EqualsJson) (p : Property) {name : String} {items : List Value}
    (hitems : parameterValue params name = .array items) (env : Env) :
    (Expr.oneOf p name).truth I g params env = .yes ↔
      env.value g p ∈ items ∧ env.value g p ≠ .null := by
  rw [Expr.truth, Expr.oneOf, Expr.operands, Truth.chain_singleton, Cypher.Term.value,
    Cypher.Term.value, hitems, Cypher.Test.holds, Truth.any_eq_yes, List.mem_map]
  constructor
  · rintro ⟨w, hw, heq⟩
    obtain ⟨rfl, hnull⟩ := hI.eq_yes.mp heq
    exact ⟨hw, hnull⟩
  · rintro ⟨hmem, hnull⟩
    exact ⟨_, hmem, hI.eq_yes.mpr ⟨rfl, hnull⟩⟩

/-- The parameters of a statement are numbered. -/
lemma parameterValue_numbered {values : List Value} {i : ℕ} {v : Value} (h : values[i]? = some v)
    (steps : List Cypher.Step) (columns : List String) :
    parameterValue (numbered values steps columns).parameters (Bindings.parameterName i) = v := by
  rw [parameterValue, numbered, Bindings.get?_parameters (by simpa [Bindings.ofValues] using h)]
  rfl

section Numbered

variable (u v w : Value) (rest : List Value) (steps : List Cypher.Step) (columns : List String)

lemma numbered_p0 : parameterValue (numbered (u :: rest) steps columns).parameters "p0" = u :=
  parameterValue_numbered (i := 0) rfl steps columns

lemma numbered_p1 : parameterValue (numbered (u :: v :: rest) steps columns).parameters "p1" = v :=
  parameterValue_numbered (i := 1) rfl steps columns

lemma numbered_p2 :
    parameterValue (numbered (u :: v :: w :: rest) steps columns).parameters "p2" = w :=
  parameterValue_numbered (i := 2) rfl steps columns

end Numbered

/-! ### Properties that are set -/

/-- Properties that are set row by row are changes, one for each row. -/
lemma foldl_change_eq {change : Cypher.Change} {binder : String} {values : Row}
    (hchange : ∀ g env, change.apply I params g env = (env binder).elim g
      (g.change fun properties => Cypher.assignProperties properties values))
    (rows : List Env) (g : Graph) :
    rows.foldl (fun g env =>
      [change].foldl (fun g change => change.apply I params g env) g) g =
      g.changes (rows.map fun env => ((env binder).getD (.value .null),
        fun properties => Cypher.assignProperties properties values)) := by
  rw [Graph.changes, List.foldl_map]
  congr 1
  funext g env
  rw [List.foldl_cons, List.foldl_nil, hchange]
  cases env binder <;> rfl

/-- Such changes set properties of what the rows stand for alone. -/
lemma Cypher.Graph.sets_changes {entity : ℕ → Entity} (hentity : entity = .node ∨ entity = .edge)
    {rows : List Env} {binder : String} {ids : Set ℕ}
    (hids : ∀ x, x ∈ rows.map (fun env => (env binder).getD (.value .null)) ↔ x ∈ entity '' ids)
    (values : Row) (g : Graph) :
    g.Sets entity values ids (g.changes (rows.map fun env => ((env binder).getD (.value .null),
      fun properties => Cypher.assignProperties properties values))) := by
  set all := rows.map fun env => ((env binder).getD (.value .null),
    fun properties => Cypher.assignProperties properties values) with hall
  have hmem (x : Entity) : x ∈ all.map Prod.fst ↔ x ∈ entity '' ids := by
    rw [hall, List.map_map]
    exact hids x
  have hoverlay : ∀ p ∈ all, ∀ row, Fields.get? (p.2 row) =
      Cypher.overlay values (Fields.get? row) := by
    intro p hp row
    obtain ⟨env, -, rfl⟩ := List.mem_map.mp hp
    exact Cypher.get?_assignProperties row values
  refine ⟨g.sameElements_changes all, fun p hp => ?_, fun x hx => ?_⟩
  · have hp := (hmem _).mpr ⟨p, hp, rfl⟩
    rcases hentity with rfl | rfl
    · exact (congrArg _ (g.ofNode_changes all p)).trans (Graph.get?_changesOf_overlay hoverlay hp _)
    · exact (congrArg _ (g.ofEdge_changes all p)).trans (Graph.get?_changesOf_overlay hoverlay hp _)
  · exact g.properties_changes_of_notMem fun hmem' => hx ((hmem x).mp hmem')

/-! ### Rows that show links -/

/-- The related keys that a statement speaks of: the given ones, or all. -/
def speaksOf (keys : Option (List Value)) (v : Value) : Prop :=
  ∀ given, keys = some given → v ∈ Value.distinct given ∧ v ≠ .null

/-- The links of a parent to some related keys. -/
def Link.Between (k : Value) (related : Value → Prop) (l : Link) : Prop :=
  l.parent = k ∧ related l.related

namespace Side

variable {side : Side} {k : Value}

/-- The rows show just the links that fulfil a condition. -/
structure Finds (side : Side) (g : Graph) (wanted : Link → Prop) (rows : List Env) : Prop where
  shows : ∀ env ∈ rows, ∃ l, side.Shows g env l ∧ wanted l
  shown : ∀ l ∈ side.links g, wanted l → ∃ env ∈ rows, side.Shows g env l

/-- **Conditions select links**: the rows of a match show the links of which its conditions are true. -/
theorem finds (h : side.Sound) {conditions : List Expr} {wanted : Link → Prop}
    (htests : ∀ e ∈ conditions, ∃ left t right, e = Expr.test left t right)
    (hwanted : ∀ env l, side.Shows g env l →
      ((∀ e ∈ conditions, e.truth I g params env = .yes) ↔ wanted l)) :
    side.Finds g wanted ((Match.mk side.pattern conditions).rows I g params .empty) := by
  have hmem (env : Env) : env ∈ (Match.mk side.pattern conditions).rows I g params .empty ↔
      env ∈ side.pattern.rows g .empty ∧ ∀ e ∈ conditions, e.truth I g params env = .yes := by
    rw [Cypher.Match.rows_eq, List.mem_filter, decide_eq_true_eq,
      chain_conditionsOperands_tests htests]
  constructor
  · intro env henv
    obtain ⟨hrow, htrue⟩ := (hmem env).mp henv
    obtain ⟨l, hl⟩ := h.shows g env hrow
    exact ⟨l, hl, (hwanted env l hl).mp htrue⟩
  · intro l hl hw
    obtain ⟨env, henv, hshows⟩ := h.shown g l hl
    exact ⟨env, (hmem env).mpr ⟨henv, (hwanted env l hshows).mpr hw⟩, hshows⟩

/-! ### Statements about one side -/

/-- Reads the related keys of a parent. -/
def current (side : Side) (k : Value) : Statement :=
  numbered [k]
    [.find ⟨side.pattern, [.equals side.ofParent (.parameter "p0")]⟩,
      .project false [.named (.property side.ofRelated) relatedKeyColumn]]
    [relatedKeyColumn]

/-- Deletes pivots of a parent. -/
def detach (side : Side) (k : Value) (keys : Option (List Value)) : Statement :=
  DirectRelation.detachFrom side.pattern side.ofParent side.ofRelated k keys

/-- Sets properties of pivots of a parent. -/
def update (side : Side) (k relatedKey : Value) (attributes : Row) : Statement :=
  DirectRelation.updateIn side.pattern side.ofParent side.ofRelated k relatedKey attributes

lemma finds_parent (hI : I.EqualsJson) (h : side.Sound) (hk : k ≠ .null)
    (hp0 : parameterValue params "p0" = k) :
    side.Finds g (Link.Between k fun _ => True)
      ((Match.mk side.pattern [.equals side.ofParent (.parameter "p0")]).rows I g params .empty) := by
  refine finds h (fun e he => ⟨_, _, _, List.mem_singleton.mp he⟩) fun env l hl => ?_
  rw [List.forall_mem_singleton, truth_equals hI, hl.parent, hp0]
  exact ⟨fun h => ⟨h.1, trivial⟩, fun h => ⟨h.1, hk⟩⟩

lemma finds_among (hI : I.EqualsJson) (h : side.Sound) (hk : k ≠ .null) {keys : List Value}
    (hp0 : parameterValue params "p0" = k)
    (hp1 : parameterValue params "p1" = .array (Value.distinct keys)) :
    side.Finds g (Link.Between k (speaksOf (some keys)))
      ((Match.mk side.pattern
        [.equals side.ofParent (.parameter "p0"), .oneOf side.ofRelated "p1"]).rows I g params
          .empty) := by
  have htests : ∀ e ∈ [Expr.equals side.ofParent (.parameter "p0"), .oneOf side.ofRelated "p1"],
      ∃ left t right, e = Expr.test left t right := by
    intro e he
    simp only [List.mem_cons, List.not_mem_nil, or_false] at he
    rcases he with rfl | rfl <;> exact ⟨_, _, _, rfl⟩
  refine finds h htests fun env l hl => ?_
  rw [List.forall_mem_cons, List.forall_mem_singleton, truth_equals hI, truth_oneOf hI _ hp1,
    hl.parent, hl.related, hp0]
  constructor
  · rintro ⟨⟨hparent, -⟩, hrelated⟩
    exact ⟨hparent, by rintro given ⟨⟩; exact hrelated⟩
  · rintro ⟨hparent, hrelated⟩
    exact ⟨⟨hparent, hk⟩, hrelated keys rfl⟩

lemma finds_pair (hI : I.EqualsJson) (h : side.Sound) (hk : k ≠ .null) {v : Value}
    (hp0 : parameterValue params "p0" = k) (hp1 : parameterValue params "p1" = v) :
    side.Finds g (Link.Between k fun related => related = v ∧ v ≠ .null)
      ((Match.mk side.pattern
        [.equals side.ofParent (.parameter "p0"),
          .equals side.ofRelated (.parameter "p1")]).rows I g params .empty) := by
  have htests : ∀ e ∈ [Expr.equals side.ofParent (.parameter "p0"),
      Expr.equals side.ofRelated (.parameter "p1")],
      ∃ left t right, e = Expr.test left t right := by
    intro e he
    simp only [List.mem_cons, List.not_mem_nil, or_false] at he
    rcases he with rfl | rfl <;> exact ⟨_, _, _, rfl⟩
  refine finds h htests fun env l hl => ?_
  rw [List.forall_mem_cons, List.forall_mem_singleton, truth_equals hI, truth_equals hI,
    hl.parent, hl.related, hp0, hp1]
  exact ⟨fun h => ⟨h.1.1, h.2⟩, fun h => ⟨⟨h.1, hk⟩, h.2⟩⟩

/-! ### Reading -/

/-- The rows of one column. -/
lemma answersOf_property (g : Graph) (p : Property) (column : String) (rows : List Env) :
    answersOf I params g false [.named (.property p) column] rows =
      rows.map fun env => ⟨[env], [(column, env.value g p)]⟩ := by
  rw [answersOf, Cypher.rowGroups_of_no_aggregate (by
    simp [Item.named, Cypher.Projection.isAggregate]), List.map_map]
  rfl

/-- The statement that reads related keys answers those of the parent's links. -/
theorem current_run (hI : I.EqualsJson) (h : side.Sound) (hk : k ≠ .null) (g : Graph) :
    ∃ st answers, (side.current k).run I g = some st ∧ st.graph = g ∧ st.answers = some answers ∧
      ∀ v, v ∈ (answers.map (·.row)).filterMap (Fields.get? · relatedKeyColumn) ↔
        ∃ l ∈ side.links g, l.parent = k ∧ l.related = v := by
  obtain ⟨hshows, hshown⟩ := finds_parent (g := g) hI h hk
    (numbered_p0 k [] (side.current k).steps (side.current k).columns)
  refine ⟨_, _, rfl, rfl, rfl, fun v => ?_⟩
  simp only [answersOf_property, List.map_map, List.filterMap_map, List.flatMap_singleton]
  constructor
  · intro hv
    obtain ⟨env, henv, heq⟩ := List.mem_filterMap.mp hv
    obtain ⟨l, hl, hparent, -⟩ := hshows env henv
    obtain rfl : env.value g side.ofRelated = v := by
      simpa [Fields.get?] using heq
    exact ⟨l, hl.mem, hparent, hl.related.symm⟩
  · rintro ⟨l, hl, hparent, rfl⟩
    obtain ⟨env, henv, hl⟩ := hshown l hl ⟨hparent, trivial⟩
    refine List.mem_filterMap.mpr ⟨env, henv, ?_⟩
    simp [Fields.get?, hl.related]

/-! ### Setting properties -/

/-- Rows that show links set properties of their pivots alone. -/
lemma sets_of_finds (h : side.Sound) {wanted : Link → Prop} {rows : List Env}
    (hfinds : side.Finds g wanted rows) (values : Row) :
    g.Sets side.entity values (side.touched g wanted)
      (g.changes (rows.map fun env => ((env pivotVariable).getD (.value .null),
        fun properties => Cypher.assignProperties properties values))) := by
  refine Graph.sets_changes h.entity (fun x => ?_) values g
  constructor
  · intro hx
    obtain ⟨env, henv, rfl⟩ := List.mem_map.mp hx
    obtain ⟨l, hl, hwanted⟩ := hfinds.shows env henv
    refine ⟨l.pivot, ⟨l, ⟨hl.mem, hwanted⟩, rfl⟩, ?_⟩
    simp [hl.pivot]
  · rintro ⟨_, ⟨l, ⟨hl, hwanted⟩, rfl⟩, rfl⟩
    obtain ⟨env, henv, hl⟩ := hfinds.shown l hl hwanted
    exact List.mem_map.mpr ⟨env, henv, by simp [hl.pivot]⟩

/-- The statement that sets properties sets those of the links between two keys. -/
theorem update_run (hI : I.EqualsJson) (h : side.Sound) (hk : k ≠ .null) (v : Value) (values : Row)
    (g : Graph) :
    ∃ st, (side.update k v values).run I g = some st ∧
      g.Sets side.entity values
        (side.touched g (Link.Between k fun related => related = v ∧ v ≠ .null)) st.graph := by
  have hfinds := finds_pair (g := g) hI h hk
    (numbered_p0 k [v, .object values] (side.update k v values).steps [affectedColumn])
    (numbered_p1 k v [.object values] (side.update k v values).steps [affectedColumn])
  have hsets := sets_of_finds h hfinds values
  refine ⟨_, rfl, ?_⟩
  have hvalues : parameterRow (side.update k v values).parameters "p2" = values := by
    rw [parameterRow, update, DirectRelation.updateIn, numbered_p2]
  dsimp only [List.flatMap_singleton]
  rw [foldl_change_eq (fun _ _ => rfl), hvalues, List.flatMap_singleton]
  exact hsets

/-! ### Deleting -/

/-- A statement that deletes pivots finds those of the links that it speaks of. -/
lemma detach_rows (hI : I.EqualsJson) (h : side.Sound) (hk : k ≠ .null)
    (keys : Option (List Value)) (g : Graph) :
    ∃ rows, side.Finds g (Link.Between k (speaksOf keys)) rows ∧
      (side.detach k keys).run I g =
        (Cypher.Step.delete pivotVariable).run I (side.detach k keys).parameters
          ⟨g, rows, none⟩ := by
  cases keys with
  | none =>
      refine ⟨_, ?_, Option.bind_fun_some _⟩
      have hfinds := finds_parent (g := g) hI h hk
        (numbered_p0 k [] (side.detach k none).steps (side.detach k none).columns)
      dsimp only [List.flatMap_singleton]
      rw [List.flatMap_singleton]
      refine ⟨fun env henv => ?_, fun l hl hwanted => hfinds.shown l hl ⟨hwanted.1, trivial⟩⟩
      obtain ⟨l, hl, hparent, -⟩ := hfinds.shows env henv
      exact ⟨l, hl, hparent, by rintro _ ⟨⟩⟩
  | some keys =>
      refine ⟨_, ?_, Option.bind_fun_some _⟩
      dsimp only
      rw [List.flatMap_singleton]
      exact finds_among hI h hk
        (numbered_p0 k [.array (Value.distinct keys)] (side.detach k (some keys)).steps
          (side.detach k (some keys)).columns)
        (numbered_p1 k (.array (Value.distinct keys)) [] (side.detach k (some keys)).steps
          (side.detach k (some keys)).columns)

/-- The numbers of nodes or edges in rows that show links are the pivots of these links. -/
lemma mem_pivots_of_finds {wanted : Link → Prop} {rows : List Env}
    (hfinds : side.Finds g wanted rows) {number? : Env → Option ℕ}
    (hnumber : ∀ env p, env pivotVariable = some (side.entity p) → number? env = some p) (p : ℕ) :
    p ∈ rows.filterMap number? ↔ p ∈ side.touched g wanted := by
  rw [List.mem_filterMap]
  constructor
  · rintro ⟨env, henv, heq⟩
    obtain ⟨l, hl, hwanted⟩ := hfinds.shows env henv
    rw [hnumber env _ hl.pivot] at heq
    exact ⟨l, ⟨hl.mem, hwanted⟩, Option.some.inj heq⟩
  · rintro ⟨l, ⟨hl, hwanted⟩, rfl⟩
    obtain ⟨env, henv, hl⟩ := hfinds.shown l hl hwanted
    exact ⟨env, henv, hnumber env _ hl.pivot⟩

/-- In rows that show no entity of a kind nothing of that kind is found. -/
lemma filterMap_eq_nil_of_finds {wanted : Link → Prop} {rows : List Env}
    (hfinds : side.Finds g wanted rows) {number? : Env → Option ℕ}
    (hnumber : ∀ env p, env pivotVariable = some (side.entity p) → number? env = none) :
    rows.filterMap number? = [] := by
  refine List.filterMap_eq_nil_iff.mpr fun env henv => ?_
  obtain ⟨l, hl, -⟩ := hfinds.shows env henv
  exact hnumber env _ hl.pivot

end Side

/-- Deleting pivot nodes leaves the graph without them.  It is refused as long as there are edges at
them. -/
theorem Pivot.detach_run {spec : Pivot} (hspec : spec.Plain) (hI : I.EqualsJson) {k : Value}
    (hk : k ≠ .null) (keys : Option (List Value)) (g : Graph) :
    ∃ ids : List ℕ,
      (∀ p, p ∈ ids ↔ p ∈ (Side.nodes spec).touched g (Link.Between k (speaksOf keys))) ∧
      if ∃ e ∈ g.edges, g.source e ∈ ids ∨ g.target e ∈ ids then
        ((Side.nodes spec).detach k keys).run I g = none
      else
        ∃ st, ((Side.nodes spec).detach k keys).run I g = some st ∧
          st.graph = g.withoutNodes ids := by
  obtain ⟨rows, hfinds, hrun⟩ := Side.detach_rows hI (Side.nodes_sound hspec) hk keys g
  have hnone : rows.filterMap (·.edge? pivotVariable) = [] :=
    Side.filterMap_eq_nil_of_finds hfinds fun env p henv => by rw [Env.edge?, henv]; rfl
  refine ⟨rows.filterMap (·.node? pivotVariable), Side.mem_pivots_of_finds hfinds
    fun env p henv => by rw [Env.node?, henv]; rfl, ?_⟩
  have hany : (g.edges.any fun e =>
      g.source e ∈ rows.filterMap (·.node? pivotVariable) ∨
        g.target e ∈ rows.filterMap (·.node? pivotVariable)) = true ↔
      ∃ e ∈ g.edges, g.source e ∈ rows.filterMap (·.node? pivotVariable) ∨
        g.target e ∈ rows.filterMap (·.node? pivotVariable) := by
    simp only [List.any_eq_true, decide_eq_true_eq]
  rw [hrun, Cypher.Step.run]
  dsimp only
  rw [hnone, Graph.withoutEdges_nil]
  split_ifs with h h' h'
  · rfl
  · exact absurd (hany.mpr h) h'
  · exact absurd (hany.mp h') h
  · exact ⟨_, rfl, rfl⟩

/-- Deleting edges leaves the graph without them. -/
theorem Wiring.detach_run {w : Wiring} (hw : w.Plain) (hI : I.EqualsJson) {k : Value}
    (hk : k ≠ .null) (keys : Option (List Value)) (g : Graph) :
    ∃ ids : List ℕ,
      (∀ e, e ∈ ids ↔ e ∈ (Side.edges w).touched g (Link.Between k (speaksOf keys))) ∧
      ∃ st, ((Side.edges w).detach k keys).run I g = some st ∧ st.graph = g.withoutEdges ids := by
  obtain ⟨rows, hfinds, hrun⟩ := Side.detach_rows hI (Side.edges_sound hw) hk keys g
  have hnone : rows.filterMap (·.node? pivotVariable) = [] :=
    Side.filterMap_eq_nil_of_finds hfinds fun env p henv => by rw [Env.node?, henv]; rfl
  refine ⟨rows.filterMap (·.edge? pivotVariable), Side.mem_pivots_of_finds hfinds
    fun env p henv => by rw [Env.edge?, henv]; rfl, ?_⟩
  rw [hrun, Cypher.Step.run]
  dsimp only
  rw [hnone]
  refine ⟨_, if_neg (by simp), ?_⟩
  simp [Graph.withoutNodes, Graph.withoutEdges]

end GraphMapper
