import GraphMapper.Proofs.Filter.Acceptance
import GraphMapper.Proofs.Graph.Route
import GraphMapper.Proofs.Graph.Selection

/-!
What the query of a relation answers.

* `Relation.lookup_eq`, `Relation.lookup_isOk`: the statement of a lookup; it can be written if the
  scope can;
* `Lookup.told`, `Relation.tells`: what a row tells, and what there is to tell of a node;
* `Relation.lookup_answer` (**lookups answer what keys lead to**): the rows tell of the nodes that
  have one of the keys, each with what it leads to and the scope allows.
-/

namespace GraphMapper

open Cypher (Answer Env Expr Graph Interpretation Item Match Property Statement Step Truth answersOf
  conditionTruth parameterValue routeRows runSteps)

/-! ### Statements of lookups -/

namespace Relation

/-- The result columns of a lookup. -/
def lookupItems (r : Relation) (key : Property) : List Item :=
  [.named (.property key) parentKeyColumn, .named (.properties relatedVariable) relatedColumn] ++
    (if r.withPivot then [.named (.properties pivotVariable) pivotColumn] else [])

/-- What a lookup binds before its scope: the keys. -/
def keyBindings (keys : List Value) : Bindings :=
  (Compiling.bind (.array (Value.distinctKeys keys)) {}).2

/-- The lookup whose scope is written in a given way. -/
def lookupOf (r : Relation) (scope : Option Expr) (b : Bindings) : Lookup where
  statement :=
    { steps := (addCondition (r.route (Bindings.parameterName 0)).1 scope).map Step.find ++
        [.project false (r.lookupItems (r.route (Bindings.parameterName 0)).2)] ++
        sortStep relatedVariable r.finalScope.orders
      parameters := b.parameters
      columns := r.lookupColumns }
  parentColumn := r.parentKey
  single := r.isSingle
  withPivot := r.withPivot

lemma lookup_eq (r : Relation) (keys : List Value) :
    r.lookup keys =
      match (r.finalScope.filter.compile relatedVariable).on (keyBindings keys) with
      | (.ok scope, b) => .ok (r.lookupOf scope b)
      | (.error e, _) => .error e := by
  rw [lookup, Compiling.statement_eq, Compiling.start_eq, Compiling.on_bind, Compiling.on_lift]
  dsimp only
  rw [Compiling.on_bind]
  rcases h : (r.finalScope.filter.compile relatedVariable).on (keyBindings keys) with ⟨e | scope, b⟩
  · rw [keyBindings] at h
    rw [h]
    rfl
  · rw [keyBindings] at h
    rw [h]
    rfl

/-- A lookup can be written if its scope can, whatever the keys. -/
theorem lookup_isOk (r : Relation) (keys : List Value) :
    (r.lookup keys).isOk = membersAccepted 0 r.finalScope.filter := by
  rw [lookup_eq, Filter.compile,
    ← compileChain_decided r.finalScope.filter relatedVariable 0 none (keyBindings keys)]
  rcases (compileChain relatedVariable 0 none r.finalScope.filter).on (keyBindings keys) with
    ⟨e | scope, b⟩ <;> rfl

lemma lookupItems_column (r : Relation) (key : Property) :
    (r.lookupItems key).map Item.column = r.lookupColumns := by
  rw [lookupItems, lookupColumns]
  cases r.withPivot <;> rfl

lemma lookupColumns_nodup (r : Relation) : r.lookupColumns.Nodup := by
  rw [lookupColumns]
  cases r.withPivot <;> decide

lemma lookupItems_isAggregate (r : Relation) (key : Property) :
    ∀ item ∈ r.lookupItems key, item.value.isAggregate = false := by
  rw [lookupItems]
  cases r.withPivot <;> simp [Item.named, Cypher.Projection.isAggregate]

end Relation

/-! ### Answers -/

variable {I : Interpretation} {g : Graph}

/-- What a row of a lookup tells: the key of the parent, and the related node. -/
def Lookup.told (row : Row) : Option Value × Option Value :=
  (row.get? parentKeyColumn, row.get? relatedColumn)

namespace Relation

variable {r : Relation}

/-- What is told of a node that was looked up by a key. -/
def tells (g : Graph) (r : Relation) (hit : ℕ × ℕ) : Option Value × Option Value :=
  (some (g.value hit.1 (r.anchor g).column), some (.object (g.ofNode hit.2)))

/-- The columns of a row of the matches. -/
lemma told_rowOf (r : Relation) {key : Property} {hit : ℕ × ℕ} {env : Env} (params : Row)
    (h : Lookup.Finds g key (r.anchor g).column hit env) :
    r.tells g hit = Lookup.told (Item.rowOf I params g (r.lookupItems key) [env]) := by
  have hnames : ((r.lookupItems key).map fun item =>
      (item.column, (item.value.result I params g [env]).elim .null (·.toValue g))).map Prod.fst =
        r.lookupColumns := by
    rw [List.map_map, ← r.lookupItems_column key]
    rfl
  have hnodup := hnames ▸ r.lookupColumns_nodup
  have hentry (item : Item) (hitem : item ∈ r.lookupItems key) :=
    Fields.get?_ofList hnodup (List.mem_map_of_mem hitem)
  have hparent : (Item.rowOf I params g (r.lookupItems key) [env]).get? parentKeyColumn =
      some (env.value g key) :=
    hentry (.named (.property key) parentKeyColumn) (by simp [lookupItems])
  have hrelated : (Item.rowOf I params g (r.lookupItems key) [env]).get? relatedColumn =
      some (env.properties g relatedVariable) :=
    hentry (.named (.properties relatedVariable) relatedColumn) (by simp [lookupItems])
  have hproperties : env.properties g relatedVariable = .object (g.ofNode hit.2) := by
    simp [Env.properties, Env.isPresent, h.related, Cypher.Entity.properties]
  rw [Lookup.told, hparent, hrelated, h.key, hproperties, tells]

/-- The scope lets through the nodes that fulfil it. -/
lemma scope_holds (hplain : r.Plain) {keys : List Value} {scope : Option Expr} {b : Bindings}
    (h : (r.finalScope.filter.compile relatedVariable).on (keyBindings keys) = (.ok scope, b))
    {key : Property} {column : String} {hit : ℕ × ℕ} {env : Env}
    (hrow : Lookup.Finds g key column hit env) :
    decide (conditionTruth I g b.parameters scope env = .yes) =
      r.finalScope.filter.holds I g .empty hit.2 := by
  have hsees : Sees ∅ .empty relatedVariable hit.2 0 env :=
    sees_of_unbound hrow.related (by simp) hrow.unbound
  exact Filter.compile_truth (by simp) hplain.rawFree hplain.within h b.supplies_parameters hsees

/-- A lookup answers a row for each row of its matches, in the order of the relation. -/
lemma answer_lookupOf (r : Relation) (scope : Option Expr) (b : Bindings) :
    ((r.lookupOf scope b).statement.answer I g).Perm
      ((routeRows I g b.parameters (addCondition (r.route (Bindings.parameterName 0)).1 scope)
        .empty).map fun env =>
          Item.rowOf I b.parameters g (r.lookupItems (r.route (Bindings.parameterName 0)).2)
            [env]) := by
  let route := addCondition (r.route (Bindings.parameterName 0)).1 scope
  let items := r.lookupItems (r.route (Bindings.parameterName 0)).2
  let rows := routeRows I g b.parameters route .empty
  obtain ⟨sorted, hperm, hsorted⟩ := runSteps_sortStep I relatedVariable r.finalScope.orders
    b.parameters g rows (answersOf I b.parameters g false items rows)
  have hcolumns : (items.map Item.column).Nodup :=
    (r.lookupItems_column _).symm ▸ r.lookupColumns_nodup
  have hrun : (r.lookupOf scope b).statement.run I g = some ⟨g, rows, some sorted⟩ := by
    have hfound : runSteps I b.parameters (route.map .find) ⟨g, [.empty], none⟩ =
        some ⟨g, rows, none⟩ := by
      rw [Cypher.runSteps_find, List.flatMap_singleton]
    change runSteps I b.parameters (route.map .find ++ [.project false items] ++ _) _ = _
    rw [Cypher.runSteps_append, Cypher.runSteps_append, hfound, Option.bind_some,
      Cypher.runSteps_cons, Step.run, if_pos hcolumns]
    exact hsorted
  have hanswers : (answersOf I b.parameters g false items rows).map (·.row) =
      rows.map fun env => Item.rowOf I b.parameters g items [env] := by
    rw [answersOf, Cypher.rowGroups_of_no_aggregate (r.lookupItems_isAggregate _)]
    simp only [Bool.false_eq_true, if_false, List.map_map]
    rfl
  have hsame : (r.lookupOf scope b).statement.answer I g = sorted.map (·.row) := by
    rw [Statement.answer, Statement.answers, hrun]
    rfl
  rw [hsame]
  exact hanswers ▸ hperm.map _

/-- **Lookups answer what keys lead to**: the rows of a lookup tell of the nodes that have one of the
keys, each with the nodes that it leads to and that the scope allows, once for each path. -/
theorem lookup_answer (hI : I.EqualsJson) (hpivots : r.HasPivots) (hplain : r.Plain)
    {keys : List Value} {l : Lookup} (h : r.lookup keys = .ok l) :
    ((l.statement.answer I g).map Lookup.told).Perm
      ((((r.anchor g).hits g (Value.distinctKeys keys)).filter fun hit =>
        r.finalScope.filter.holds I g .empty hit.2).map (r.tells g)) := by
  rw [lookup_eq] at h
  rcases hc : (r.finalScope.filter.compile relatedVariable).on (keyBindings keys) with ⟨e | scope, b⟩
  · simp [hc] at h
  simp only [hc, Except.ok.injEq] at h
  subst h
  obtain ⟨hne, htests⟩ := r.route_tests hpivots (Bindings.parameterName 0)
  have hadds := r.finalScope.filter.compile_adds (I := I) (g := g) relatedVariable (keyBindings keys)
  have hgrows := (hadds.of_eq_ok hc).1
  have hkeys : parameterValue b.parameters (Bindings.parameterName 0) =
      .array (Value.distinctKeys keys) :=
    parameterValue_bind (b := {}) (b.supplies_parameters.mono hgrows)
  have hroute := r.route_rows (g := g) hI hpivots hplain.keys hkeys
  have hfound := List.rel_filter (p := fun hit => r.finalScope.filter.holds I g .empty hit.2)
    (q := fun env => conditionTruth I g b.parameters scope env = .yes)
    (fun hit env hrow => by dsimp only; rw [scope_holds hplain hc hrow]) hroute
  rw [← Cypher.routeRows_addCondition hne htests] at hfound
  have htold := List.forall₂_map_right_iff.mpr (List.forall₂_map_left_iff.mpr
    (hfound.imp fun hit env hrow => r.told_rowOf (I := I) b.parameters hrow))
  rw [List.forall₂_eq_eq_eq] at htold
  have hanswer := (r.answer_lookupOf (I := I) (g := g) scope b).map Lookup.told
  rw [List.map_map] at hanswer
  rw [htold]
  exact hanswer

end Relation

end GraphMapper
