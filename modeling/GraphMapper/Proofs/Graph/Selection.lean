import GraphMapper.Proofs.Graph.Compiled
import GraphMapper.Proofs.Graph.Statement
import GraphMapper.Selection.Statement

/-!
The nodes that a selection speaks of, and what its writes do to them.

* `Selection.matched`: the nodes of the label that the written condition is true of;
* `Selection.selected`: the nodes behind the rows that the selection answers;
* `Selection.update_run`, `Selection.delete_run`: a write touches the nodes that are matched;
* `Selection.mem_selected_iff`: without a window these are the nodes that are selected;
* `Selection.writes_touch_selected` (**writes touch what is selected**): the two together;
  `Selection.delete_beyond_window`: a window is heeded by reads and not by writes.
-/

namespace GraphMapper

open Cypher (Answer Env Expr Graph Interpretation Item Match State Statement Truth answersOf
  assignProperties conditionTruth conditionsOperands rowGroups runSteps)

variable {I : Interpretation} {g : Graph}

lemma Compiling.statement_eq (columns : List String) (c : Compiling (List Cypher.Step)) :
    c.statement columns = c.start.map fun (steps, b) =>
      { steps, parameters := b.parameters, columns } := by
  rw [Compiling.statement]
  rcases c.start with e | ⟨steps, b⟩ <;> rfl

/-- Sorting an answer keeps its rows. -/
lemma runSteps_sortStep (I : Interpretation) (binder : String) (orders : List OrderBy) (params : Row)
    (g : Graph) (rows : List Env) (answers : List Answer) :
    ∃ sorted, sorted.Perm answers ∧
      runSteps I params (sortStep binder orders) ⟨g, rows, some answers⟩ =
        some ⟨g, rows, some sorted⟩ := by
  rw [sortStep]
  split_ifs
  · exact ⟨answers, .refl _, rfl⟩
  · exact ⟨_, List.mergeSort_perm _ _, rfl⟩

namespace Selection

/-! ### Statements of a selection -/

/-- What is written of the filter, and what is bound by it. -/
def compiled (s : Selection) : Except CompileError (Option Expr × Bindings) :=
  (s.filter.compile s.binder).start

/-- The match that all statements of the selection begin with. -/
def foundMatch (s : Selection) (r : Option Expr) : Match Expr :=
  ⟨.node ⟨s.binder, some s.label⟩, r.toList⟩

lemma start_found_bind {α : Type} (s : Selection) (rest : Cypher.Step → Compiling α) :
    (s.found >>= rest).start = s.compiled.bind fun (r, b) =>
      match (rest (.find (s.foundMatch r))).on b with
      | (.ok a, after) => .ok (a, after)
      | (.error e, _) => .error e := by
  rw [Compiling.start_eq, found, compiled, Compiling.start_eq, Compiling.on_bind, Compiling.on_bind]
  rcases (s.filter.compile s.binder).on {} with ⟨e | r, b⟩ <;> rfl

lemma select_eq (s : Selection) :
    s.select = s.compiled.map fun (r, b) =>
      { steps := [.find (s.foundMatch r), .project s.distinct s.items] ++
          sortStep s.binder s.orders ++ windowSteps s.limit s.offset
        parameters := b.parameters
        columns := s.itemNames } := by
  rw [select, Compiling.statement_eq, start_found_bind]
  rcases s.compiled with e | ⟨r, b⟩ <;> rfl

lemma update_eq (s : Selection) (values : Row) :
    s.update values = s.compiled.map fun (r, b) =>
      { steps := [.find (s.foundMatch r),
          .set [.extend s.binder (Bindings.parameterName b.values.length)],
          .project false [.named (.count s.binder) affectedColumn]]
        parameters := (Compiling.bind (.object values) b).2.parameters
        columns := [affectedColumn] } := by
  rw [update, Compiling.statement_eq, start_found_bind]
  rcases s.compiled with e | ⟨r, b⟩ <;> rfl

lemma delete_eq (s : Selection) :
    s.delete = s.compiled.map fun (r, b) =>
      { steps := [.find (s.foundMatch r),
          .carry [⟨.bound s.binder, none⟩, .named (.properties s.binder) "props"],
          .detachDelete s.binder,
          .project false [.named (.count "props") affectedColumn]]
        parameters := b.parameters
        columns := [affectedColumn] } := by
  rw [delete, Compiling.statement_eq, start_found_bind]
  rcases s.compiled with e | ⟨r, b⟩ <;> rfl

/-! ### Nodes that are matched -/

/-- The nodes of the label that the condition written for the filter is true of. -/
def matched (I : Interpretation) (g : Graph) (s : Selection) : List ℕ :=
  match s.compiled with
  | .ok (r, b) =>
    (g.labelled s.label).filter fun i =>
      conditionTruth I g b.parameters r (nodeRow s.binder i) = .yes
  | .error _ => []

lemma matched_of_compiled {s : Selection} {r : Option Expr} {b : Bindings}
    (h : s.compiled = .ok (r, b)) :
    s.matched I g = (g.labelled s.label).filter fun i =>
      conditionTruth I g b.parameters r (nodeRow s.binder i) = .yes := by
  rw [matched, h]

lemma matched_nodup (s : Selection) : (s.matched I g).Nodup := by
  rw [matched]
  split
  · exact (g.labelled_nodup _).filter _
  · exact List.nodup_nil

lemma on_of_compiled {s : Selection} {r : Option Expr} {b : Bindings}
    (h : s.compiled = .ok (r, b)) : (s.filter.compile s.binder).on {} = (.ok r, b) := by
  rw [compiled, Compiling.start_eq] at h
  rcases hc : (s.filter.compile s.binder).on {} with ⟨e | r', b'⟩
  · simp [hc] at h
  · simpa [hc] using h

/-- The rows of the match are those of the nodes that are matched, whatever is bound besides. -/
lemma rows_found {s : Selection} {r : Option Expr} {b : Bindings} (h : s.compiled = .ok (r, b))
    {params : Row} (hs : b.Supplies params) :
    (s.foundMatch r).rows I g params .empty = (s.matched I g).map (nodeRow s.binder) := by
  have hsettled := ((s.filter.compile_adds (I := I) (g := g) s.binder {}).of_eq_ok
    (on_of_compiled h)).2
  rw [foundMatch, Cypher.Match.rows_node rfl, matched_of_compiled h]
  refine congrArg (List.map _) (List.filter_congr fun i _ => ?_)
  cases r with
  | none => rfl
  | some e =>
      rw [Option.toList_some, conditionsOperands, conditionsOperands, Truth.joinedBy, List.append_nil,
        hsettled e rfl hs b.supplies_parameters, conditionTruth, Option.elim_some, Expr.truth]
      rfl

/-! ### Writes -/

lemma nodeRow_isPresent (binder : String) (i : ℕ) : (nodeRow binder i).isPresent binder := by
  simp [nodeRow, Env.isPresent]

lemma node?_nodeRow (binder : String) (i : ℕ) : (nodeRow binder i).node? binder = some i := by
  simp [nodeRow, Env.node?]

/-- Properties added row by row are added to the nodes of the rows. -/
lemma foldl_extend {ids : List ℕ} (h : ids.Nodup) (binder name : String) (params : Row)
    (g : Graph) :
    (ids.map (nodeRow binder)).foldl (fun g env =>
      [Cypher.Change.extend binder name].foldl (fun g change => change.apply I params g env) g) g =
      g.extended ids (Cypher.parameterRow params name) := by
  induction ids generalizing g with
  | nil => simp [Graph.extended]
  | cons i rest ih =>
      obtain ⟨hi, hrest⟩ := List.nodup_cons.mp h
      rw [List.map_cons, List.foldl_cons, ih hrest]
      simp only [List.foldl_cons, List.foldl_nil, Cypher.Change.apply, nodeRow, Env.set_self,
        Option.elim_some, Graph.change, Graph.extended]
      congr 1
      funext j
      by_cases hj : j = i
      · subst hj
        simp [hi]
      · simp [hj]

lemma countP_present (ids : List ℕ) (binder : String) :
    (ids.map (nodeRow binder)).countP (·.isPresent binder) = ids.length := by
  rw [List.countP_map]
  exact List.countP_eq_length.mpr fun i _ => nodeRow_isPresent binder i

/-- The row that tells how many nodes a write touched. -/
def affectedRow (count : ℕ) : Row :=
  [(affectedColumn, .int count)]

/-- An update extends the nodes that are matched, and tells their number. -/
theorem update_run {s : Selection} {r : Option Expr} {b : Bindings} (h : s.compiled = .ok (r, b))
    (values : Row) :
    ∃ u, s.update values = .ok u ∧ ∃ rows, u.run I g =
      some ⟨g.extended (s.matched I g) values, rows,
        some [⟨rows, affectedRow (s.matched I g).length⟩]⟩ := by
  refine ⟨_, by rw [update_eq, h]; rfl, (s.matched I g).map (nodeRow s.binder), ?_⟩
  have hs := (Compiling.bind (.object values) b).2.supplies_parameters.mono (Compiling.bind_grows _ b)
  have hvalues : Cypher.parameterRow (Compiling.bind (.object values) b).2.parameters
      (Bindings.parameterName b.values.length) = values := by
    rw [Cypher.parameterRow, parameterValue_bind (Bindings.supplies_parameters _)]
  simp only [Statement.run, Cypher.runSteps_cons, Cypher.Step.run, Option.bind_some,
    List.flatMap_singleton, rows_found h hs, foldl_extend (s.matched_nodup (I := I) (g := g)),
    hvalues, Cypher.answersOf_count, countP_present]
  rfl

/-- The columns that a delete passes on: the node, and its properties as long as there is one. -/
def carriedItems (binder : String) : List Item :=
  [⟨.bound binder, none⟩, .named (.properties binder) "props"]

/-- The row of a node that a delete passes on. -/
def carriedRow (I : Interpretation) (params : Row) (g : Graph) (binder : String) (i : ℕ) : Env :=
  Item.envOf I params g (carriedItems binder) [nodeRow binder i]

lemma carriedRow_binder (params : Row) (binder : String) (i : ℕ) :
    carriedRow I params g binder i binder = some (.node i) := by
  simp [carriedRow, Item.envOf, carriedItems, Item.column, Cypher.Projection.text,
    Cypher.Projection.result, nodeRow]

lemma carriedRow_props (params : Row) {binder : String} (h : binder ≠ "props") (i : ℕ) :
    carriedRow I params g binder i "props" = some (.value (.object (g.ofNode i))) := by
  simp [carriedRow, Item.envOf, carriedItems, Item.column, Cypher.Projection.text,
    Cypher.Projection.result, Item.named, Env.properties, nodeRow_isPresent, h]
  simp [nodeRow, Cypher.Entity.properties]

/-- A delete takes away the nodes that are matched with their edges, and tells their number. -/
theorem delete_run {s : Selection} {r : Option Expr} {b : Bindings} (h : s.compiled = .ok (r, b))
    (hprops : s.binder ≠ "props") :
    ∃ d, s.delete = .ok d ∧ ∃ rows, d.run I g =
      some ⟨g.withoutNodes (s.matched I g), rows,
        some [⟨rows, affectedRow (s.matched I g).length⟩]⟩ := by
  let rows := (s.matched I g).map (carriedRow I b.parameters g s.binder)
  refine ⟨_, by rw [delete_eq, h]; rfl, rows, ?_⟩
  have hcolumns : ((carriedItems s.binder).map Item.column).Nodup := by
    simpa [carriedItems, Item.column, Cypher.Projection.text, Item.named] using hprops
  have hcarried : (rowGroups I b.parameters g (carriedItems s.binder)
      ((s.matched I g).map (nodeRow s.binder))).map
        (Item.envOf I b.parameters g (carriedItems s.binder)) = rows := by
    rw [Cypher.rowGroups_of_no_aggregate (by
      simp [carriedItems, Item.named, Cypher.Projection.isAggregate]), List.map_map, List.map_map]
    rfl
  have hnodes : rows.filterMap (·.node? s.binder) = s.matched I g := by
    rw [List.filterMap_map]
    exact (List.filterMap_congr fun i _ => by
      simp [Env.node?, carriedRow_binder]).trans List.filterMap_some
  have hedges : rows.filterMap (·.edge? s.binder) = [] := by
    rw [List.filterMap_map]
    exact List.filterMap_eq_nil_iff.mpr fun i _ => by simp [Env.edge?, carriedRow_binder]
  have hcount : rows.countP (·.isPresent "props") = (s.matched I g).length := by
    rw [List.countP_map]
    exact List.countP_eq_length.mpr fun i _ => by
      simp [Env.isPresent, carriedRow_props _ hprops]
  change runSteps I b.parameters [.find _, .carry (carriedItems s.binder), _, _] _ = _
  simp only [Cypher.runSteps_cons, Cypher.Step.run, Option.bind_some,
    List.flatMap_singleton, rows_found h b.supplies_parameters, if_pos hcolumns, hcarried, hedges,
    hnodes, Graph.withoutEdges_nil, Cypher.answersOf_count, hcount]
  rfl

/-! ### Nodes that are selected -/

/-- The nodes behind the rows that the selection answers. -/
def selected (I : Interpretation) (g : Graph) (s : Selection) : List ℕ :=
  match s.select with
  | .ok q => (q.answers I g).flatMap fun answer => answer.sources.filterMap (·.node? s.binder)
  | .error _ => []

lemma items_column (s : Selection) : s.items.map Item.column = s.itemNames := by
  rw [items, itemNames]
  split_ifs
  · rfl
  · rw [List.map_map]
    exact List.map_congr_left fun column _ => rfl

lemma items_isAggregate (s : Selection) : ∀ item ∈ s.items, item.value.isAggregate = false := by
  intro item hitem
  rw [items] at hitem
  split_ifs at hitem
  · rw [List.mem_singleton.mp hitem]
    rfl
  · obtain ⟨column, _, rfl⟩ := List.mem_map.mp hitem
    rfl

/-- Without a window the nodes that are selected are those that are matched, in whatever order and
with whatever columns. -/
theorem mem_selected_iff {s : Selection} (hwindow : windowSteps s.limit s.offset = [])
    (hnames : s.itemNames.Nodup) {i : ℕ} : i ∈ s.selected I g ↔ i ∈ s.matched I g := by
  rw [selected, select_eq]
  cases h : s.compiled with
  | error e => simp [matched, h, Except.map]
  | ok c =>
      obtain ⟨r, b⟩ := c
      let rows := (s.matched I g).map (nodeRow s.binder)
      obtain ⟨sorted, hperm, hsorted⟩ := runSteps_sortStep I s.binder s.orders b.parameters g rows
        (answersOf I b.parameters g s.distinct s.items rows)
      have hrun : Statement.answers I g
          { steps := [.find (s.foundMatch r), .project s.distinct s.items] ++
              sortStep s.binder s.orders ++ windowSteps s.limit s.offset
            parameters := b.parameters
            columns := s.itemNames } = sorted := by
        rw [Statement.answers, Statement.run, hwindow, List.append_nil]
        simp only [List.cons_append, List.nil_append, Cypher.runSteps_cons, Cypher.Step.run,
          Option.bind_some, List.flatMap_singleton, rows_found h b.supplies_parameters, items_column,
          if_pos hnames]
        rw [hsorted]
        rfl
      have hsource (env : Env) : (∃ answer ∈ sorted, env ∈ answer.sources) ↔ env ∈ rows := by
        simp only [hperm.mem_iff]
        exact Cypher.mem_sources_answersOf s.items_isAggregate
      change i ∈ (Statement.answers I g _).flatMap _ ↔ _
      rw [hrun, List.mem_flatMap]
      constructor
      · rintro ⟨answer, hanswer, hi⟩
        obtain ⟨env, henv, hnode⟩ := List.mem_filterMap.mp hi
        obtain ⟨j, hj, rfl⟩ := List.mem_map.mp ((hsource env).mp ⟨answer, hanswer, henv⟩)
        rw [node?_nodeRow] at hnode
        exact Option.some.inj hnode ▸ hj
      · intro hi
        obtain ⟨answer, hanswer, henv⟩ := (hsource (nodeRow s.binder i)).mpr
          (List.mem_map_of_mem hi)
        exact ⟨answer, hanswer, List.mem_filterMap.mpr ⟨_, henv, node?_nodeRow _ _⟩⟩

/-- The number of nodes that are selected. -/
lemma card_selected {s : Selection} (hwindow : windowSteps s.limit s.offset = [])
    (hnames : s.itemNames.Nodup) :
    (s.selected I g).toFinset.card = (s.matched I g).length := by
  rw [← List.toFinset_card_of_nodup (s.matched_nodup (I := I) (g := g))]
  refine congrArg Finset.card (Finset.ext fun i => ?_)
  rw [List.mem_toFinset, List.mem_toFinset, mem_selected_iff hwindow hnames]

/-- **Writes touch what is selected**: without a window, an update extends the properties of just the
nodes that the selection answers, a delete takes away just these nodes with their edges, and both
tell how many they are. -/
theorem writes_touch_selected {s : Selection} (hwindow : windowSteps s.limit s.offset = [])
    (hnames : s.itemNames.Nodup) (hprops : s.binder ≠ "props") {q : Statement}
    (hq : s.select = .ok q) (values : Row) :
    ∃ u d, s.update values = .ok u ∧ s.delete = .ok d ∧
      u.after I g = g.extended (s.selected I g) values ∧
      u.answer I g = [affectedRow (s.selected I g).toFinset.card] ∧
      d.after I g = g.withoutNodes (s.selected I g) ∧
      d.answer I g = [affectedRow (s.selected I g).toFinset.card] := by
  cases h : s.compiled with
  | error e => simp [select_eq, h, Except.map] at hq
  | ok c =>
      obtain ⟨r, b⟩ := c
      obtain ⟨u, hu, rows, hurun⟩ := update_run (I := I) (g := g) h values
      obtain ⟨d, hd, rows', hdrun⟩ := delete_run (I := I) (g := g) h hprops
      have hextended : g.extended (s.matched I g) values = g.extended (s.selected I g) values := by
        simp only [Graph.extended, mem_selected_iff hwindow hnames]
      have hwithout : g.withoutNodes (s.matched I g) = g.withoutNodes (s.selected I g) := by
        simp only [Graph.withoutNodes, mem_selected_iff hwindow hnames]
      refine ⟨u, d, hu, hd, ?_, ?_, ?_, ?_⟩
      · rw [Statement.after, hurun, ← hextended]
        rfl
      · rw [Statement.answer, Statement.answers, hurun, card_selected hwindow hnames]
        rfl
      · rw [Statement.after, hdrun, ← hwithout]
        rfl
      · rw [Statement.answer, Statement.answers, hdrun, card_selected hwindow hnames]
        rfl

/-- Two users. -/
def twoUsers : Graph :=
  .ofNodes [("User", [("id", .int 1)]), ("User", [("id", .int 2)])]

theorem writes_touch_selected_second :
    let s := (Selection.of "User").and (.equals "id" (.int 2))
    s.selected .json twoUsers = [1] ∧
      ∃ u d, s.update [("seen", .bool true)] = .ok u ∧ s.delete = .ok d ∧
        u.after .json twoUsers = twoUsers.extended (s.selected .json twoUsers)
          [("seen", .bool true)] ∧
        u.answer .json twoUsers = [affectedRow (s.selected .json twoUsers).toFinset.card] ∧
        d.after .json twoUsers = twoUsers.withoutNodes (s.selected .json twoUsers) ∧
        d.answer .json twoUsers = [affectedRow (s.selected .json twoUsers).toFinset.card] :=
  ⟨by decide, writes_touch_selected (by decide) (by decide) (by decide) rfl _⟩

/-- A delete of the first user found takes both away: writes do not heed the window. -/
theorem delete_beyond_window :
    ¬ ∀ (s : Selection) (d : Statement), s.delete = .ok d →
      ∀ i ∈ twoUsers.nodes,
        i ∉ (d.after .json twoUsers).nodes ↔ i ∈ s.selected .json twoUsers := by
  intro h
  have h1 := h ((Selection.of "User").take 1) _ rfl 1 (by decide)
  exact absurd h1 (by decide)

end Selection

end GraphMapper
