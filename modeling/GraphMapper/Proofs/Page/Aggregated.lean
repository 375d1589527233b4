import GraphMapper.Aggregate.Evaluate
import GraphMapper.Client.Query
import GraphMapper.Proofs.Page.Total

/-!
What an aggregate is computed over.

* `Selection.arranged`: nodes in the order of a selection, cut to its window;
* `Selection.KeepsRows.selected_arranged`, `Selection.KeepsRows.records_eq`: the nodes that a select
  answers, and their records;
* `Aggregate.statement_run`: the nodes that an aggregate is computed over; orders are heeded by lists
  alone;
* `Aggregate.computed_over_selected` (**an aggregate is computed over what is selected**): it is, and the
  engine's answer is that of the records, unless an order decides what is in the window;
  `Aggregate.window_unordered`: if it does, other nodes may be aggregated.
-/

namespace GraphMapper

open Cypher (Answer Env Expr Graph Interpretation Item Property State Statement Step Term answersOf
  mayPrecede runSteps)

variable {I : Interpretation} {g : Graph} {params : Row}

/-! ### Order and window of nodes -/

lemma windowed_map {α β : Type} (f : α → β) (limit offset : Option ℕ) (items : List α) :
    windowed limit offset (items.map f) = (windowed limit offset items).map f := by
  cases limit <;> simp [windowed]

lemma windowed_nil {α : Type} (limit offset : Option ℕ) (h : windowSteps limit offset = [])
    (items : List α) : windowed limit offset items = items := by
  rcases offset with _ | _ | count <;> cases limit <;> simp [windowSteps, windowed] at h ⊢

lemma mergeSort_pair {α : Type} {le : α → α → Bool} {a b : α} (h : le a b = false) :
    [a, b].mergeSort le = [b, a] := by
  simp [List.mergeSort, h]

namespace Selection

/-- Nodes in an order, cut to the window of the selection. -/
def arranged (I : Interpretation) (g : Graph) (s : Selection) (orders : List OrderBy)
    (nodes : List ℕ) : List ℕ :=
  windowed s.limit s.offset (nodes.mergeSort fun i j =>
    mayPrecede I g (sortKeys s.binder orders) (nodeRow s.binder i) (nodeRow s.binder j))

lemma arranged_unordered (s : Selection) (nodes : List ℕ) :
    s.arranged I g [] nodes = windowed s.limit s.offset nodes :=
  congrArg (windowed _ _) (List.mergeSort_of_pairwise (List.pairwise_of_forall fun _ _ => rfl))

lemma runSteps_arranged (s : Selection) (orders : List OrderBy) (nodes : List ℕ) :
    runSteps I params (sortStep s.binder orders ++ windowSteps s.limit s.offset)
        ⟨g, nodes.map (nodeRow s.binder), none⟩ =
      some ⟨g, (s.arranged I g orders nodes).map (nodeRow s.binder), none⟩ := by
  have hsort : runSteps I params (sortStep s.binder orders) ⟨g, nodes.map (nodeRow s.binder), none⟩ =
      some ⟨g, (nodes.mergeSort fun i j => mayPrecede I g (sortKeys s.binder orders)
        (nodeRow s.binder i) (nodeRow s.binder j)).map (nodeRow s.binder), none⟩ := by
    have hrows : (nodes.map (nodeRow s.binder)).mergeSort (mayPrecede I g (sortKeys s.binder orders)) =
        (nodes.mergeSort fun i j => mayPrecede I g (sortKeys s.binder orders)
          (nodeRow s.binder i) (nodeRow s.binder j)).map (nodeRow s.binder) :=
      (List.map_mergeSort fun _ _ _ _ => by rfl).symm
    rw [← hrows]
    cases orders with
    | nil =>
        have hsame : (nodes.map (nodeRow s.binder)).mergeSort (mayPrecede I g []) =
            nodes.map (nodeRow s.binder) :=
          List.mergeSort_of_pairwise (List.pairwise_of_forall fun _ _ => rfl)
        exact congrArg (fun rows => some (State.mk g rows none)) hsame.symm
    | cons order rest => rfl
  rw [Cypher.runSteps_append, hsort, Option.bind_some, arranged, ← windowed_map]
  rcases s.offset with _ | _ | count <;> cases s.limit <;> rfl

lemma arranged_perm {s : Selection} (h : windowSteps s.limit s.offset = []) (orders : List OrderBy)
    (nodes : List ℕ) : (s.arranged I g orders nodes).Perm nodes := by
  rw [arranged, windowed_nil _ _ h]
  exact List.mergeSort_perm _ _

/-! ### Selected nodes and their records -/

/-- The nodes behind answers. -/
def nodesBehind (s : Selection) (answers : List Answer) : List ℕ :=
  answers.flatMap fun answer => answer.sources.filterMap (·.node? s.binder)

lemma nodesBehind_nodes (s : Selection) (nodes : List ℕ) :
    s.nodesBehind (nodes.map (s.nodeAnswer I g)) = nodes := by
  rw [nodesBehind, List.flatMap_map]
  simp [nodeAnswer, node?_nodeRow]

lemma nodesBehind_rows (s : Selection) (nodes : List ℕ) (row : Row) :
    s.nodesBehind [⟨nodes.map (nodeRow s.binder), row⟩] = nodes := by
  rw [nodesBehind, List.flatMap_singleton, List.filterMap_map]
  exact (List.filterMap_congr fun i _ => node?_nodeRow _ i).trans List.filterMap_some

end Selection

/-- Answers with different rows are all kept. -/
lemma Cypher.Answer.distinct_of_nodup {answers : List Answer} (h : (answers.map (·.row)).Nodup) :
    Answer.distinct answers = answers := by
  rw [Answer.distinct, List.dedup_eq_self.mpr h, List.map_map]
  refine (List.map_congr_left fun answer hanswer => ?_).trans (List.map_id _)
  have honly : answers.filter (·.row = answer.row) = [answer] := by
    obtain ⟨earlier, later, rfl⟩ := List.append_of_mem hanswer
    rw [List.map_append, List.map_cons, List.nodup_middle, ← List.map_append] at h
    have hother (other : Answer) (hm : other ∈ earlier ++ later) : ¬ other.row = answer.row :=
      fun he => (List.nodup_cons.mp h).1 (he ▸ List.mem_map_of_mem hm)
    rw [List.filter_append, List.filter_cons_of_pos (by simp),
      List.filter_eq_nil_iff.mpr fun a ha => by simpa using hother a (List.mem_append_left _ ha),
      List.filter_eq_nil_iff.mpr fun a ha => by simpa using hother a (List.mem_append_right _ ha)]
    rfl
  simp [honly]

namespace Selection

/-- Equal rows become one only if the selection is distinct and there are any. -/
def KeepsRows (I : Interpretation) (g : Graph) (s : Selection) : Prop :=
  s.distinct = false ∨ (s.projected I g).Nodup

variable {s : Selection} {q : Statement}

lemma KeepsRows.unsorted_eq (h : s.KeepsRows I g) :
    s.unsorted I g = (s.matched I g).map (s.nodeAnswer I g) := by
  rw [unsorted]
  rcases h with h | h
  · rw [h]
    rfl
  · rw [Cypher.Answer.distinct_of_nodup (by rwa [List.map_map]), ite_self]

/-- The nodes that a select answers, each with its row. -/
lemma KeepsRows.answers_eq (h : s.KeepsRows I g) (hq : s.select = .ok q) (hnames : s.itemNames.Nodup) :
    q.answers I g = (s.arranged I g s.orders (s.matched I g)).map (s.nodeAnswer I g) := by
  rw [answers_of_select hq hnames, h.unsorted_eq, arranged, ← windowed_map]
  exact congrArg (windowed _ _) (List.map_mergeSort fun _ _ _ _ => by rfl).symm

lemma selected_eq (hq : s.select = .ok q) : s.selected I g = s.nodesBehind (q.answers I g) := by
  rw [selected, hq]
  rfl

lemma KeepsRows.selected_arranged (h : s.KeepsRows I g) (hq : s.select = .ok q)
    (hnames : s.itemNames.Nodup) :
    s.selected I g = s.arranged I g s.orders (s.matched I g) := by
  rw [selected_eq hq, h.answers_eq hq hnames, nodesBehind_nodes]

/-- The record of a node that is selected: all its properties, or the columns asked for. -/
def nodeRecord (I : Interpretation) (g : Graph) (s : Selection) (i : ℕ) : Record :=
  .of s.label (if s.columns.isEmpty then g.ofNode i else (s.nodeAnswer I g i).row)

lemma get?_nodeAnswer (hnames : s.itemNames.Nodup) {item : Item} (hitem : item ∈ s.items) (i : ℕ) :
    Fields.get? (s.nodeAnswer I g i).row item.column =
      some ((item.value.result I [] g [nodeRow s.binder i]).elim .null (·.toValue g)) := by
  refine Fields.get?_ofList ?_ (List.mem_map.mpr ⟨item, hitem, rfl⟩)
  rw [List.map_map]
  exact (items_column s).symm ▸ hnames

lemma recordOf_nodeAnswer (hnames : s.itemNames.Nodup) (i : ℕ) :
    Client.recordOf s (s.nodeAnswer I g i).row = .ok (s.nodeRecord I g i) := by
  rw [Client.recordOf, nodeRecord]
  split_ifs with hwhole
  · have hitem : .named (.properties s.binder) s.binder ∈ s.items := by
      rw [items, if_pos hwhole]
      exact List.mem_singleton_self _
    have hrow : Fields.get? (s.nodeAnswer I g i).row s.binder = some (.object (g.ofNode i)) := by
      refine (get?_nodeAnswer hnames hitem i).trans ?_
      have hproperties : (nodeRow s.binder i).properties g s.binder = .object (g.ofNode i) := by
        rw [Env.properties, if_pos (nodeRow_isPresent _ _), nodeRow, Env.set_self]
        rfl
      exact congrArg some hproperties
    rw [Record.ofColumn, hrow]
  · rfl

/-- The records of what a select answers. -/
lemma KeepsRows.records_eq (h : s.KeepsRows I g) (hq : s.select = .ok q) (hnames : s.itemNames.Nodup) :
    (q.answer I g).mapM (Client.recordOf s) =
      .ok ((s.selected I g).map (s.nodeRecord I g)) := by
  rw [Statement.answer, h.selected_arranged hq hnames, h.answers_eq hq hnames, List.map_map,
    List.mapM_map]
  exact (congrArg (List.mapM · _) (funext (recordOf_nodeAnswer hnames))).trans List.mapM_pure

/-- A column that the rows of a selection hold under a name.  All columns together are only counted. -/
inductive Shows (s : Selection) : String → String → Prop where
  | all : Shows s allColumns allColumns
  | whole {column name : String} (h : s.columns.isEmpty) (hcolumn : column ≠ allColumns)
      (hname : name ≠ allColumns) (hp : Property.ofColumn s.binder column = ⟨s.binder, name⟩) :
      Shows s column name
  | asked {column : String} (h : column ∈ s.columns) (hcolumn : column ≠ allColumns)
      (hname : columnName column ≠ allColumns) : Shows s column (columnName column)

end Selection

/-! ### Statements of aggregates -/

namespace Aggregate

/-- The orders that an aggregate heeds. -/
def heeded (a : Aggregate) (orders : List OrderBy) : List OrderBy :=
  if a = .collect then orders else []

/-- The steps that arrange the nodes before they are aggregated. -/
def narrowing (a : Aggregate) (s : Selection) : List Step :=
  let order := sortStep s.binder (a.heeded s.orders)
  let window := windowSteps s.limit s.offset
  if order.isEmpty && window.isEmpty then []
  else .carry [⟨.bound s.binder, none⟩] :: order ++ window

/-- What an aggregate takes from each node. -/
def target (s : Selection) (column : String) : Term :=
  if column = allColumns then .bound s.binder else .property (Property.ofColumn s.binder column)

/-- The second argument of an aggregate, and what is bound with it. -/
def extra (a : Aggregate) (b : Bindings) : Option Term × Bindings :=
  match a.fraction? with
  | none => (none, b)
  | some fraction =>
    (some (.parameter (Bindings.parameterName b.values.length)),
      (Compiling.bind (.float fraction) b).2)

lemma sortStep_heeded (a : Aggregate) (binder : String) (orders : List OrderBy) :
    sortStep binder (a.heeded orders) = if a = .collect then sortStep binder orders else [] := by
  rw [heeded]
  split_ifs
  · rfl
  · rfl

lemma statement_eq (a : Aggregate) (s : Selection) (column : String) :
    a.statement s column = a.validate.bind fun _ => s.compiled.map fun (r, b) =>
      { steps := .find (s.foundMatch r) :: a.narrowing s ++
          [.project false [.named (.aggregate a.name (target s column) (a.extra b).1) aggregateColumn]]
        parameters := (a.extra b).2.parameters
        columns := [aggregateColumn] } := by
  rw [statement, ← sortStep_heeded]
  rcases a.validate with e | _
  · rfl
  · change Compiling.statement _ _ = _
    rw [Compiling.statement_eq, Selection.start_found_bind]
    rcases s.compiled with e | ⟨r, b⟩
    · rfl
    · simp only [extra, Except.bind, Except.map]
      cases a.fraction? with
      | none => rfl
      | some fraction => rfl

lemma extra_value (a : Aggregate) (b : Bindings) (env : Env) :
    (a.extra b).1.map (Term.value I g (a.extra b).2.parameters env) = a.fraction?.map .float := by
  rw [extra]
  cases a.fraction? with
  | none => rfl
  | some fraction =>
      exact congrArg some (parameterValue_bind (Bindings.supplies_parameters _))

lemma extra_supplies (a : Aggregate) (b : Bindings) : b.Supplies (a.extra b).2.parameters := by
  rw [extra]
  cases a.fraction? with
  | none => exact b.supplies_parameters
  | some fraction =>
      exact (Bindings.supplies_parameters _).mono (Compiling.bind_grows _ b)

/-- The node alone is passed on. -/
lemma carry_nodes (s : Selection) (nodes : List ℕ) :
    (Step.carry [⟨.bound s.binder, none⟩]).run I params ⟨g, nodes.map (nodeRow s.binder), none⟩ =
      some ⟨g, nodes.map (nodeRow s.binder), none⟩ := by
  have hrow (i : ℕ) :
      Item.envOf I params g [⟨.bound s.binder, none⟩] [nodeRow s.binder i] = nodeRow s.binder i := by
    funext name
    by_cases hname : name = s.binder
    · subst hname
      simp [Item.envOf, Item.column, Cypher.Projection.text, Cypher.Projection.result]
    · simp [Item.envOf, Item.column, Cypher.Projection.text, nodeRow, Env.set_of_ne hname,
        Ne.symm hname]
      rfl
  have hcolumn : ([⟨.bound s.binder, none⟩].map Item.column).Nodup := List.nodup_singleton _
  rw [Step.run, if_pos hcolumn,
    Cypher.rowGroups_of_no_aggregate (by simp [Cypher.Projection.isAggregate]), List.map_map,
    List.map_map]
  simp only [Function.comp_def, hrow]

lemma runSteps_narrowing (a : Aggregate) (s : Selection) (nodes : List ℕ) :
    runSteps I params (a.narrowing s) ⟨g, nodes.map (nodeRow s.binder), none⟩ =
      some ⟨g, (s.arranged I g (a.heeded s.orders) nodes).map (nodeRow s.binder), none⟩ := by
  have harranged : runSteps I params (sortStep s.binder (a.heeded s.orders) ++
      windowSteps s.limit s.offset) ⟨g, nodes.map (nodeRow s.binder), none⟩ = _ :=
    s.runSteps_arranged _ nodes
  rw [narrowing]
  split_ifs with hempty
  · obtain ⟨horder, hwindow⟩ : sortStep s.binder (a.heeded s.orders) = [] ∧
        windowSteps s.limit s.offset = [] := by simpa using hempty
    rwa [horder, hwindow] at harranged
  · rw [List.cons_append, Cypher.runSteps_cons, carry_nodes, Option.bind_some, harranged]

lemma answersOf_aggregate (function column : String) (t : Term) (x : Option Term)
    (rows : List Env) :
    answersOf I params g false [.named (.aggregate function t x) column] rows =
      [⟨rows, [(column, I.aggregate function (rows.map (t.value I g params))
        (x.map (Term.value I g params (rows.head?.getD .empty))))]⟩] := rfl

/-- **What an aggregate is computed over**: the nodes that are matched, cut to the window, and in order
for lists alone. -/
theorem statement_run {a : Aggregate} {s : Selection} {r : Option Expr} {b : Bindings}
    (hvalid : a.validate = .ok ()) (h : s.compiled = .ok (r, b)) (column : String) :
    ∃ p, a.statement s column = .ok p ∧
      let rows := (s.arranged I g (a.heeded s.orders) (s.matched I g)).map (nodeRow s.binder)
      p.answers I g = [⟨rows, [(aggregateColumn, I.aggregate a.name
        (rows.map ((target s column).value I g (a.extra b).2.parameters)) (a.fraction?.map .float))]⟩] := by
  refine ⟨_, by rw [statement_eq, hvalid, h]; rfl, ?_⟩
  intro rows
  rw [Statement.answers, Statement.run]
  simp only [List.cons_append, Cypher.runSteps_cons, Step.run, Option.bind_some,
    List.flatMap_singleton, Selection.rows_found h (a.extra_supplies b), Cypher.runSteps_append,
    runSteps_narrowing, answersOf_aggregate, extra_value]
  rfl

lemma statement_nodes {a : Aggregate} {s : Selection} {r : Option Expr} {b : Bindings}
    (hvalid : a.validate = .ok ()) (h : s.compiled = .ok (r, b)) {column : String} {p : Statement}
    (hp : a.statement s column = .ok p) :
    s.nodesBehind (p.answers I g) = s.arranged I g (a.heeded s.orders) (s.matched I g) := by
  obtain ⟨p', hp', hanswers⟩ := statement_run (I := I) (g := g) hvalid h column
  obtain rfl := Except.ok.inj (hp'.symm.trans hp)
  rw [hanswers, Selection.nodesBehind_rows]

/-! ### The records of a selection -/

lemma evaluate_count (values : List Value) :
    evaluate .count values = .ok (.int (values.filter (!·.isNull)).length) := rfl

lemma evaluateRows_of_ne {name : String} (h : name ≠ allColumns) (a : Aggregate) (rows : List Row) :
    a.evaluateRows rows name = a.evaluate (rows.map fun row => (row.get? name).getD .null) := by
  unfold evaluateRows
  rw [if_neg h]

/-- All columns together are counted. -/
lemma evaluateRows_all {a : Aggregate} {rows : List Row} {v : Value}
    (h : a.evaluateRows rows allColumns = .ok v) : a = .count ∧ v = .int rows.length := by
  cases a with
  | count => exact ⟨rfl, (Except.ok.inj h).symm⟩
  | _ => cases h

/-- What a record shows of a column is what an aggregate takes from the node. -/
lemma evaluate_of_evaluateRows {a : Aggregate} {s : Selection} {column name : String}
    (hnames : s.itemNames.Nodup) (hshows : s.Shows column name) (params : Row) {nodes : List ℕ}
    {v : Value}
    (h : a.evaluateRows (nodes.map fun i => (s.nodeRecord I g i).attributes) name = .ok v) :
    a.evaluate ((nodes.map (nodeRow s.binder)).map ((target s column).value I g params)) = .ok v := by
  have hasked (hcolumn : column ≠ allColumns) (hname : name ≠ allColumns)
      (hvalue : ∀ i, (Fields.get? (s.nodeRecord I g i).attributes name).getD .null =
        (nodeRow s.binder i).value g (Property.ofColumn s.binder column)) :
      a.evaluate ((nodes.map (nodeRow s.binder)).map ((target s column).value I g params)) =
        .ok v := by
    rw [evaluateRows_of_ne hname, List.map_map] at h
    rw [target, if_neg hcolumn, List.map_map, ← h]
    exact congrArg a.evaluate (List.map_congr_left fun i _ => (hvalue i).symm)
  cases hshows with
  | all =>
      obtain ⟨rfl, rfl⟩ := evaluateRows_all h
      have hvalues : (nodes.map (nodeRow s.binder)).map ((target s allColumns).value I g params) =
          nodes.map fun i => .object (g.ofNode i) := by
        rw [target, if_pos rfl, List.map_map]
        refine List.map_congr_left fun i _ => ?_
        simp [Term.value, nodeRow, Cypher.Entity.toValue, Cypher.Entity.properties]
      have hpresent : (nodes.map fun i => Value.object (g.ofNode i)).filter (!·.isNull) =
          nodes.map fun i => .object (g.ofNode i) :=
        List.filter_eq_self.mpr (List.forall_mem_map.mpr fun _ _ => rfl)
      rw [hvalues, evaluate_count, hpresent, List.length_map, List.length_map]
  | whole hwhole hcolumn hname hp =>
      refine hasked hcolumn hname fun i => ?_
      rw [Selection.nodeRecord, if_pos hwhole, hp]
      have hnode : nodeRow s.binder i s.binder = some (.node i) := Env.set_self _ _ _
      rw [Env.value_of_node hnode]
      rfl
  | asked hmem hcolumn hname =>
      have hsome : ¬ s.columns.isEmpty := fun he => by
        rw [List.isEmpty_iff.mp he] at hmem
        exact absurd hmem List.not_mem_nil
      have hitem : (⟨.property (Property.ofColumn s.binder column),
          some (.quoted (columnName column))⟩ : Item) ∈ s.items := by
        rw [Selection.items, if_neg hsome]
        exact List.mem_map_of_mem hmem
      refine hasked hcolumn hname fun i => ?_
      rw [Selection.nodeRecord, if_neg hsome]
      exact congrArg (Option.getD · _) (Selection.get?_nodeAnswer hnames hitem i)

end Aggregate

/-- The engine computes an aggregate as it is evaluated at hand; it may answer null if there is nothing
to aggregate. -/
def Cypher.Interpretation.Computes (I : Interpretation) (a : Aggregate) : Prop :=
  ∀ values v, a.evaluate values = .ok v →
    a.finalize (some (I.aggregate a.name values (a.fraction?.map .float))) = v

namespace Aggregate

/-- **An aggregate is computed over what is selected**: if a selection keeps equal rows, and either the
aggregate is a list or there is no order or no window, then the aggregate can be written whenever its
fraction is valid, it is computed over just the nodes that the select answers, and what the engine
answers is what the records of the selection give, in their order if it is heeded. -/
theorem computed_over_selected {s : Selection} {q : Statement} (hq : s.select = .ok q)
    (hnames : s.itemNames.Nodup) (hrows : s.KeepsRows I g) {a : Aggregate}
    (hvalid : a.validate = .ok ())
    (horder : a = .collect ∨ s.orders = [] ∨ windowSteps s.limit s.offset = []) (column : String) :
    ∃ p records rows, a.statement s column = .ok p ∧
      (s.nodesBehind (p.answers I g)).Perm (s.selected I g) ∧
      (q.answer I g).mapM (Client.recordOf s) = .ok records ∧
      rows.Perm (records.map (·.attributes)) ∧
      (a = .collect ∨ s.orders = [] → s.nodesBehind (p.answers I g) = s.selected I g ∧
        rows = records.map (·.attributes)) ∧
      ∀ name v, s.Shows column name → I.Computes a → a.evaluateRows rows name = .ok v →
        a.finalize (Client.firstIn (p.answer I g) aggregateColumn) = v := by
  obtain ⟨r, b, hc⟩ := Selection.compiled_of_select hq
  obtain ⟨p, hp, hanswers⟩ := statement_run (I := I) (g := g) hvalid hc column
  have hselected := hrows.selected_arranged hq hnames
  have hnodes := statement_nodes (I := I) (g := g) hvalid hc hp
  have hsame (h : a = .collect ∨ s.orders = []) : a.heeded s.orders = s.orders := by
    rw [heeded]
    rcases h with h | h
    · rw [if_pos h]
    · rw [h, ite_self]
  have hperm : (s.nodesBehind (p.answers I g)).Perm (s.selected I g) := by
    rw [hnodes, hselected]
    rcases horder with h | h | h
    · rw [hsame (.inl h)]
    · rw [hsame (.inr h)]
    · exact (Selection.arranged_perm h _ _).trans (Selection.arranged_perm h _ _).symm
  refine ⟨p, (s.selected I g).map (s.nodeRecord I g),
    (s.nodesBehind (p.answers I g)).map fun i => (s.nodeRecord I g i).attributes, hp, hperm,
    hrows.records_eq hq hnames, ?_, ?_, ?_⟩
  · rw [List.map_map]
    exact hperm.map _
  · intro h
    have heq : s.nodesBehind (p.answers I g) = s.selected I g := by
      rw [hnodes, hselected, hsame h]
    exact ⟨heq, by rw [heq, List.map_map]; rfl⟩
  · intro name v hshows hcomputes hv
    have hvalue := hcomputes _ _ (evaluate_of_evaluateRows hnames hshows (a.extra b).2.parameters hv)
    rw [hnodes] at hvalue
    rw [Statement.answer, hanswers]
    exact hvalue

/-- An engine that can make lists. -/
def listing : Interpretation :=
  { Interpretation.json with aggregate := fun function values _ =>
      if function = "collect" then .array (values.filter (!·.isNull)) else .null }

/-- The last of the users. -/
def lastUser : Selection :=
  { Selection.of "User" with orders := [⟨"id", .descending⟩], limit := some 1 }

theorem computed_over_selected_last :
    ∃ q p records, lastUser.select = .ok q ∧ statement .collect lastUser "id" = .ok p ∧
      (q.answer listing Selection.namesakes).mapM (Client.recordOf lastUser) = .ok records ∧
      finalize .collect
          (Client.firstIn (p.answer listing Selection.namesakes) aggregateColumn) =
        .array ((records.map fun r => (r.attributes.get? "id").getD .null).filter (!·.isNull)) := by
  obtain ⟨p, records, rows, hp, -, hrecords, -, hsame, hvalue⟩ :=
    computed_over_selected (I := listing) (g := Selection.namesakes) (s := lastUser) rfl (by decide)
      (.inl rfl) (a := .collect) rfl (.inl rfl) "id"
  obtain ⟨-, rfl⟩ := hsame (.inl rfl)
  refine ⟨_, p, records, rfl, hp, hrecords, hvalue "id" _ ?_ ?_ ?_⟩
  · exact .whole rfl (by decide) (by decide) rfl
  · rintro values v ⟨⟩
    rfl
  · rw [evaluateRows_of_ne (by decide), List.map_map]
    rfl

/-- A maximum over the last of the users is computed over the first: the window holds another node
without the order. -/
theorem window_unordered :
    ¬ ∀ (a : Aggregate) (s : Selection) (p : Statement) (column : String), s.distinct = false →
      a.statement s column = .ok p →
      (s.nodesBehind (p.answers .json Selection.namesakes)).Perm
        (s.selected .json Selection.namesakes) := by
  intro h
  have hmatched : lastUser.matched .json Selection.namesakes = [0, 1] := by decide
  have hfirst : lastUser.arranged .json Selection.namesakes [] [0, 1] = [0] := by
    rw [Selection.arranged_unordered]
    rfl
  have hlast : lastUser.arranged .json Selection.namesakes lastUser.orders [0, 1] = [1] := by
    rw [Selection.arranged, mergeSort_pair (by decide)]
    rfl
  have hp : statement .max lastUser "id" = .ok _ := rfl
  have hnodes := h .max lastUser _ "id" rfl hp
  rw [statement_nodes rfl rfl hp, Selection.KeepsRows.selected_arranged (.inl rfl) rfl (by decide),
    hmatched, hlast] at hnodes
  exact absurd (hfirst ▸ hnodes) (by decide)

end Aggregate

end GraphMapper
