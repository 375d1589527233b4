import GraphMapper.Proofs.Graph.Selection
import GraphMapper.Selection.Page

/-!
What a select answers, and the total that its pages are counted by.

* `ordered`, `windowed`: what is left of answers that are sorted and cut to a window;
* `Selection.answers_of_select`: a select answers a row for each node that is matched, equal ones
  becoming one if it is to be distinct, then sorted and cut to the window;
* `Selection.total_counts_nodes` (**the total counts nodes**): the total is the number of nodes, and
  there are just as many rows unless equal ones become one; `Selection.total_beyond_rows`: with equal
  rows a distinct selection has fewer rows than its total.
-/

namespace GraphMapper

open Cypher (Answer Env Expr Graph Interpretation Item Projection SortKey Statement answersOf
  mayPrecede rowGroups runSteps)

variable {I : Interpretation} {g : Graph} {params : Row}

/-! ### Order and window -/

/-- The row of the statement that an answer is sorted by. -/
def Cypher.Answer.first (answer : Answer) : Env :=
  answer.sources.head?.getD .empty

/-- Answers in an order. -/
def ordered (I : Interpretation) (g : Graph) (keys : List SortKey) (answers : List Answer) :
    List Answer :=
  answers.mergeSort fun a b => mayPrecede I g keys a.first b.first

/-- What a window leaves of a list. -/
def windowed {α : Type} (limit offset : Option ℕ) (items : List α) : List α :=
  let rest := items.drop (offset.getD 0)
  limit.elim rest rest.take

lemma ordered_perm (keys : List SortKey) (answers : List Answer) :
    (ordered I g keys answers).Perm answers :=
  List.mergeSort_perm _ _

lemma runSteps_ordered (binder : String) (orders : List OrderBy) (rows : List Env)
    (answers : List Answer) :
    runSteps I params (sortStep binder orders) ⟨g, rows, some answers⟩ =
      some ⟨g, rows, some (ordered I g (sortKeys binder orders) answers)⟩ := by
  cases orders with
  | nil =>
      have hsame : ordered I g [] answers = answers :=
        List.mergeSort_of_pairwise (List.pairwise_of_forall fun _ _ => rfl)
      exact congrArg (fun answers => some (Cypher.State.mk g rows (some answers))) hsame.symm
  | cons order rest => rfl

lemma runSteps_windowed (limit offset : Option ℕ) (rows : List Env) (answers : List Answer) :
    runSteps I params (windowSteps limit offset) ⟨g, rows, some answers⟩ =
      some ⟨g, rows, some (windowed limit offset answers)⟩ := by
  rcases offset with _ | _ | count <;> cases limit <;> rfl

/-! ### Columns -/

/-- Only aggregates have parameters. -/
lemma Cypher.Item.rowOf_of_no_aggregate {items : List Item}
    (h : ∀ item ∈ items, item.value.isAggregate = false) (params other : Row) (rows : List Env) :
    Item.rowOf I params g items rows = Item.rowOf I other g items rows := by
  refine congrArg Fields.ofList (List.map_congr_left fun item hitem => ?_)
  obtain ⟨value, name⟩ := item
  cases value with
  | aggregate => exact absurd (h _ hitem) (by simp [Projection.isAggregate])
  | _ => rfl

lemma Cypher.Answer.map_row_distinct (answers : List Answer) :
    (Answer.distinct answers).map (·.row) = (answers.map (·.row)).dedup := by
  rw [Answer.distinct, List.map_map]
  exact List.map_id' _

namespace Selection

/-! ### Answers -/

/-- The answer that a node is projected to. -/
def nodeAnswer (I : Interpretation) (g : Graph) (s : Selection) (i : ℕ) : Answer :=
  ⟨[nodeRow s.binder i], Item.rowOf I [] g s.items [nodeRow s.binder i]⟩

/-- The answers before they are sorted and cut to the window. -/
def unsorted (I : Interpretation) (g : Graph) (s : Selection) : List Answer :=
  let answers := (s.matched I g).map (s.nodeAnswer I g)
  if s.distinct then Answer.distinct answers else answers

lemma answersOf_nodes (s : Selection) (params : Row) :
    answersOf I params g s.distinct s.items ((s.matched I g).map (nodeRow s.binder)) =
      s.unsorted I g := by
  have hrows : (rowGroups I params g s.items ((s.matched I g).map (nodeRow s.binder))).map
      (fun rows => (⟨rows, Item.rowOf I params g s.items rows⟩ : Answer)) =
        (s.matched I g).map (s.nodeAnswer I g) := by
    rw [Cypher.rowGroups_of_no_aggregate s.items_isAggregate, List.map_map, List.map_map]
    refine List.map_congr_left fun i _ => ?_
    exact congrArg (Answer.mk _) (Item.rowOf_of_no_aggregate s.items_isAggregate params [] _)
  rw [answersOf, hrows, unsorted]

lemma compiled_of_select {s : Selection} {q : Statement} (hq : s.select = .ok q) :
    ∃ r b, s.compiled = .ok (r, b) := by
  rcases hc : s.compiled with e | ⟨r, b⟩
  · simp [select_eq, hc, Except.map] at hq
  · exact ⟨r, b, rfl⟩

/-- **What a select answers**: a row for each node that is matched, sorted and cut to the window. -/
theorem answers_of_select {s : Selection} {q : Statement} (hq : s.select = .ok q)
    (hnames : s.itemNames.Nodup) :
    q.answers I g =
      windowed s.limit s.offset (ordered I g (sortKeys s.binder s.orders) (s.unsorted I g)) := by
  obtain ⟨r, b, hc⟩ := compiled_of_select hq
  rw [select_eq, hc] at hq
  obtain rfl := Except.ok.inj hq
  rw [Statement.answers, Statement.run]
  simp only [List.cons_append, List.nil_append, Cypher.runSteps_cons, Cypher.Step.run,
    Option.bind_some, List.flatMap_singleton, rows_found hc b.supplies_parameters, items_column,
    if_pos hnames, answersOf_nodes, Cypher.runSteps_append, runSteps_ordered, runSteps_windowed]
  rfl

/-! ### Total -/

/-- The selection without a window. -/
def whole (s : Selection) : Selection :=
  { s with limit := none, offset := none }

/-- The rows that the nodes are projected to. -/
def projected (I : Interpretation) (g : Graph) (s : Selection) : List Row :=
  (s.matched I g).map fun i => (s.nodeAnswer I g i).row

lemma map_row_unsorted (s : Selection) :
    (s.unsorted I g).map (·.row) =
      if s.distinct then (s.projected I g).dedup else s.projected I g := by
  rw [unsorted, projected]
  split_ifs
  · rw [Answer.map_row_distinct, List.map_map]
    rfl
  · rw [List.map_map]
    rfl

lemma count_eq (s : Selection) :
    s.count = s.compiled.map fun (r, b) =>
      { steps := [.find (s.foundMatch r), .project false [.named (.count s.binder) aggregateColumn]]
        parameters := b.parameters
        columns := [aggregateColumn] } := by
  rw [count, Compiling.statement_eq, start_found_bind]
  rcases s.compiled with e | ⟨r, b⟩ <;> rfl

/-- A count answers the number of nodes that are matched. -/
theorem count_run {s : Selection} {r : Option Expr} {b : Bindings} (h : s.compiled = .ok (r, b)) :
    ∃ c, s.count = .ok c ∧ c.answer I g = [[(aggregateColumn, .int (s.matched I g).length)]] := by
  refine ⟨_, by rw [count_eq, h]; rfl, ?_⟩
  rw [Statement.answer, Statement.answers, Statement.run]
  simp only [Cypher.runSteps_cons, Cypher.Step.run, Option.bind_some, List.flatMap_singleton,
    rows_found h b.supplies_parameters, Cypher.answersOf_count, countP_present]
  rfl

lemma countOf_total (total : ℕ) : countOf [[(aggregateColumn, .int total)]] = .ok total := rfl

/-- Rows of which equal ones become one are as many as before if there are no equal ones. -/
lemma length_dedup_eq_iff {rows : List Row} : rows.dedup.length = rows.length ↔ rows.Nodup :=
  ⟨fun h => List.dedup_eq_self.mp (rows.dedup_sublist.eq_of_length h),
    fun h => by rw [List.dedup_eq_self.mpr h]⟩

/-- **The total counts nodes**: a count can be written whenever the select can, its total is the
number of rows that the nodes are projected to, and the select without its window answers these rows,
of which equal ones become one if it is to be distinct.  So the rows are never more than the total,
and they are as many if the selection is not distinct or no two nodes are projected to equal rows. -/
theorem total_counts_nodes {s : Selection} (hnames : s.itemNames.Nodup) {q : Statement}
    (hq : s.whole.select = .ok q) :
    ∃ c total, s.count = .ok c ∧ countOf (c.answer I g) = .ok total ∧
      total = (s.projected I g).length ∧
      (q.answer I g).Perm (if s.distinct then (s.projected I g).dedup else s.projected I g) ∧
      (q.answer I g).length ≤ total ∧
      ((q.answer I g).length = total ↔ s.distinct = false ∨ (s.projected I g).Nodup) := by
  obtain ⟨r, b, hc⟩ := compiled_of_select hq
  obtain ⟨c, hcount, hanswer⟩ := count_run (I := I) (g := g) (s := s) hc
  have hprojected : (s.projected I g).length = (s.matched I g).length := List.length_map _
  have hrows : (q.answer I g).Perm
      (if s.distinct then (s.projected I g).dedup else s.projected I g) := by
    rw [Statement.answer, answers_of_select hq hnames, ← map_row_unsorted]
    exact (ordered_perm _ _).map _
  refine ⟨c, _, hcount, by rw [hanswer, countOf_total, hprojected], rfl, hrows, ?_⟩
  rw [hrows.length_eq]
  cases s.distinct with
  | false => simp
  | true => simpa [length_dedup_eq_iff] using (s.projected I g).dedup_sublist.length_le

/-- Two users of one name. -/
def namesakes : Graph :=
  .ofNodes [("User", [("id", .int 1), ("name", .string "Ada")]),
    ("User", [("id", .int 2), ("name", .string "Ada")])]

/-- The names of the users, each once. -/
def userNames : Selection :=
  { Selection.of "User" with columns := ["name"], distinct := true }

theorem total_counts_nodes_second :
    let s := userNames.and (.equals "id" (.int 2))
    ∃ q c total, s.whole.select = .ok q ∧ s.count = .ok c ∧
      countOf (c.answer .json namesakes) = .ok total ∧
      (q.answer .json namesakes).length = total := by
  obtain ⟨c, total, hc, hcount, -, -, -, hrows⟩ := total_counts_nodes (I := .json) (g := namesakes)
    (s := userNames.and (.equals "id" (.int 2))) (by decide) rfl
  exact ⟨_, c, total, rfl, hc, hcount, hrows.mpr (.inr (by decide))⟩

/-- The names of two users of one name are one row, but their total is two. -/
theorem total_beyond_rows :
    ¬ ∀ (s : Selection) (q c : Statement), s.itemNames.Nodup → s.whole.select = .ok q →
      s.count = .ok c →
        countOf (c.answer .json namesakes) = .ok (q.answer .json namesakes).length := by
  intro h
  have h1 := h userNames _ _ (by decide) rfl rfl
  exact absurd h1 (by decide)

end Selection

end GraphMapper
