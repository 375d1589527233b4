import GraphMapper.Proofs.Page.Aggregated
import GraphMapper.Proofs.Store.Database
import GraphMapper.Proofs.Unit.Count

/-!
Selections that a client has answered.

* `Client.AnswersFrom`: a caller's statement for a selection is answered from a graph;
* `Client.AnswersFrom.records`: then its records are those of the nodes that are selected;
* `Client.Idle.answersFrom`: an idle client of an engine that stores the graph is one that has its
  selections so answered, as far as the engine can read them.
-/

namespace GraphMapper

open Cypher (Graph Interpretation Statement)

variable {I : Interpretation} {g : Graph}

/-- A select whose columns have different names can be run, and changes nothing. -/
lemma Selection.run_of_select {s : Selection} {q : Statement} (hq : s.select = .ok q)
    (hnames : s.itemNames.Nodup) : (q.run I g).isSome := by
  obtain ⟨r, b, hc⟩ := compiled_of_select hq
  rw [select_eq, hc] at hq
  obtain rfl := Except.ok.inj hq
  rw [Statement.run]
  simp only [List.cons_append, List.nil_append, Cypher.runSteps_cons, Cypher.Step.run,
    Option.bind_some, List.flatMap_singleton, rows_found hc b.supplies_parameters, items_column,
    if_pos hnames, answersOf_nodes, Cypher.runSteps_append, runSteps_ordered, runSteps_windowed]
  rfl

namespace Client

variable {σ : Type} [Engine σ] {caller : Owner} {c : Client σ}

/-- A caller's statement for a selection is answered from the graph. -/
def AnswersFrom (I : Interpretation) (g : Graph) (caller : Owner) (c : Client σ) (s : Selection) :
    Prop :=
  ∀ q, s.select = .ok q → ∃ after, statement q.query .read caller c = (.ok (q.answer I g), after)

/-- The records of a selection are those of its nodes. -/
lemma AnswersFrom.records {s : Selection} (h : AnswersFrom I g caller c s)
    (hcompiled : s.compiled.isOk) (hnames : s.itemNames.Nodup) (hdistinct : s.distinct = false) :
    ∃ after, Client.records s caller c =
      (.ok ((s.arranged I g s.orders (s.matched I g)).map (s.nodeRecord I g)), after) := by
  have hselect : ∃ q, s.select = .ok q := by
    rw [Selection.select_eq]
    cases hc : s.compiled with
    | error e => simp [hc, Except.isOk, Except.toBool] at hcompiled
    | ok rb => exact ⟨_, rfl⟩
  obtain ⟨q, hq⟩ := hselect
  obtain ⟨after, hrun⟩ := h q hq
  have hkeeps : s.KeepsRows I g := .inl hdistinct
  refine ⟨after, ?_⟩
  have hget : get s caller c = (.ok (q.answer I g), after) := by
    rw [get, runCompiled, hq]
    exact hrun
  rw [Client.records, Action.bind_apply_ok hget, hkeeps.records_eq hq hnames,
    hkeeps.selected_arranged hq hnames]
  rfl

/-! ### An engine that stores the graph -/

section Stored

variable {reading : Query → Option Statement} {c : Client (Database I reading)}

/-- A statement that the engine reads and can run is answered from the graph. -/
lemma Idle.execute (h : c.Idle g) (caller : Owner) {q : Statement} (hreads : reading q.query = some q)
    (hrun : (q.run I g).isSome) :
    ∃ after, Client.execute q.query .read caller c = (.ok (q.answer I g), after) := by
  obtain ⟨session, p, hacquire, -⟩ := h.acquire caller
  obtain ⟨st, hst⟩ := Option.isSome_iff_exists.mp hrun
  have hanswer : Database.answer I reading q.query c.engine.graph = (.ok (q.answer I g), st.graph) := by
    rw [Database.answer, hreads, Option.bind_some, h.graph, hst, Statement.answer, Statement.answers,
      hst]
    rfl
  set acquired : Client (Database I reading) :=
    { c with monitor := { c.monitor with pool := some p } }
  have hexecute : Action.observed (Engine.execute session q.query .read) caller acquired =
      (.ok (.ok (q.answer I g)), { acquired with engine := { c.engine with graph := st.graph } }) := by
    have hengine : Engine.execute session q.query .read c.engine =
        ((Database.answer I reading q.query c.engine.graph).1,
          { c.engine with graph := (Database.answer I reading q.query c.engine.graph).2 }) := rfl
    rw [Action.observed_apply, hengine, hanswer]
    rfl
  rw [Client.execute, Action.bind_apply_ok hacquire, Action.bind_apply_ok hexecute]
  exact ⟨_, rfl⟩

/-- An idle client has its selections answered from the graph that is stored. -/
lemma Idle.answersFrom (h : c.Idle g) (caller : Owner) {s : Selection} (hnames : s.itemNames.Nodup)
    (hreads : ∀ q, s.select = .ok q → reading q.query = some q) : AnswersFrom I g caller c s := by
  intro q hq
  obtain ⟨after, hrun⟩ := h.execute caller (hreads q hq) (Selection.run_of_select hq hnames)
  have hdepth : depthOf caller caller c = (.ok 0, c) := by
    change (Except.ok (((c.active.lookup caller).map (·.depth)).getD 0), c) = _
    rw [h.active]
    rfl
  exact ⟨after, (statement_outside hdepth q.query).trans (retrying_ok hrun)⟩

end Stored

end Client

end GraphMapper
