import GraphMapper.Proofs.Graph.Evaluation

/-!
What statements do to a graph, and what they answer.

* `Answer`, `State`: rows of an answer with the rows they were made from, and where a statement stands;
* `Projection.result`, `rowGroups`: what a column holds; rows are put together where one is an
  aggregate;
* `Change.apply`, `Pattern.create`: changes of the graph;
* `Step.run`, `Statement.run`: a step and a whole statement; a statement that the engine refuses has no
  result;
* `Statement.answer`, `Statement.after`: the rows of the answer and the graph after the statement;
* `runSteps_find`: a statement that begins with matches.
-/

namespace GraphMapper.Cypher

/-- A row of an answer, with the rows of the statement that it was made from. -/
structure Answer where
  sources : List Env
  row : Row

/-- Where a statement stands: the graph, the rows, and the answer once there is one. -/
structure State where
  graph : Graph
  rows : List Env
  answers : Option (List Answer) := none

section

variable (I : Interpretation) (params : Row)

/-! ### Result columns -/

/-- The properties of what a variable stands for, as a map. -/
def Env.properties (g : Graph) (env : Env) (name : String) : Value :=
  if env.isPresent name then (env name).elim .null fun entity => .object (entity.properties g)
  else .null

/-- Whether a column is made of all rows together. -/
def Projection.isAggregate : Projection → Bool
  | .count _ | .anyRow _ | .aggregate _ _ _ => true
  | .bound _ | .properties _ | .property _ | .truth | .one => false

/-- What a column holds for rows that are put together; a column that is no aggregate is the same in
all of them. -/
def Projection.result (g : Graph) (rows : List Env) (p : Projection) : Option Entity :=
  let first := rows.head?.getD .empty
  match p with
  | .bound name => first name
  | .properties name => some (.value (first.properties g name))
  | .property p => some (.value (first.value g p))
  | .count name => some (.value (.int (rows.countP (·.isPresent name))))
  | .anyRow name => some (.value (.bool (rows.any (·.isPresent name))))
  | .aggregate function target extra =>
    some (.value (I.aggregate function (rows.map (target.value I g params))
      (extra.map (Term.value I g params first))))
  | .truth => some (.value (.bool true))
  | .one => some (.value (.int 1))

/-- The name of a column: what is asked for, or else what is written. -/
def Item.column (item : Item) : String :=
  match item.name with
  | some (.verbatim name) | some (.quoted name) => name
  | none => item.value.text

/-- Rows that are put together: each on its own if no column is an aggregate, and those that agree in
the other columns otherwise. -/
def rowGroups (g : Graph) (items : List Item) (rows : List Env) : List (List Env) :=
  let others := items.filter fun item => !item.value.isAggregate
  if others.length = items.length then rows.map ([·])
  else if others.isEmpty then [rows]
  else
    let key (env : Env) := others.map fun item => item.value.result I params g [env]
    (rows.map key).dedup.map fun k => rows.filter fun env => key env = k

/-- The columns of rows that are put together. -/
def Item.rowOf (g : Graph) (items : List Item) (rows : List Env) : Row :=
  Fields.ofList (items.map fun item =>
    (item.column, (item.value.result I params g rows).elim .null (·.toValue g)))

/-- The variables that stand for the columns of rows that are put together. -/
def Item.envOf (g : Graph) (items : List Item) (rows : List Env) : Env := fun name =>
  (items.find? (·.column = name)).bind (·.value.result I params g rows)

/-- Answers of which equal ones become one. -/
def Answer.distinct (answers : List Answer) : List Answer :=
  (answers.map (·.row)).dedup.map fun row =>
    ⟨(answers.filter (·.row = row)).flatMap (·.sources), row⟩

/-- The answer of a result. -/
def answersOf (g : Graph) (distinct : Bool) (items : List Item) (rows : List Env) : List Answer :=
  let answers := (rowGroups I params g items rows).map fun rows =>
    ⟨rows, Item.rowOf I params g items rows⟩
  if distinct then Answer.distinct answers else answers

/-! ### Order -/

/-- Whether a row may come before another in an order. -/
def mayPrecede (g : Graph) : List SortKey → Env → Env → Bool
  | [], _, _ => true
  | key :: rest, a, b =>
    let x := a.value g key.property
    let y := b.value g key.property
    if x = y then mayPrecede g rest a b
    else
      match key.direction with
      | .ascending => I.before x y
      | .descending => I.before y x

/-! ### Changes -/

/-- Properties after some are set; null takes a property away. -/
def assignProperties (properties changes : Row) : Row :=
  changes.foldl (fun row entry =>
    if entry.2.isNull then row.drop entry.1 else row.put entry.1 entry.2) properties

/-- The graph with the properties of a node or an edge changed. -/
def Graph.change (g : Graph) (f : Row → Row) : Entity → Graph
  | .node i => { g with ofNode := Function.update g.ofNode i (f (g.ofNode i)) }
  | .edge e => { g with ofEdge := Function.update g.ofEdge e (f (g.ofEdge e)) }
  | .value _ => g

/-- The graph with properties added to some nodes. -/
def Graph.extended (g : Graph) (ids : List ℕ) (changes : Row) : Graph :=
  { g with
    ofNode := fun i =>
      if i ∈ ids then assignProperties (g.ofNode i) changes else g.ofNode i }

/-- The entries of a parameter that is a map. -/
def parameterRow (name : String) : Row :=
  match parameterValue params name with
  | .object fields => fields
  | _ => []

/-- What a change makes of the graph in a row; nothing is changed of what is null. -/
def Change.apply (g : Graph) (env : Env) : Change → Graph
  | .replace binder parameter =>
    (env binder).elim g (g.change fun _ => assignProperties [] (parameterRow params parameter))
  | .extend binder parameter =>
    (env binder).elim g
      (g.change fun properties => assignProperties properties (parameterRow params parameter))
  | .assign p value =>
    (env p.owner).elim g
      (g.change fun properties =>
        assignProperties properties [(p.name, value.value I g params env)])

/-- Makes a node, unless its variable stands for one. -/
def Node.create (n : Node) (g : Graph) (env : Env) : Graph × Env :=
  match env n.binder with
  | some _ => (g, env)
  | none => (g.addNode n.label.toList, env.set n.binder (.node (Graph.unused g.nodes)))

/-- Makes an edge between two nodes; one without direction leads to the second. -/
def Edge.create (edge : Edge) (i j : ℕ) (g : Graph) (env : Env) : Graph × Env :=
  let (i, j) :=
    match edge.direction with
    | .incoming => (j, i)
    | .outgoing | .both => (i, j)
  if h : i ∈ g.nodes ∧ j ∈ g.nodes then
    (g.addEdge edge.edgeType i j h.1 h.2,
      if edge.binder = "" then env else env.set edge.binder (.edge (Graph.unused g.edges)))
  else (g, env)

/-- Makes what a pattern speaks of and is not there. -/
def Pattern.create (g : Graph) (env : Env) : Pattern → Graph × Env
  | .node n => n.create g env
  | .path left edge right =>
    let (g, env) := left.create g env
    let (g, env) := right.create g env
    match env.node? left.binder, env.node? right.binder with
    | some i, some j => edge.create i j g env
    | _, _ => (g, env)

/-- Makes a pattern for each of the rows. -/
def Pattern.createAll (pattern : Pattern) : Graph → List Env → Graph × List Env
  | g, [] => (g, [])
  | g, env :: rest =>
    let (g, env) := pattern.create g env
    let (g, rows) := pattern.createAll g rest
    (g, env :: rows)

/-! ### Steps -/

/-- What a step does; it may be refused. -/
def Step.run (step : Step) (s : State) : Option State :=
  match step with
  | .find m => some { s with rows := s.rows.flatMap (m.rows I s.graph params) }
  | .condition e =>
    some { s with rows := s.rows.filter fun env => e.truth I s.graph params env = .yes }
  | .unwind parameter binder =>
    let items : List Value :=
      match parameterValue params parameter with
      | .array items => items
      | .null => []
      | v => [v]
    some { s with rows := s.rows.flatMap fun env => items.map fun v => env.set binder (.value v) }
  | .create pattern =>
    let (graph, rows) := pattern.createAll s.graph s.rows
    some { s with graph, rows }
  | .set changes =>
    let apply (g : Graph) (env : Env) : Graph :=
      changes.foldl (fun g change => change.apply I params g env) g
    some { s with graph := s.rows.foldl apply s.graph }
  -- a node with edges left at it cannot be deleted
  | .delete binder =>
    let graph := s.graph.withoutEdges (s.rows.filterMap (·.edge? binder))
    let nodes := s.rows.filterMap (·.node? binder)
    if graph.edges.any fun e => graph.source e ∈ nodes ∨ graph.target e ∈ nodes then none
    else some { s with graph := graph.withoutNodes nodes }
  | .detachDelete binder =>
    let graph := s.graph.withoutEdges (s.rows.filterMap (·.edge? binder))
    some { s with graph := graph.withoutNodes (s.rows.filterMap (·.node? binder)) }
  -- no two columns have the same name
  | .carry items =>
    if (items.map Item.column).Nodup then
      some { s with
        rows := (rowGroups I params s.graph items s.rows).map (Item.envOf I params s.graph items) }
    else none
  | .project distinct items =>
    if (items.map Item.column).Nodup then
      some { s with answers := some (answersOf I params s.graph distinct items s.rows) }
    else none
  -- what comes after the result is about the rows of the answer
  | .sort keys =>
    let sorted := mayPrecede I s.graph keys
    some <|
      match s.answers with
      | none => { s with rows := s.rows.mergeSort sorted }
      | some answers =>
        let first (answer : Answer) : Env := answer.sources.head?.getD .empty
        { s with answers := some (answers.mergeSort fun a b => sorted (first a) (first b)) }
  | .skip count =>
    some <|
      match s.answers with
      | none => { s with rows := s.rows.drop count }
      | some answers => { s with answers := some (answers.drop count) }
  | .limit count =>
    some <|
      match s.answers with
      | none => { s with rows := s.rows.take count }
      | some answers => { s with answers := some (answers.take count) }

/-- Steps one after the other. -/
def runSteps : List Step → State → Option State
  | [], s => some s
  | step :: rest, s => (step.run I params s).bind (runSteps rest)

end

/-! ### Statements -/

namespace Statement

variable (I : Interpretation) (g : Graph) (s : Statement)

/-- Runs a statement. -/
def run : Option State :=
  runSteps I s.parameters s.steps { graph := g, rows := [.empty] }

/-- What a statement answers, with the rows that the answer was made from. -/
def answers : List Answer :=
  ((s.run I g).bind (·.answers)).getD []

/-- The rows that a statement answers. -/
def answer : List Row :=
  (s.answers I g).map (·.row)

/-- The graph after a statement; one that is refused changes nothing. -/
def after : Graph :=
  ((s.run I g).map (·.graph)).getD g

end Statement

/-! ### Running -/

variable {I : Interpretation} {params : Row}

@[simp] lemma runSteps_nil (s : State) : runSteps I params [] s = some s := rfl

lemma runSteps_cons (step : Step) (rest : List Step) (s : State) :
    runSteps I params (step :: rest) s = (step.run I params s).bind (runSteps I params rest) := rfl

lemma runSteps_append (steps more : List Step) (s : State) :
    runSteps I params (steps ++ more) s =
      (runSteps I params steps s).bind (runSteps I params more) := by
  induction steps generalizing s with
  | nil => rfl
  | cons step rest ih =>
      rw [List.cons_append, runSteps_cons, runSteps_cons, Option.bind_assoc]
      exact congrArg _ (funext ih)

/-- Matches at the beginning of a statement give the rows of the matches. -/
lemma runSteps_find (route : List (Match Expr)) (s : State) :
    runSteps I params (route.map .find) s =
      some { s with rows := s.rows.flatMap (routeRows I s.graph params route) } := by
  induction route generalizing s with
  | nil => rw [flatMap_routeRows_nil, List.map_nil, runSteps_nil]
  | cons m rest ih =>
      rw [List.map_cons, runSteps_cons, Step.run, Option.bind_some, ih, List.flatMap_assoc]
      refine congrArg some (congrArg (State.mk s.graph · s.answers) ?_)
      exact List.flatMap_congr fun env _ => (routeRows_cons m rest env).symm

/-! ### Results -/

/-- Columns without aggregates give an answer for each row. -/
lemma rowGroups_of_no_aggregate {items : List Item}
    (h : ∀ item ∈ items, item.value.isAggregate = false) (g : Graph) (rows : List Env) :
    rowGroups I params g items rows = rows.map ([·]) := by
  have hall : (items.filter fun item => !item.value.isAggregate) = items :=
    List.filter_eq_self.mpr fun item hitem => by simp [h item hitem]
  rw [rowGroups, hall, if_pos rfl]

/-- Equal answers that become one keep all their rows. -/
lemma Answer.mem_sources_distinct {answers : List Answer} {env : Env} :
    (∃ answer ∈ Answer.distinct answers, env ∈ answer.sources) ↔
      ∃ answer ∈ answers, env ∈ answer.sources := by
  constructor
  · rintro ⟨answer, hanswer, henv⟩
    obtain ⟨row, _, rfl⟩ := List.mem_map.mp hanswer
    obtain ⟨a, ha, henv⟩ := List.mem_flatMap.mp henv
    exact ⟨a, List.mem_of_mem_filter ha, henv⟩
  · rintro ⟨answer, hanswer, henv⟩
    refine ⟨⟨(answers.filter (·.row = answer.row)).flatMap (·.sources), answer.row⟩,
      List.mem_map.mpr ⟨answer.row, ?_, rfl⟩, ?_⟩
    · exact List.mem_dedup.mpr (List.mem_map_of_mem hanswer)
    · exact List.mem_flatMap.mpr ⟨answer, List.mem_filter.mpr ⟨hanswer, by simp⟩, henv⟩

/-- An answer without aggregates is made of all rows. -/
lemma mem_sources_answersOf {items : List Item} (h : ∀ item ∈ items, item.value.isAggregate = false)
    {g : Graph} {distinct : Bool} {rows : List Env} {env : Env} :
    (∃ answer ∈ answersOf I params g distinct items rows, env ∈ answer.sources) ↔ env ∈ rows := by
  have hall : (∃ answer ∈ (rowGroups I params g items rows).map fun rows =>
      (⟨rows, Item.rowOf I params g items rows⟩ : Answer), env ∈ answer.sources) ↔ env ∈ rows := by
    rw [rowGroups_of_no_aggregate h]
    simp
  rw [answersOf]
  cases distinct with
  | false => exact hall
  | true => exact Answer.mem_sources_distinct.trans hall

/-- A number of rows is one answer. -/
lemma answersOf_count (g : Graph) (name column : String) (rows : List Env) :
    answersOf I params g false [.named (.count name) column] rows =
      [⟨rows, [(column, .int (rows.countP (·.isPresent name)))]⟩] := rfl

end GraphMapper.Cypher
