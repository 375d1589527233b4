import GraphMapper.Aggregate.Basic
import GraphMapper.Proofs.Parameter.Numbering

/-!
The parameters of statements.

* `StepsTell`: steps that ask for certain parameters, from left to right;
* `Cypher.Statement.Bound`: a statement whose text asks for just the parameters that it has;
* `Numbers.bound`: compilations that number their parameters make such statements;
* `Selection.Legible`, `Selection.found_numbers` and its neighbours: the statements of a selection
  are among them.
-/

namespace GraphMapper

open Cypher (ColumnName Item Projection Property SortKey Statement Step Term Unmarked
  unmarked_append)

/-! ### Steps -/

/-- Steps that ask for just these parameters. -/
def StepsTell (steps : List Step) (ps : List String) : Prop :=
  (∀ step ∈ steps, step.Tidy) ∧ steps.flatMap Step.parameters = ps

lemma StepsTell.append {a b : List Step} {ps qs : List String} (ha : StepsTell a ps)
    (hb : StepsTell b qs) : StepsTell (a ++ b) (ps ++ qs) := by
  refine ⟨List.forall_mem_append.mpr ⟨ha.1, hb.1⟩, ?_⟩
  rw [List.flatMap_append, ha.2, hb.2]

lemma stepsTell_nil : StepsTell [] [] := ⟨by simp, rfl⟩

lemma stepsTell_singleton {step : Step} (h : step.Tidy) : StepsTell [step] step.parameters :=
  ⟨by simpa using h, by simp⟩

/-- Steps that ask for nothing may follow. -/
lemma StepsTell.append_silent {a b : List Step} {ps : List String} (ha : StepsTell a ps)
    (hb : StepsTell b []) : StepsTell (a ++ b) ps := by
  have := ha.append hb
  rwa [List.append_nil] at this

lemma stepsTell_window (limit offset : Option ℕ) : StepsTell (windowSteps limit offset) [] := by
  rw [windowSteps.eq_def]
  refine StepsTell.append_silent ?_ ?_
  · obtain _ | _ | count := offset
    · exact stepsTell_nil
    · exact stepsTell_nil
    · exact stepsTell_singleton trivial
  · cases limit with
    | none => exact stepsTell_nil
    | some count => exact stepsTell_singleton trivial

lemma stepsTell_sort {binder : String} (hb : Unmarked binder) {orders : List OrderBy}
    (ho : ∀ order ∈ orders, Unmarked order.column) : StepsTell (sortStep binder orders) [] := by
  rw [sortStep]
  split_ifs
  · exact stepsTell_nil
  · refine stepsTell_singleton fun key hkey => ?_
    obtain ⟨order, horder, rfl⟩ := List.mem_map.mp hkey
    have hdirection : Unmarked order.direction.text := by cases order.direction <;> decide
    rw [SortKey.text, unmarked_append, unmarked_append]
    exact ⟨⟨unmarked_ofColumn hb (ho order horder), by decide⟩, hdirection⟩

/-! ### Statements -/

/-- The text asks for just the parameters that the statement has. -/
structure Cypher.Statement.Bound (s : Statement) : Prop where
  unbound : s.query.unbound = []
  placeholders : s.query.placeholders = Fields.names s.query.parameters

/-- A text that asks for the parameters of its number of values, with these parameters. -/
lemma bound_of_names {s : Statement} {b : Bindings} (hp : s.parameters = b.parameters)
    (hn : Query.names s.query.text.toList =
      (List.range b.values.length).map Bindings.parameterName) : s.Bound := by
  have hplaceholders : s.query.placeholders = Fields.names s.query.parameters := by
    change Fields.names _ = Fields.names s.parameters
    rw [hp, hn, Bindings.parameters]
    refine Fields.names_ofList_congr ?_
    rw [Bindings.names_entries]
    simp [Function.comp_def]
  refine ⟨?_, hplaceholders⟩
  rw [Query.unbound, hplaceholders, List.filter_eq_nil_iff]
  intro name hname
  simpa using Fields.has_of_mem_names hname

/-- Compilations that number their parameters make statements that ask for what they have. -/
lemma Numbers.bound {x : Compiling (List Step)} (h : Numbers x StepsTell) {columns : List String}
    {s : Statement} (hs : Compiling.statement columns x = .ok s) : s.Bound := by
  rw [Compiling.statement, Compiling.start_eq] at hs
  obtain ⟨-, hresult⟩ := h {}
  generalize x.on {} = r at hresult hs
  obtain ⟨r, b⟩ := r
  cases r with
  | error e => cases hs
  | ok steps =>
      obtain rfl : { steps, parameters := b.parameters, columns } = s := Except.ok.inj hs
      obtain ⟨htidy, hps⟩ := hresult steps rfl
      refine bound_of_names rfl ?_
      have hasks := (Cypher.asks_steps htidy).names
      change Query.names (Cypher.stepsText steps).toList = _
      rw [hasks, hps]
      simp [Bindings.since, List.range_eq_range']

/-! ### Selections -/

/-- No dollar sign stands in the names and texts of a selection. -/
structure Selection.Legible (s : Selection) : Prop where
  label : Unmarked s.label
  binder : Unmarked s.binder
  filter : membersLegible s.filter
  orders : ∀ order ∈ s.orders, Unmarked order.column
  columns : ∀ column ∈ s.columns, Unmarked column

lemma unmarked_columnName {column : String} (h : Unmarked column) :
    Unmarked (columnName column) := by
  rw [columnName, Unmarked, String.toList_ofList, List.mem_reverse]
  intro hm
  exact h (List.mem_reverse.mp ((List.takeWhile_prefix _).subset hm))

/-- The condition of a filter becomes one condition or none. -/
lemma OptionTells.conditions {r : Option Cypher.Expr} {ps : List String} (h : OptionTells r ps) :
    Cypher.conditionsTidy r.toList ∧ Cypher.conditionsParameters r.toList = ps := by
  cases r with
  | none =>
      obtain rfl : ps = [] := h
      exact ⟨trivial, rfl⟩
  | some e =>
      obtain ⟨htidy, rfl⟩ := h
      refine ⟨⟨htidy, trivial⟩, ?_⟩
      simp [Cypher.conditionsParameters]

/-- A column with a name that is written as it is. -/
lemma tidy_named {value : Projection} {name : String} (hn : Unmarked name)
    (hv : Unmarked value.text) (hna : ∀ f target extra, value ≠ .aggregate f target extra) :
    (Item.named value name).Tidy := by
  refine ⟨by simpa [Item.named, ColumnName.text] using hn, ?_⟩
  cases value with
  | aggregate f target extra => exact absurd rfl (hna f target extra)
  | _ => exact hv

/-- A filter on its own becomes one step or none. -/
lemma OptionTells.condition {r : Option Cypher.Expr} {ps : List String} (h : OptionTells r ps) :
    StepsTell (r.map Step.condition).toList ps := by
  cases r with
  | none =>
      obtain rfl : ps = [] := h
      exact stepsTell_nil
  | some e =>
      obtain ⟨htidy, rfl⟩ := h
      exact stepsTell_singleton htidy

namespace Selection.Legible

variable {s : Selection}

lemma found_numbers (h : s.Legible) : Numbers s.found fun step ps => StepsTell [step] ps := by
  rw [found]
  refine (Filter.compile_numbers h.filter h.binder).bind fun r ps hr => .pure ?_
  obtain ⟨htidy, hps⟩ := hr.conditions
  have hnode := unmarked_node h.binder (some s.label) (by simpa using h.label)
  refine ⟨by simpa using ⟨hnode, htidy⟩, ?_⟩
  simp [Step.parameters, Cypher.Match.parameters, hps]

/-- A statement that looks for the nodes and goes on with steps that ask for nothing. -/
lemma bound_of_found (h : s.Legible) {columns : List String} {later : List Step}
    (hl : StepsTell later []) {statement : Statement}
    (hs : Compiling.statement columns (do return [← s.found] ++ later) = .ok statement) :
    statement.Bound :=
  Numbers.bound (h.found_numbers.bind fun step ps hp =>
    .pure (by simpa using StepsTell.append_silent hp hl)) hs

lemma stepsTell_count (h : s.Legible) (name : String) (hn : Unmarked name) (distinct : Bool) :
    StepsTell [.project distinct [.named (.count s.binder) name]] [] := by
  have hcount : Unmarked (Projection.count s.binder).text := by
    rw [Projection.text, unmarked_append, unmarked_append]
    exact ⟨⟨by decide, h.binder⟩, by decide⟩
  refine stepsTell_singleton fun item hm => ?_
  obtain rfl := List.mem_singleton.mp hm
  exact tidy_named hn hcount (by simp)

lemma count_bound (h : s.Legible) {statement : Statement} (hs : s.count = .ok statement) :
    statement.Bound :=
  h.bound_of_found (h.stepsTell_count _ (by decide) false) hs

lemma unmarked_properties {binder : String} (h : Unmarked binder) :
    Unmarked (Projection.properties binder).text := by
  rw [Projection.text, unmarked_append]
  exact ⟨h, by decide⟩

lemma exists_bound (h : s.Legible) {statement : Statement} (hs : s.exists? = .ok statement) :
    statement.Bound := by
  have hrow : Unmarked (Projection.anyRow s.binder).text := by
    rw [Projection.text, unmarked_append, unmarked_append]
    exact ⟨⟨by decide, h.binder⟩, by decide⟩
  have hproject : (Step.project false [.named (.anyRow s.binder) aggregateColumn]).Tidy := by
    intro item hm
    obtain rfl := List.mem_singleton.mp hm
    exact tidy_named (by decide) hrow (by simp)
  exact h.bound_of_found (stepsTell_singleton hproject) hs

lemma delete_bound (h : s.Legible) {statement : Statement} (hs : s.delete = .ok statement) :
    statement.Bound := by
  have hcarry : (Step.carry [⟨.bound s.binder, none⟩,
      .named (.properties s.binder) "props"]).Tidy := by
    intro item hm
    rcases List.mem_cons.mp hm with rfl | hm
    · exact ⟨by simp, h.binder⟩
    · obtain rfl := List.mem_singleton.mp hm
      exact tidy_named (by decide) (unmarked_properties h.binder) (by simp)
  have hdelete : (Step.detachDelete s.binder).Tidy := h.binder
  have hcount : (Step.project false [.named (.count "props") affectedColumn]).Tidy := by
    intro item hm
    obtain rfl := List.mem_singleton.mp hm
    exact tidy_named (by decide) (by decide) (by simp)
  refine h.bound_of_found ⟨?_, rfl⟩ hs
  simpa using ⟨hcarry, hdelete, hcount⟩

lemma update_bound (h : s.Legible) {values : Row} {statement : Statement}
    (hs : s.update values = .ok statement) : statement.Bound := by
  refine Numbers.bound (h.found_numbers.bind fun step ps hp => ?_) hs
  refine (Numbers.value _).bind fun name qs hname => .pure ?_
  obtain ⟨hplain, rfl⟩ := hname
  have hset : StepsTell [.set [.extend s.binder name]] [name] := by
    refine stepsTell_singleton fun change hm => ?_
    obtain rfl := List.mem_singleton.mp hm
    exact ⟨h.binder, hplain⟩
  have hcount := h.stepsTell_count affectedColumn (by decide) false
  have := (hp.append hset).append_silent hcount
  simpa using this

/-- The columns of a select ask for nothing. -/
lemma stepsTell_items (h : s.Legible) : StepsTell [.project s.distinct s.items] [] := by
  have hitems : ∀ item ∈ s.items, item.Tidy ∧ item.parameters = [] := by
    rw [items]
    split_ifs
    · intro item hm
      obtain rfl := List.mem_singleton.mp hm
      exact ⟨tidy_named h.binder (unmarked_properties h.binder) (by simp), rfl⟩
    · intro item hm
      obtain ⟨column, hcolumn, rfl⟩ := List.mem_map.mp hm
      have hu := h.columns column hcolumn
      refine ⟨⟨?_, unmarked_ofColumn h.binder hu⟩, rfl⟩
      intro name hname
      obtain rfl : ColumnName.quoted (columnName column) = name := by simpa using hname
      exact Cypher.unmarked_quote (unmarked_columnName hu)
  refine ⟨?_, ?_⟩
  · intro step hm
    obtain rfl := List.mem_singleton.mp hm
    exact fun item hm => (hitems item hm).1
  · simpa [Step.parameters] using fun item hm => (hitems item hm).2

lemma select_bound (h : s.Legible) {statement : Statement} (hs : s.select = .ok statement) :
    statement.Bound := by
  have hlater := (h.stepsTell_items.append_silent (stepsTell_sort h.binder h.orders)).append_silent
    (stepsTell_window s.limit s.offset)
  exact h.bound_of_found hlater hs

end Selection.Legible

/-! ### Other statements -/

lemma Aggregate.unmarked_name (a : Aggregate) : Unmarked a.name := by
  cases a <;>
  · rw [name]
    decide

/-- The column of an aggregate asks for its second argument. -/
lemma stepsTell_aggregate (a : Aggregate) {target : Term} (ht : target.Tidy)
    (hp : target.parameters = []) {extra : Option Term} (he : ∀ t ∈ extra, t.Tidy) :
    StepsTell [.project false [.named (.aggregate a.name target extra) aggregateColumn]]
      ((extra.map Term.parameters).getD []) := by
  refine ⟨fun step hs => ?_, ?_⟩
  · obtain rfl := List.mem_singleton.mp hs
    intro item hm
    obtain rfl := List.mem_singleton.mp hm
    have hname : ∀ name ∈ (some (ColumnName.verbatim aggregateColumn)), Unmarked name.text := by
      intro name hname
      obtain rfl := Option.some.inj hname
      decide
    exact ⟨hname, a.unmarked_name, ht, he⟩
  · simp [Step.parameters, Item.parameters, Item.named, hp]

/-- What an aggregate is computed from asks for nothing. -/
lemma stepsTell_narrowed {binder : String} (hb : Unmarked binder) {order window : List Step}
    (ho : StepsTell order []) (hw : StepsTell window []) :
    StepsTell (if order.isEmpty && window.isEmpty then []
      else .carry [⟨.bound binder, none⟩] :: order ++ window) [] := by
  have hcarry : StepsTell [.carry [⟨.bound binder, none⟩]] [] := by
    refine stepsTell_singleton fun item hm => ?_
    obtain rfl := List.mem_singleton.mp hm
    exact ⟨by simp, hb⟩
  split_ifs
  · exact stepsTell_nil
  · exact (hcarry.append_silent ho).append_silent hw

/-- An aggregate asks for its fraction after the parameters of the filter. -/
lemma Aggregate.statement_bound {s : Selection} (h : s.Legible) (a : Aggregate) {column : String}
    (hc : Unmarked column) {statement : Statement} (hs : a.statement s column = .ok statement) :
    statement.Bound := by
  rw [Aggregate.statement] at hs
  cases hv : a.validate with
  | error e =>
      rw [hv] at hs
      cases hs
  | ok u =>
      rw [hv] at hs
      refine Numbers.bound (h.found_numbers.bind fun step ps hp => ?_) hs
      have horder : StepsTell (if a = .collect then sortStep s.binder s.orders else []) [] := by
        split_ifs
        · exact stepsTell_sort h.binder h.orders
        · exact stepsTell_nil
      have hbefore := StepsTell.append_silent hp
        (stepsTell_narrowed h.binder horder (stepsTell_window s.limit s.offset))
      have htarget : (if column = allColumns then Term.bound s.binder
          else .property (Property.ofColumn s.binder column)).Tidy ∧
          (if column = allColumns then Term.bound s.binder
            else .property (Property.ofColumn s.binder column)).parameters = [] := by
        split_ifs
        · exact ⟨h.binder, rfl⟩
        · exact ⟨unmarked_ofColumn h.binder hc, rfl⟩
      cases a.fraction? with
      | none => exact .pure (hbefore.append (stepsTell_aggregate a htarget.1 htarget.2 (by simp)))
      | some fraction =>
          refine (Numbers.value _).bind fun name qs hname => .pure ?_
          obtain ⟨hplain, rfl⟩ := hname
          have hextra : ∀ t ∈ some (Term.parameter name), t.Tidy := by
            intro t ht
            obtain rfl := Option.some.inj ht
            exact hplain
          have := hbefore.append (stepsTell_aggregate a htarget.1 htarget.2 hextra)
          simpa [Term.parameters] using this

/-- A new node asks for its properties. -/
lemma insert_bound {label : String} (h : Unmarked label) (properties : Row) :
    (insert label properties).Bound := by
  have hcreate : (Step.create (.node ⟨"n", some label⟩)).Tidy :=
    unmarked_node (by decide) _ (by simpa using h)
  have hset : (Step.set [.replace "n" "attributes"]).Tidy := by
    intro change hm
    obtain rfl := List.mem_singleton.mp hm
    exact ⟨by decide, by decide⟩
  have hproject : (Step.project false [.named (.properties "n") insertedColumn]).Tidy := by
    intro item hm
    obtain rfl := List.mem_singleton.mp hm
    exact tidy_named (by decide) (by decide) (by simp)
  have hsteps : ∀ step ∈ (insert label properties).steps, step.Tidy := by
    simpa [insert] using ⟨hcreate, hset, hproject⟩
  have hnames : Query.names (insert label properties).query.text.toList = ["attributes"] :=
    (Cypher.asks_steps hsteps).names
  have hplaceholders : (insert label properties).query.placeholders = ["attributes"] := by
    rw [Query.placeholders, hnames]
    rfl
  refine ⟨?_, hplaceholders⟩
  rw [Query.unbound, hplaceholders]
  rfl

/-- A statement whose match is written by the caller. -/
lemma tailStatement_bound {filter : Filter} (hf : membersLegible filter) {orders : List OrderBy}
    (ho : ∀ order ∈ orders, Unmarked order.column) (limit offset : Option ℕ)
    {statement : Statement} (hs : tailStatement filter orders limit offset = .ok statement) :
    statement.Bound := by
  have hn : Unmarked defaultVariable := by decide
  refine Numbers.bound ((Filter.compile_numbers hf hn).bind fun r ps hr => .pure ?_) hs
  have := (hr.condition.append_silent (stepsTell_sort hn ho)).append_silent
    (stepsTell_window limit offset)
  simpa using this

end GraphMapper
