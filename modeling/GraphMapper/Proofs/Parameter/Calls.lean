import GraphMapper.Proofs.Parameter.Statement

/-!
Calls on one set of bindings.

* `Call`, `Call.compile`, `runCalls`: calls one after the other; a call that fails keeps what it has
  bound;
* `Bindings.Numbered`, `Bindings.Kept`: the parameters are the values by their numbers, and all of
  them are kept;
* `Call.compile_numbers`: a call asks for just the parameters that are bound during it, in their
  order;
* `Call.parameters_numbered`: the same in the midst of any other calls, and for the statements of
  selections.
-/

namespace GraphMapper

open Cypher (Expr Statement Step Unmarked stepsText)

/-! ### Calls -/

/-- A call that binds values and makes a text. -/
inductive Call where
  | bind (v : Value)
  | conditions (filter : Filter) (binder : String)
  /-- The conditions with the word before them. -/
  | whereClause (filter : Filter) (binder : String)
  | order (orders : List OrderBy) (binder : String)

namespace Call

/-- The text that a call makes. -/
def compile : Call → Compiling String
  | .bind v => return "$" ++ (← Compiling.bind v)
  | .conditions filter binder => return ((← filter.compile binder).map Expr.text).getD ""
  | .whereClause filter binder =>
    return stepsText ((← filter.compile binder).map Step.condition).toList
  | .order orders binder => return stepsText (sortStep binder orders)

/-- No dollar sign stands in the names and texts of a call. -/
def Legible : Call → Prop
  | .bind _ => True
  | .conditions filter binder => membersLegible filter ∧ Unmarked binder
  | .whereClause filter binder => membersLegible filter ∧ Unmarked binder
  | .order orders binder => (∀ order ∈ orders, Unmarked order.column) ∧ Unmarked binder

/-- A call asks for just the parameters that are bound during it, from left to right. -/
lemma compile_numbers {c : Call} (h : c.Legible) :
    Numbers c.compile fun text ps => Query.names text.toList = ps := by
  cases c with
  | bind v =>
      refine (Numbers.value v).bind fun name ps hname => .pure ?_
      obtain ⟨hplain, rfl⟩ := hname
      have := (Cypher.Asks.parameter hplain).names
      simpa using this
  | conditions filter binder =>
      refine (Filter.compile_numbers h.1 h.2).bind fun r ps hr => .pure ?_
      cases r with
      | none =>
          obtain rfl : ps = [] := hr
          rfl
      | some e =>
          obtain ⟨htidy, rfl⟩ := hr
          simpa using htidy.asks.names
  | whereClause filter binder =>
      refine (Filter.compile_numbers h.1 h.2).bind fun r ps hr => .pure ?_
      obtain ⟨htidy, rfl⟩ := hr.condition
      simpa using (Cypher.asks_steps htidy).names
  | order orders binder =>
      obtain ⟨htidy, hps⟩ := stepsTell_sort h.2 h.1
      refine .pure ?_
      rw [(Cypher.asks_steps htidy).names, hps]

end Call

/-- The bindings after some calls, whether they succeed or fail. -/
def runCalls (calls : List Call) (b : Bindings) : Bindings :=
  calls.foldl (fun b c => (c.compile.on b).2) b

/-! ### What is bound -/

namespace Bindings

/-- The parameters are the values by their numbers. -/
structure Numbered (b : Bindings) : Prop where
  names : (Fields.names b.parameters).Perm ((List.range b.values.length).map parameterName)
  values : ∀ i v, b.values[i]? = some v → Fields.get? b.parameters (parameterName i) = some v

lemma numbered (b : Bindings) : b.Numbered :=
  ⟨names_parameters_perm b, fun _ _ h => get?_parameters h⟩

/-- Every parameter has the value that it had before. -/
def Kept (b after : Bindings) : Prop :=
  ∀ name v, Fields.get? b.parameters name = some v → Fields.get? after.parameters name = some v

lemma kept_of_prefix {b after : Bindings} (h : b.values <+: after.values) : b.Kept after := by
  intro name v hv
  have hname : name ∈ Fields.names b.parameters := Fields.mem_names_of_get? hv
  obtain ⟨i, hi, rfl⟩ := List.mem_map.mp ((names_parameters_perm b).mem_iff.mp hname)
  have hlt : i < b.values.length := List.mem_range.mp hi
  have hget : b.values[i]? = some b.values[i] := List.getElem?_eq_getElem hlt
  obtain rfl : b.values[i] = v := by
    rw [get?_parameters hget] at hv
    exact Option.some.inj hv
  obtain ⟨more, hmore⟩ := h
  refine get?_parameters ?_
  rw [← hmore, List.getElem?_append_left hlt, hget]

end Bindings

lemma runCalls_append (before later : List Call) (b : Bindings) :
    runCalls (before ++ later) b = runCalls later (runCalls before b) :=
  List.foldl_append

lemma values_runCalls {calls : List Call} (h : ∀ c ∈ calls, c.Legible) (b : Bindings) :
    b.values <+: (runCalls calls b).values := by
  induction calls generalizing b with
  | nil => exact List.prefix_rfl
  | cons c rest ih =>
      have hc := (Call.compile_numbers (h c (by simp)) b).1
      exact hc.trans (ih (fun other hm => h other (by simp [hm])) _)

/-- What is bound by some calls is kept by those after them. -/
lemma kept_runCalls {before later : List Call} (h : ∀ c ∈ later, c.Legible) :
    (runCalls before {}).Kept (runCalls (before ++ later) {}) := by
  rw [runCalls_append]
  exact Bindings.kept_of_prefix (values_runCalls h _)

/-! ### Calls in the midst of others -/

/-- **Parameters are numbered as they are written.**  After any calls, the parameters are the values
bound so far by their numbers, and calls after them lose or change none, whichever calls fail.  The
text of a call that succeeds asks for the parameters bound during it, each once and from left to
right; so the statements of a selection ask for just the parameters that they have. -/
theorem Call.parameters_numbered {before later : List Call} {c : Call}
    (h : ∀ call ∈ before ++ c :: later, call.Legible) {s : Selection} (hs : s.Legible)
    {column : String} (hc : Unmarked column) (values : Row) (a : Aggregate) :
    (runCalls (before ++ c :: later) {}).Numbered ∧
      (runCalls before {}).Kept (runCalls (before ++ c :: later) {}) ∧
      (∀ text, (c.compile.on (runCalls before {})).1 = .ok text →
        Query.names text.toList = (runCalls before {}).since (runCalls (before ++ [c]) {})) ∧
      ∀ result ∈ [tailStatement s.filter s.orders s.limit s.offset, s.select, s.count, s.exists?,
          s.update values, s.delete, .ok (insert s.label values), a.statement s column],
        ∀ statement, result = .ok statement → statement.Bound := by
  obtain ⟨-, hrest⟩ := List.forall_mem_append.mp h
  refine ⟨Bindings.numbered _, kept_runCalls hrest, fun text htext => ?_,
    fun result hm statement hresult => ?_⟩
  · have hcall := Call.compile_numbers (hrest c (by simp)) (runCalls before {})
    rw [runCalls_append]
    exact hcall.2 text htext
  · subst hresult
    simp only [List.mem_cons, List.not_mem_nil, or_false] at hm
    rcases hm with hr | hr | hr | hr | hr | hr | hr | hr
    · exact tailStatement_bound hs.filter hs.orders _ _ hr.symm
    · exact hs.select_bound hr.symm
    · exact hs.count_bound hr.symm
    · exact hs.exists_bound hr.symm
    · exact hs.update_bound hr.symm
    · exact hs.delete_bound hr.symm
    · obtain rfl := Except.ok.inj hr
      exact insert_bound hs.label values
    · exact Aggregate.statement_bound hs a hc hr.symm

/-- A text written by hand, about a node. -/
def rawCall (text : String) (values : List Value) : Call :=
  .conditions [⟨none, false, .raw text values⟩] "n"

/-- After a value and a text with a value too few, a text asks for the parameters of its two marked
places, and not for its question mark in quotes. -/
theorem Call.parameters_numbered_raw :
    ∃ text, ((rawCall "n.b IN [?, '?', ?]" [.int 2, .int 3]).compile.on
        (runCalls [.bind .null, rawCall "n.a = ? OR ?" [.int 1]] {})).1 = .ok text ∧
      Query.names text.toList = ["p2", "p3"] := by
  have hfirst : (rawCall "n.a = ? OR ?" [.int 1]).Legible := by
    refine ⟨⟨⟨by decide, ?_⟩, trivial⟩, by decide⟩
    decide +kernel
  have hsecond : (rawCall "n.b IN [?, '?', ?]" [.int 2, .int 3]).Legible := by
    refine ⟨⟨⟨by decide, ?_⟩, trivial⟩, by decide⟩
    decide +kernel
  have hall : ∀ call ∈ [.bind .null, rawCall "n.a = ? OR ?" [.int 1]] ++
      rawCall "n.b IN [?, '?', ?]" [.int 2, .int 3] :: [], call.Legible := by
    simpa using ⟨trivial, hfirst, hsecond⟩
  have hselection : (Selection.of "User").Legible :=
    ⟨by decide, by decide, trivial, by simp [Selection.of], by simp [Selection.of]⟩
  have hcolumn : Unmarked "age" := by decide
  obtain ⟨-, -, hnames, -⟩ := Call.parameters_numbered hall hselection hcolumn [] .count
  have hok : ((rawCall "n.b IN [?, '?', ?]" [.int 2, .int 3]).compile.on
      (runCalls [.bind .null, rawCall "n.a = ? OR ?" [.int 1]] {})).1.isOk := by
    decide +kernel
  generalize hr : ((rawCall "n.b IN [?, '?', ?]" [.int 2, .int 3]).compile.on
    (runCalls [.bind .null, rawCall "n.a = ? OR ?" [.int 1]] {})).1 = r at hok
  cases r with
  | error e => cases hok
  | ok text =>
      refine ⟨text, rfl, ?_⟩
      rw [hnames text hr]
      decide +kernel

end GraphMapper
