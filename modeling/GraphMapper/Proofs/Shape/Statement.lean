import GraphMapper.Aggregate.Basic
import GraphMapper.Proofs.Shape.Filter
import GraphMapper.Proofs.Value.Fields

/-!
The statements of selections of one shape.

* `Selection.SameShape`: selections that differ in the values of their filters alone;
* `Aggregate.SameShape`: aggregates that differ in their fraction alone;
* `Cypher.Statement.SameText`: statements with one text, one list of columns and parameters of the
  same names;
* `Alike.statement`: compilations that are alike make such statements, or none;
* `Selection.SameShape.statements`: every statement of a selection is the same text whatever the
  values are.
-/

namespace GraphMapper

open Cypher (Item Match Projection Statement Step Term)

/-! ### Selections and statements -/

/-- Selections that differ in the values of their filters alone. -/
structure Selection.SameShape (s t : Selection) : Prop where
  label : s.label = t.label
  binder : s.binder = t.binder
  filter : membersSameShape s.filter t.filter
  orders : s.orders = t.orders
  limit : s.limit = t.limit
  offset : s.offset = t.offset
  columns : s.columns = t.columns
  distinct : s.distinct = t.distinct

/-- Aggregates that differ in their fraction alone, which is valid in both or in none. -/
inductive Aggregate.SameShape : Aggregate → Aggregate → Prop
  | refl (a : Aggregate) : SameShape a a
  | discrete {p q : Float}
      (h : (discretePercentile p).validate.isOk = (discretePercentile q).validate.isOk) :
      SameShape (.discretePercentile p) (.discretePercentile q)
  | continuous {p q : Float}
      (h : (continuousPercentile p).validate.isOk = (continuousPercentile q).validate.isOk) :
      SameShape (.continuousPercentile p) (.continuousPercentile q)

/-- Statements that are sent with one text and parameters of the same names. -/
structure Cypher.Statement.SameText (s t : Statement) : Prop where
  text : s.query.text = t.query.text
  names : Fields.names s.query.parameters = Fields.names t.query.parameters
  columns : s.query.columns = t.query.columns

/-- Compilations that are alike make statements with one text, or none. -/
lemma Alike.statement {x y : Compiling (List Step)} (h : Alike x y) (columns : List String) :
    Both Statement.SameText (Compiling.statement columns x) (Compiling.statement columns y) := by
  have hstart := h.start
  rw [Compiling.statement, Compiling.statement]
  generalize x.start = r at hstart ⊢
  generalize y.start = q at hstart ⊢
  cases hstart with
  | error e e' => exact .error e e'
  | @ok r q h =>
      obtain ⟨steps, after⟩ := r
      obtain ⟨steps', after'⟩ := q
      obtain ⟨hsteps, hsize⟩ : steps = steps' ∧ after.SameSize after' := h
      subst hsteps
      exact .ok ⟨rfl, Bindings.names_parameters_congr hsize.values, rfl⟩

namespace Selection

variable {s t : Selection}

namespace SameShape

/-- The nodes of selections of one shape are looked for alike. -/
lemma found_alike (h : s.SameShape t) : Alike s.found t.found := by
  rw [found, found, h.binder, h.label]
  exact (Filter.compile_alike h.filter t.binder).bind fun condition => .pure _

lemma select_alike (h : s.SameShape t) : Both Statement.SameText s.select t.select := by
  rw [select, select, itemNames, itemNames, items, items, h.columns, h.binder, h.distinct, h.orders,
    h.limit, h.offset]
  exact Alike.statement (h.found_alike.bind fun step => .pure _) _

lemma count_alike (h : s.SameShape t) : Both Statement.SameText s.count t.count := by
  rw [count, count, h.binder]
  exact Alike.statement (h.found_alike.bind fun step => .pure _) _

lemma exists_alike (h : s.SameShape t) : Both Statement.SameText s.exists? t.exists? := by
  rw [exists?, exists?, h.binder]
  exact Alike.statement (h.found_alike.bind fun step => .pure _) _

lemma update_alike (h : s.SameShape t) (values others : Row) :
    Both Statement.SameText (s.update values) (t.update others) := by
  rw [update, update, h.binder]
  exact Alike.statement (h.found_alike.bind fun step =>
    (InStep.value _ _).alike.bind fun parameter => .pure _) _

lemma delete_alike (h : s.SameShape t) : Both Statement.SameText s.delete t.delete := by
  rw [delete, delete, h.binder]
  exact Alike.statement (h.found_alike.bind fun step => .pure _) _

end SameShape

end Selection

lemma insert_sameText (label : String) (values others : Row) :
    (insert label values).SameText (insert label others) :=
  ⟨rfl, rfl, rfl⟩

lemma Aggregate.SameShape.isOk_validate {a a' : Aggregate} (h : a.SameShape a') :
    a.validate.isOk = a'.validate.isOk := by
  cases h with
  | refl => rfl
  | discrete h => exact h
  | continuous h => exact h

/-- The aggregate is computed alike once it is valid. -/
lemma Aggregate.SameShape.statement_alike {a a' : Aggregate} (ha : a.SameShape a')
    {s t : Selection} (h : s.SameShape t) (column : String) :
    Both Statement.SameText (a.statement s column) (a'.statement t column) := by
  have hvalid := ha.isOk_validate
  rw [statement, statement, h.binder, h.orders, h.limit, h.offset]
  generalize a.validate = r at hvalid ⊢
  generalize a'.validate = q at hvalid ⊢
  rcases r with e | u <;> rcases q with e' | u'
  · exact .error e e'
  · cases hvalid
  · cases hvalid
  · refine Alike.statement (h.found_alike.bind fun step => ?_) _
    cases ha with
    | refl =>
        cases a.fraction? with
        | none => exact .pure _
        | some fraction => exact (InStep.value _ _).alike.bind fun parameter => .pure _
    | discrete _ => exact (InStep.value _ _).alike.bind fun parameter => .pure _
    | continuous _ => exact (InStep.value _ _).alike.bind fun parameter => .pure _

/-- **No value enters the text of a statement.**  Two selections that differ in the values of their
filters alone, with whatever rows are to be written, both have a statement or both have none, and
the statements have one text and parameters of the same names. -/
theorem Selection.SameShape.statements {s t : Selection} (h : s.SameShape t) (values others : Row)
    {a a' : Aggregate} (ha : a.SameShape a') (column : String) :
    Both Statement.SameText s.select t.select ∧
      Both Statement.SameText s.count t.count ∧
      Both Statement.SameText s.exists? t.exists? ∧
      Both Statement.SameText (s.update values) (t.update others) ∧
      Both Statement.SameText s.delete t.delete ∧
      (insert s.label values).SameText (insert t.label others) ∧
      Both Statement.SameText (a.statement s column) (a'.statement t column) := by
  refine ⟨h.select_alike, h.count_alike, h.exists_alike, h.update_alike values others,
    h.delete_alike, ?_, ha.statement_alike h column⟩
  rw [h.label]
  exact insert_sameText t.label values others

/-- The users of a name, or not of some ages and with a mail address like a pattern. -/
def usersLike (name : String) (ages : List Value) (pattern : String) : Selection where
  label := "User"
  filter :=
    [⟨none, false, .equals "name" (.string name)⟩, ⟨some .or, true, .oneOf "age" ages⟩,
      ⟨some .and, false, .group [⟨none, false, .like "mail" pattern⟩]⟩]

/-- A name with quotes, another list and another pattern are sent with the text of plain ones. -/
theorem Selection.SameShape.statements_quotes :
    (usersLike "Ann" [.int 1] "a%").select.isOk ∧
      Both Statement.SameText (usersLike "Ann" [.int 1] "a%").select
        (usersLike "' OR 1 = 1 //" [.null, .string "$p0"] "$p1 OR '%").select := by
  have hpattern : (Value.string "a%").patternKind? = (Value.string "$p1 OR '%").patternKind? := by
    decide
  have hshape : (usersLike "Ann" [.int 1] "a%").SameShape
      (usersLike "' OR 1 = 1 //" [.null, .string "$p0"] "$p1 OR '%") := by
    refine ⟨rfl, rfl, ?_, rfl, rfl, rfl, rfl, rfl⟩
    refine ⟨⟨rfl, rfl, rfl, rfl, rfl⟩, ⟨rfl, rfl, rfl, rfl, rfl⟩, ⟨rfl, rfl, ?_⟩, trivial⟩
    exact ⟨⟨rfl, rfl, rfl, rfl, hpattern⟩, trivial⟩
  have hok : (usersLike "Ann" [.int 1] "a%").select.isOk := by decide +kernel
  exact ⟨hok, (Selection.SameShape.statements hshape [] [] (.refl .count) allColumns).1⟩

end GraphMapper
