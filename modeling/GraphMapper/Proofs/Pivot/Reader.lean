import GraphMapper.Proofs.Pivot.Keeping
import GraphMapper.Selection.Statement

/-!
Engines that read the statements of a relation.

* `DirectRelation.ReadBy`: each statement of the relation is read from its text;
* `Cypher.reader`: reads the texts of some forms, which say a statement up to its parameters;
* `DirectRelation.forms`: the forms of a relation's statements;
* `DirectRelation.readBy_forms` (**forms can be read**): they are read where their texts are different.
-/

namespace GraphMapper

open Cypher (Statement Step stepsText)

namespace Cypher

/-- Reads texts of the forms, the first of them that has the text. -/
def reader (forms : List (List Step)) (q : Query) : Option Statement :=
  (forms.find? fun steps => stepsText steps = q.text).map fun steps =>
    ⟨steps, q.parameters, q.columns⟩

/-- Where the texts are different, the text of a form is read as it. -/
lemma reader_query {forms : List (List Step)} (hdistinct : (forms.map stepsText).Nodup)
    {s : Statement} (hs : s.steps ∈ forms) : reader forms s.query = some s := by
  have hfind : forms.find? (fun steps => stepsText steps = s.query.text) = some s.steps := by
    induction forms with
    | nil => simp at hs
    | cons steps rest ih =>
        rw [List.map_cons, List.nodup_cons] at hdistinct
        rcases List.mem_cons.mp hs with rfl | hs
        · exact List.find?_cons_of_pos (decide_eq_true rfl)
        · have hne : stepsText steps ≠ s.query.text := fun heq =>
            hdistinct.1 (heq ▸ List.mem_map_of_mem hs)
          rw [List.find?_cons, decide_eq_false hne]
          exact ih hdistinct.2 hs
  rw [reader, hfind]
  rfl

end Cypher

/-! ### Statements of a relation -/

/-- The forms of the statements about one side. -/
def Side.forms (side : Side) : List (List Step) :=
  [(side.current .null).steps, (side.detach .null none).steps, (side.detach .null (some [])).steps,
    (side.update .null .null []).steps]

namespace DirectRelation

variable {d : DirectRelation} {reading : Query → Option Statement}

/-- Each statement of the relation is read from its text. -/
structure ReadBy (d : DirectRelation) (reading : Query → Option Statement) : Prop where
  current : ∀ parent s, d.currentKeys parent = .ok s → reading s.query = some s
  attach : ∀ now parent keys attributes ss, d.attach now parent keys attributes = .ok ss →
    ∀ s ∈ ss, reading s.query = some s
  detach : ∀ parent keys ss, d.detach parent keys = .ok ss → ∀ s ∈ ss, reading s.query = some s
  update : ∀ now parent v attributes ss, d.updatePivot now parent v attributes = .ok ss →
    ∀ s ∈ ss, reading s.query = some s
  insert : ∀ attributes, reading (GraphMapper.insert d.relatedLabel attributes).query =
    some (GraphMapper.insert d.relatedLabel attributes)

/-- The forms of the statements about pivot nodes. -/
def nodeForms (d : DirectRelation) : List (List Step) :=
  d.pivot.elim [] fun spec => (spec.attachment .null [] []).steps :: (Side.nodes spec).forms

/-- The forms of the statements about edges. -/
def edgeForms (d : DirectRelation) : List (List Step) :=
  d.strategy.edge?.elim [] fun (edge, parentKey, relatedKey) =>
    ((d.wiring edge parentKey relatedKey).attachment .null [] []).steps ::
      (Side.edges (d.wiring edge parentKey relatedKey)).forms

/-- The forms of the statements of a relation. -/
def forms (d : DirectRelation) : List (List Step) :=
  (GraphMapper.insert d.relatedLabel []).steps :: (d.nodeForms ++ d.edgeForms)

lemma mem_forms_of_node {steps : List Step} (h : steps ∈ d.nodeForms) : steps ∈ d.forms :=
  List.mem_cons_of_mem _ (List.mem_append_left _ h)

lemma mem_forms_of_edge {steps : List Step} (h : steps ∈ d.edgeForms) : steps ∈ d.forms :=
  List.mem_cons_of_mem _ (List.mem_append_right _ h)

/-- A statement about pivot nodes that is made is made from the pivot and a key. -/
lemma pivotSpec_bind_eq_ok {f : Pivot → Value → Statement} {key : Except Error Value} {s : Statement}
    (h : (do let spec ← d.pivotSpec
             let key ← key
             return f spec key) = Except.ok s) :
    ∃ spec k, d.pivot = some spec ∧ s = f spec k := by
  rw [pivotSpec] at h
  cases hpivot : d.pivot with
  | none => simp [hpivot, bind, Except.bind] at h
  | some spec =>
      cases key with
      | error e => simp [hpivot, bind, Except.bind] at h
      | ok k => exact ⟨spec, k, rfl, by simpa [hpivot, bind, Except.bind, pure, Except.pure,
          eq_comm] using h⟩

/-- A statement about edges that is made is made from a key. -/
lemma key_bind_eq_ok {f : Value → Statement} {key : Except Error Value} {s : Statement}
    (h : (do let key ← key
             return f key) = Except.ok s) : ∃ k, s = f k := by
  cases key with
  | error e => simp [bind, Except.bind] at h
  | ok k => exact ⟨k, by simpa [bind, Except.bind, pure, Except.pure, eq_comm] using h⟩

/-- Each of the statements that are made is about pivot nodes or about edges. -/
lemma bothSides_eq_ok {nodes : Keys → Except Error Statement}
    {edges : EdgeSpec → String → String → Except Error Statement} {ss : List Statement}
    (h : d.bothSides nodes edges = .ok ss) {s : Statement} (hs : s ∈ ss) :
    (∃ keys, nodes keys = .ok s) ∨
      ∃ edge parentKey relatedKey, d.strategy.edge? = some (edge, parentKey, relatedKey) ∧
        edges edge parentKey relatedKey = .ok s := by
  rw [bothSides] at h
  cases hstrategy : d.strategy with
  | foreignKey keys =>
      cases hnodes : nodes keys with
      | error e => simp [hstrategy, hnodes, bind, Except.bind] at h
      | ok t =>
          obtain rfl : [t] = ss := by
            simpa [hstrategy, hnodes, bind, Except.bind, pure, Except.pure] using h
          exact .inl ⟨keys, List.mem_singleton.mp hs ▸ hnodes⟩
  | nativeEdge edge parentKey relatedKey =>
      cases hedges : edges edge parentKey relatedKey with
      | error e => simp [hstrategy, hedges, bind, Except.bind] at h
      | ok t =>
          obtain rfl : [t] = ss := by
            simpa [hstrategy, hedges, bind, Except.bind, pure, Except.pure] using h
          exact .inr ⟨edge, parentKey, relatedKey, rfl, List.mem_singleton.mp hs ▸ hedges⟩
  | hybrid keys edge parentKey relatedKey =>
      cases hnodes : nodes keys with
      | error e => simp [hstrategy, hnodes, bind, Except.bind] at h
      | ok t =>
          cases hedges : edges edge parentKey relatedKey with
          | error e => simp [hstrategy, hnodes, hedges, bind, Except.bind] at h
          | ok u =>
              obtain rfl : [t, u] = ss := by
                simpa [hstrategy, hnodes, hedges, bind, Except.bind, pure, Except.pure] using h
              rcases List.mem_pair.mp hs with rfl | rfl
              · exact .inl ⟨keys, hnodes⟩
              · exact .inr ⟨edge, parentKey, relatedKey, rfl, hedges⟩

lemma mem_nodeForms {spec : Pivot} (hpivot : d.pivot = some spec) {steps : List Step}
    (h : steps ∈ (spec.attachment .null [] []).steps :: (Side.nodes spec).forms) :
    steps ∈ d.nodeForms := by
  rw [nodeForms, hpivot]
  exact h

lemma mem_edgeForms {edge : EdgeSpec} {parentKey relatedKey : String}
    (hedge : d.strategy.edge? = some (edge, parentKey, relatedKey)) {steps : List Step}
    (h : steps ∈ ((d.wiring edge parentKey relatedKey).attachment .null [] []).steps ::
      (Side.edges (d.wiring edge parentKey relatedKey)).forms) :
    steps ∈ d.edgeForms := by
  rw [edgeForms, hedge]
  exact h

/-- **Forms can be read**: where the texts of its forms are different, a relation is read from them. -/
theorem readBy_forms (hdistinct : (d.forms.map stepsText).Nodup) :
    d.ReadBy (Cypher.reader d.forms) where
  current parent s hs := by
    refine Cypher.reader_query hdistinct ?_
    rw [currentKeys] at hs
    cases hstrategy : d.strategy with
    | foreignKey keys =>
        rw [hstrategy] at hs
        obtain ⟨spec, k, hpivot, rfl⟩ := pivotSpec_bind_eq_ok hs
        exact mem_forms_of_node (mem_nodeForms hpivot (.tail _ (.head _)))
    | nativeEdge edge parentKey relatedKey =>
        rw [hstrategy] at hs
        obtain ⟨k, rfl⟩ := key_bind_eq_ok hs
        exact mem_forms_of_edge (mem_edgeForms (hstrategy ▸ rfl) (.tail _ (.head _)))
    | hybrid keys edge parentKey relatedKey =>
        rw [hstrategy] at hs
        obtain ⟨k, rfl⟩ := key_bind_eq_ok hs
        exact mem_forms_of_edge (mem_edgeForms (hstrategy ▸ rfl) (.tail _ (.head _)))
  attach now parent keys attributes ss hss s hs := by
    refine Cypher.reader_query hdistinct ?_
    rw [attach] at hss
    split_ifs at hss with hnone
    · cases hss
      cases hs
    · rcases bothSides_eq_ok hss hs with ⟨keys, hs⟩ | ⟨edge, parentKey, relatedKey, hedge, hs⟩
      · obtain ⟨spec, k, hpivot, rfl⟩ := pivotSpec_bind_eq_ok hs
        exact mem_forms_of_node (mem_nodeForms hpivot (.head _))
      · obtain ⟨k, rfl⟩ := key_bind_eq_ok hs
        exact mem_forms_of_edge (mem_edgeForms hedge (.head _))
  detach parent keys ss hss s hs := by
    refine Cypher.reader_query hdistinct ?_
    rw [detach] at hss
    split_ifs at hss with hnone
    · cases hss
      cases hs
    · rcases bothSides_eq_ok hss hs with ⟨_, hs⟩ | ⟨edge, parentKey, relatedKey, hedge, hs⟩
      · obtain ⟨spec, k, hpivot, rfl⟩ := pivotSpec_bind_eq_ok hs
        refine mem_forms_of_node (mem_nodeForms hpivot ?_)
        cases keys with
        | none => exact .tail _ (.tail _ (.head _))
        | some keys => exact .tail _ (.tail _ (.tail _ (.head _)))
      · obtain ⟨k, rfl⟩ := key_bind_eq_ok hs
        refine mem_forms_of_edge (mem_edgeForms hedge ?_)
        cases keys with
        | none => exact .tail _ (.tail _ (.head _))
        | some keys => exact .tail _ (.tail _ (.tail _ (.head _)))
  update now parent v attributes ss hss s hs := by
    refine Cypher.reader_query hdistinct ?_
    rw [updatePivot] at hss
    rcases bothSides_eq_ok hss hs with ⟨keys, hs⟩ | ⟨edge, parentKey, relatedKey, hedge, hs⟩
    · obtain ⟨spec, k, hpivot, rfl⟩ := pivotSpec_bind_eq_ok hs
      exact mem_forms_of_node
        (mem_nodeForms hpivot (.tail _ (.tail _ (.tail _ (.tail _ (.head _))))))
    · obtain ⟨k, rfl⟩ := key_bind_eq_ok hs
      exact mem_forms_of_edge
        (mem_edgeForms hedge (.tail _ (.tail _ (.tail _ (.tail _ (.head _))))))
  insert _ := Cypher.reader_query hdistinct List.mem_cons_self

end DirectRelation

end GraphMapper
