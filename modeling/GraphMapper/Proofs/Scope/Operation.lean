import GraphMapper.Proofs.Scope.Relation

/-!
The statements of pivots, associations and new nodes.

* `Statement.Sound`: a statement that is closed and has just the parameters that it asks for;
* `Spots`: patterns that show a pivot and the keys of both its sides;
* `Yields`: computations that never fail for want of a pivot, with what they give;
* `DirectRelation.Legible.yields_currentKeys`, `yields_attach`, `yields_detach`, `yields_updatePivot`:
  operations on pivots;
* `DirectRelation.yields_change`, `DirectRelation.Legible.yields_creation`, `sound_insert`: waiting
  changes and new nodes;
* `Relation.Accepted.pivotKept`: relations that are accepted keep the pivots that they need.
-/

namespace GraphMapper

open Cypher (Change Expr Item Match Pattern Projection Property Statement Step Term Unmarked
  conditionsScoped_iff conditionsTidy patternsIntroduce routeScoped stepsScoped unmarked_append)

/-! ### Parameters by number -/

lemma tidy_p0 : (Term.parameter "p0").Tidy := isPlain_parameterName 0

lemma tidy_p1 : (Term.parameter "p1").Tidy := isPlain_parameterName 1

lemma tidy_p2 : (Term.parameter "p2").Tidy := isPlain_parameterName 2

lemma tidy_relatedKey : (Term.bound relatedKeyColumn).Tidy := by
  simp only [Term.Tidy]
  decide

lemma names_two : (List.range 2).map Bindings.parameterName = ["p0", "p1"] := by decide

lemma names_three : (List.range 3).map Bindings.parameterName = ["p0", "p1", "p2"] := by decide

/-- A statement that is closed and has just the parameters that it asks for. -/
structure Cypher.Statement.Sound (s : Statement) : Prop where
  closed : s.Closed
  bound : s.Bound

/-- Steps in scope that ask for a parameter for each value. -/
lemma sound_numbered {values : List Value} {steps : List Step} (columns : List String)
    (hscoped : stepsScoped [] steps)
    (htells : StepsTell steps ((List.range values.length).map Bindings.parameterName)) :
    (numbered values steps columns).Sound :=
  ⟨hscoped, numbered_bound columns htells⟩

/-! ### Pivots that are there -/

/-- A pattern that introduces a variable and the owners of two columns. -/
structure Spots (pattern : Pattern) (binder : String) (ofParent ofRelated : Property) : Prop where
  uses : pattern.uses = []
  bound : binder ∈ pattern.introduces
  parent : ofParent.owner ∈ pattern.introduces
  related : ofRelated.owner ∈ pattern.introduces
  text : Unmarked pattern.text
  binderText : Unmarked binder
  parentText : Unmarked ofParent.text
  relatedText : Unmarked ofRelated.text

namespace Spots

variable {pattern : Pattern} {binder : String} {ofParent ofRelated : Property}

/-- A match of the pattern under conditions on the two columns, and steps about what it finds. -/
lemma sound (h : Spots pattern binder ofParent ofRelated) {conditions : List Expr}
    {later : List Step} {values : List Value} (columns ps : List String)
    (hconditions : ∀ e ∈ conditions, e.Scoped False [pattern.target.binder] pattern.introduces)
    (htidy : conditionsTidy conditions) (hlater : stepsScoped pattern.introduces later)
    (htells : StepsTell later ps)
    (hps : Cypher.conditionsParameters conditions ++ ps =
      (List.range values.length).map Bindings.parameterName) :
    (numbered values (.find ⟨pattern, conditions⟩ :: later) columns).Sound := by
  refine sound_numbered columns ⟨?_, by simpa [Step.after] using hlater⟩ (hps ▸ ?_)
  · rw [Step.Scoped, routeScoped, conditionsScoped_iff, h.uses]
    exact ⟨List.nil_subset _, by simpa using hconditions, trivial⟩
  · have hfind : (Step.find ⟨pattern, conditions⟩).Tidy := ⟨h.text, htidy⟩
    exact (stepsTell_singleton hfind).append htells

variable (h : Spots pattern binder ofParent ofRelated)

include h

/-- The pivot is deleted. -/
lemma tells_delete : StepsTell [.delete binder] [] :=
  have hdelete : (Step.delete binder).Tidy := h.binderText
  stepsTell_singleton hdelete

/-- Reading the related keys of a parent. -/
lemma read (key : Value) (columns : List String) :
    (numbered [key] [.find ⟨pattern, [.equals ofParent (.parameter "p0")]⟩,
      .project false [.named (.property ofRelated) relatedKeyColumn]] columns).Sound := by
  have hitem : (Item.named (.property ofRelated) relatedKeyColumn).Tidy :=
    tidy_named (by decide) h.relatedText (by simp)
  refine h.sound columns [] ?_ ?_ ?_ ?_ rfl
  · simp [Expr.equals, Expr.Scoped, Term.uses, h.parent]
  · exact ⟨⟨h.parentText, tidy_p0⟩, trivial⟩
  · simp [stepsScoped, Step.Scoped, Item.named, Projection.uses, h.related]
  · exact ⟨by simpa [Step.Tidy] using hitem, rfl⟩

/-- Deleting what belongs to a parent, or to a parent and some related keys. -/
lemma delete (key : Value) :
    (numbered [key] [.find ⟨pattern, [.equals ofParent (.parameter "p0")]⟩,
      .delete binder]).Sound := by
  refine h.sound [] [] ?_ ?_ ?_ ?_ rfl
  · simp [Expr.equals, Expr.Scoped, Term.uses, h.parent]
  · exact ⟨⟨h.parentText, tidy_p0⟩, trivial⟩
  · exact ⟨h.bound, trivial⟩
  · exact h.tells_delete

lemma deleteAmong (key : Value) (keys : List Value) :
    (numbered [key, .array keys] [.find ⟨pattern,
      [.equals ofParent (.parameter "p0"), .oneOf ofRelated "p1"]⟩, .delete binder]).Sound := by
  refine h.sound [] [] ?_ ?_ ?_ ?_ names_two.symm
  · simp [Expr.equals, Expr.oneOf, Expr.Scoped, Term.uses, h.parent, h.related]
  · exact ⟨⟨h.parentText, tidy_p0⟩, ⟨h.relatedText, tidy_p1⟩, trivial⟩
  · exact ⟨h.bound, trivial⟩
  · exact h.tells_delete

/-- Setting properties of what belongs to a parent and a related key. -/
lemma update (key relatedKey : Value) (attributes : Row) (columns : List String) :
    (numbered [key, relatedKey, .object attributes] [.find ⟨pattern,
        [.equals ofParent (.parameter "p0"), .equals ofRelated (.parameter "p1")]⟩,
      .set [.extend binder "p2"],
      .project false [.named (.count binder) affectedColumn]] columns).Sound := by
  have hcount : Unmarked (Projection.count binder).text := by
    rw [Projection.text, unmarked_append, unmarked_append]
    exact ⟨⟨by decide, h.binderText⟩, by decide⟩
  have hitem : (Item.named (.count binder) affectedColumn).Tidy :=
    tidy_named (by decide) hcount (by simp)
  have hset : (Change.extend binder "p2").Tidy := ⟨h.binderText, tidy_p2⟩
  refine h.sound columns ["p2"] ?_ ?_ ?_ ⟨?_, rfl⟩ names_three.symm
  · simp [Expr.equals, Expr.Scoped, Term.uses, h.parent, h.related]
  · exact ⟨⟨h.parentText, tidy_p0⟩, ⟨h.relatedText, tidy_p1⟩, trivial⟩
  · simp [stepsScoped, Step.Scoped, Step.after, Change.uses, Item.named, Projection.uses, h.bound]
  · simpa [Step.Tidy] using ⟨hset, hitem⟩

end Spots

section

attribute [local simp] stepsScoped Step.Scoped Step.after routeScoped conditionsScoped_iff
  Expr.equals Expr.oneOf Expr.Scoped Change.uses Projection.uses Item.named Term.uses nodePattern
  EdgeSpec.between EdgeSpec.creating Pattern.uses Pattern.introduces Cypher.Node.uses
  Cypher.Node.introduces Cypher.Edge.introduces parentVariable relatedVariable pivotVariable
  edgeVariable relatedKeyColumn

/-! ### Single steps -/

/-- The node of a label that has a value in a column. -/
lemma tidy_found {binder label column : String} {value : Term} (hb : Unmarked binder)
    (hl : Unmarked label) (hc : PlainColumn column) (hv : value.Tidy) :
    (Step.find ⟨nodePattern binder label, [.equals ⟨binder, column⟩ value]⟩).Tidy :=
  ⟨unmarked_nodePattern hb hl, ⟨hc.text hb, hv⟩, trivial⟩

/-- An edge that is made between two nodes. -/
lemma tidy_joined {edge : EdgeSpec} {left binder right : String} (hl : Unmarked left)
    (htype : Unmarked edge.edgeType) (hb : Unmarked binder) (hr : Unmarked right) :
    (Step.create (edge.creating ⟨left, none⟩ binder ⟨right, none⟩)).Tidy :=
  unmarked_path (unmarked_node hl none (by simp)) (unmarked_edge hb htype _)
    (unmarked_node hr none (by simp))

/-! ### Results -/

/-- A failure for want of a pivot. -/
def Error.WantsPivot (e : Error) : Prop :=
  ∃ name, e = .invalidRelation name .noPivot

/-- A computation that never fails for want of a pivot, and whose result, if there is one, is as
stated. -/
def Yields {α : Type} (r : Except Error α) (P : α → Prop) : Prop :=
  match r with
  | .ok a => P a
  | .error e => ¬ e.WantsPivot

namespace Yields

variable {α β : Type} {r : Except Error α} {P Q : α → Prop}

lemma pure {a : α} (h : P a) : Yields (Pure.pure a : Except Error α) P := h

lemma bind {R : β → Prop} {f : α → Except Error β} (h : Yields r P)
    (hf : ∀ a, P a → Yields (f a) R) : Yields (r >>= f) R := by
  cases r with
  | error e => exact h
  | ok a => exact hf a h

/-- The results for a list of things. -/
lemma mapM {f : β → Except Error α} {xs : List β} (h : ∀ x ∈ xs, Yields (f x) P) :
    Yields (xs.mapM f) fun as => ∀ a ∈ as, P a := by
  induction xs with
  | nil => exact .pure (by simp)
  | cons x rest ih =>
      rw [List.mapM_cons]
      refine (h x List.mem_cons_self).bind fun a ha => ?_
      refine (ih fun y hy => h y (List.mem_cons_of_mem x hy)).bind fun as has => .pure ?_
      exact List.forall_mem_cons.mpr ⟨ha, has⟩

lemma parentValue (relation : String) (parent : Row) (column : String) :
    Yields (GraphMapper.parentValue relation parent column) fun _ => True := by
  rw [GraphMapper.parentValue.eq_def]
  split
  · simp [Yields, Error.WantsPivot]
  · simp [Yields, Error.WantsPivot]
  · trivial

/-- Only many-to-many relations pass. -/
lemma manyToMany (r : Relation) (operation : String) :
    Yields (r.manyToMany operation) fun d => r = .direct d ∧ d.kind = .belongsToMany := by
  cases r with
  | through t => simp [Relation.manyToMany, Yields, Error.WantsPivot]
  | direct d =>
      rw [Relation.manyToMany]
      split_ifs with hkind
      · exact ⟨rfl, hkind⟩
      · simp [Yields, Error.WantsPivot]

end Yields

namespace DirectRelation

variable {d : DirectRelation}

/-- A many-to-many relation that keeps properties has a pivot. -/
def PivotKept (d : DirectRelation) : Prop :=
  d.strategy.keys?.isSome → d.pivot.isSome

lemma yields_pivotSpec (h : d.PivotKept) {keys : Keys} (hkeys : d.strategy.keys? = some keys) :
    Yields d.pivotSpec fun spec => d.pivot = some spec := by
  obtain ⟨spec, hspec⟩ := Option.isSome_iff_exists.mp (h (by rw [hkeys]; rfl))
  rw [pivotSpec, hspec]
  rfl

/-- What both sides of a relation yield. -/
lemma yields_bothSides {nodes : Keys → Except Error Statement}
    {edges : EdgeSpec → String → String → Except Error Statement}
    (hnodes : ∀ keys, d.strategy.keys? = some keys → Yields (nodes keys) Statement.Sound)
    (hedges : ∀ edge parentKey relatedKey,
      d.strategy.edge? = some (edge, parentKey, relatedKey) →
        Yields (edges edge parentKey relatedKey) Statement.Sound) :
    Yields (d.bothSides nodes edges) fun ss => ∀ s ∈ ss, s.Sound := by
  rw [bothSides.eq_def]
  cases hstrategy : d.strategy with
  | foreignKey keys =>
      refine (hnodes keys (by rw [hstrategy]; rfl)).bind fun s hs => .pure ?_
      simpa using hs
  | nativeEdge edge parentKey relatedKey =>
      refine (hedges edge parentKey relatedKey (by rw [hstrategy]; rfl)).bind fun s hs => .pure ?_
      simpa using hs
  | hybrid keys edge parentKey relatedKey =>
      refine (hnodes keys (by rw [hstrategy]; rfl)).bind fun s hs => ?_
      refine (hedges edge parentKey relatedKey (by rw [hstrategy]; rfl)).bind fun s' hs' => .pure ?_
      simpa using ⟨hs, hs'⟩

namespace Legible

variable (h : d.Legible)

include h

/-- The pivot node shows both its references. -/
lemma spots_pivot {spec : Pivot} (hspec : d.pivot = some spec) :
    Spots (nodePattern pivotVariable spec.label) pivotVariable (ofPivot spec.parentReference)
      (ofPivot spec.relatedReference) := by
  obtain ⟨hlabel, hparent, hrelated⟩ := h.pivot hspec
  rw [ofPivot, ofPivot, hparent.ofColumn, hrelated.ofColumn]
  constructor
  case text => exact unmarked_nodePattern pivot_unmarked hlabel
  case binderText => exact pivot_unmarked
  case parentText => exact hparent.text pivot_unmarked
  case relatedText => exact hrelated.text pivot_unmarked
  all_goals simp

/-- The edge between a parent and a related node shows the keys of both. -/
lemma spots_edge {edge : EdgeSpec} {parentKey relatedKey : String}
    (hedge : d.strategy.edge? = some (edge, parentKey, relatedKey)) {binder : String}
    (hb : Unmarked binder) (hne : binder ≠ "") :
    Spots (d.edgePattern edge binder) binder (Property.ofColumn parentVariable parentKey)
      (Property.ofColumn relatedVariable relatedKey) := by
  obtain ⟨htype, hparent, hrelated⟩ := h.edge hedge
  rw [hparent.ofColumn, hrelated.ofColumn, edgePattern, EdgeSpec.between]
  constructor
  case text =>
    exact unmarked_path (unmarked_nodePattern parent_unmarked h.parentLabel)
      (unmarked_edge hb htype _) (unmarked_nodePattern related_unmarked h.relatedLabel)
  case binderText => exact hb
  case parentText => exact hparent.text parent_unmarked
  case relatedText => exact hrelated.text related_unmarked
  all_goals simp [hne]

variable (hkept : d.PivotKept)

include hkept

lemma yields_currentKeys (parent : Row) : Yields (d.currentKeys parent) Statement.Sound := by
  have hne : pivotVariable ≠ "" := by decide
  rw [currentKeys.eq_def]
  cases hstrategy : d.strategy with
  | foreignKey keys =>
      have hkeys : d.strategy.keys? = some keys := by rw [hstrategy]; rfl
      refine (yields_pivotSpec hkept hkeys).bind fun spec hspec => ?_
      exact (Yields.parentValue _ _ _).bind fun key _ => .pure ((h.spots_pivot hspec).read key _)
  | nativeEdge edge parentKey relatedKey =>
      have hspots := h.spots_edge (by rw [hstrategy]; rfl) pivot_unmarked hne
      exact (Yields.parentValue _ _ _).bind fun key _ => .pure (hspots.read key _)
  | hybrid keys edge parentKey relatedKey =>
      have hspots := h.spots_edge (by rw [hstrategy]; rfl) pivot_unmarked hne
      exact (Yields.parentValue _ _ _).bind fun key _ => .pure (hspots.read key _)

/-! ### Attaching -/

/-- Steps that make a pivot node for each of some related keys. -/
lemma yields_attachNodes {keys : Keys} (hkeys : d.strategy.keys? = some keys) (parent : Row)
    (relatedKeys : List Value) (attributes : Row) :
    Yields (d.attachNodes keys parent relatedKeys attributes) Statement.Sound := by
  rw [attachNodes]
  refine (yields_pivotSpec hkept hkeys).bind fun spec hspec => ?_
  refine (Yields.parentValue _ _ _).bind fun key _ => .pure ?_
  obtain ⟨hlabel, -, hrelated⟩ := h.pivot hspec
  rw [ofPivot, hrelated.ofColumn]
  refine sound_numbered [] ?_ ⟨?_, names_two.symm⟩
  · simp
  · have hunwind : (Step.unwind "p0" relatedKeyColumn).Tidy := ⟨tidy_p0, by decide⟩
    have hcreate : (Step.create (nodePattern pivotVariable spec.label)).Tidy :=
      unmarked_nodePattern pivot_unmarked hlabel
    have hreplace : (Change.replace pivotVariable "p1").Tidy := ⟨pivot_unmarked, tidy_p1⟩
    have hassign : (Change.assign ⟨pivotVariable, spec.relatedReference⟩
        (.bound relatedKeyColumn)).Tidy := ⟨hrelated.text pivot_unmarked, tidy_relatedKey⟩
    simpa [Step.Tidy] using ⟨hunwind, hcreate, hreplace, hassign⟩

omit hkept in
/-- Steps that make an edge to each node with one of some related keys. -/
lemma yields_attachEdges {edge : EdgeSpec} {parentKey relatedKey : String}
    (hedge : d.strategy.edge? = some (edge, parentKey, relatedKey)) (parent : Row)
    (relatedKeys : List Value) (attributes : Row) :
    Yields (d.attachEdges edge parentKey relatedKey parent relatedKeys attributes)
      Statement.Sound := by
  rw [attachEdges]
  refine (Yields.parentValue _ _ _).bind fun key _ => .pure ?_
  obtain ⟨htype, hparent, hrelated⟩ := h.edge hedge
  rw [hparent.ofColumn, hrelated.ofColumn]
  refine sound_numbered [] ?_ ⟨?_, names_three.symm⟩
  · simp
  · have hunwind : (Step.unwind "p1" relatedKeyColumn).Tidy := ⟨tidy_p1, by decide⟩
    have hreplace : (Change.replace pivotVariable "p2").Tidy := ⟨pivot_unmarked, tidy_p2⟩
    have hparentFound := tidy_found parent_unmarked h.parentLabel hparent tidy_p0
    have hrelatedFound := tidy_found related_unmarked h.relatedLabel hrelated tidy_relatedKey
    have hcreate := tidy_joined parent_unmarked htype pivot_unmarked related_unmarked
    simpa [Step.Tidy] using ⟨hparentFound, hunwind, hrelatedFound, hcreate, hreplace⟩

/-! ### Operations on pivots -/

lemma yields_attach (now : String) (parent : Row) (relatedKeys : List Value) (attributes : Row) :
    Yields (d.attach now parent relatedKeys attributes) fun ss => ∀ s ∈ ss, s.Sound := by
  rw [attach]
  split_ifs
  · simp [Yields]
  · exact yields_bothSides (fun keys hkeys => h.yields_attachNodes hkept hkeys _ _ _)
      fun edge parentKey relatedKey hedge => h.yields_attachEdges hedge _ _ _

omit h hkept in
lemma sound_detachFrom {pattern : Pattern} {ofParent ofRelated : Property}
    (hspots : Spots pattern pivotVariable ofParent ofRelated) (key : Value)
    (relatedKeys : Option (List Value)) :
    (detachFrom pattern ofParent ofRelated key relatedKeys).Sound := by
  cases relatedKeys with
  | none => exact hspots.delete key
  | some keys => exact hspots.deleteAmong key _

lemma yields_detach (parent : Row) (relatedKeys : Option (List Value)) :
    Yields (d.detach parent relatedKeys) fun ss => ∀ s ∈ ss, s.Sound := by
  rw [detach]
  split_ifs
  · simp [Yields]
  refine yields_bothSides (fun keys hkeys => ?_) fun edge parentKey relatedKey hedge => ?_
  · refine (yields_pivotSpec hkept hkeys).bind fun spec hspec => ?_
    exact (Yields.parentValue _ _ _).bind fun key _ =>
      .pure (sound_detachFrom (h.spots_pivot hspec) key _)
  · have hb : Unmarked pivotVariable := by decide
    have hspots := h.spots_edge hedge hb (by decide)
    exact (Yields.parentValue _ _ _).bind fun key _ => .pure (sound_detachFrom hspots key _)

lemma yields_updatePivot (now : String) (parent : Row) (relatedKey : Value) (attributes : Row) :
    Yields (d.updatePivot now parent relatedKey attributes) fun ss => ∀ s ∈ ss, s.Sound := by
  rw [updatePivot]
  refine yields_bothSides (fun keys hkeys => ?_) fun edge parentKey relatedColumn hedge => ?_
  · refine (yields_pivotSpec hkept hkeys).bind fun spec hspec => ?_
    exact (Yields.parentValue _ _ _).bind fun key _ =>
      .pure ((h.spots_pivot hspec).update key _ _ _)
  · have hb : Unmarked pivotVariable := by decide
    have hspots := h.spots_edge hedge hb (by decide)
    exact (Yields.parentValue _ _ _).bind fun key _ => .pure (hspots.update key _ _ _)

end Legible

/-! ### Associations -/

namespace Legible

variable (h : d.Legible)

include h

/-- The change that sets the foreign key of the record. -/
lemma tidy_refer {keys : Keys} (hkeys : d.strategy.keys? = some keys) {parameter : String}
    (hp : (Term.parameter parameter).Tidy) :
    (Change.assign (Property.ofColumn "parent" keys.foreignKey) (.parameter parameter)).Tidy := by
  obtain ⟨-, hforeign⟩ := h.keys hkeys
  rw [hforeign.ofColumn]
  exact ⟨hforeign.text (by decide), hp⟩

lemma sound_link {edge : EdgeSpec} {recordKey ownerKey : String}
    (hedge : d.strategy.edge? = some (edge, recordKey, ownerKey)) (value owner : Value) :
    (link d edge recordKey ownerKey value owner).Sound := by
  obtain ⟨htype, hrecord, howner⟩ := h.edge hedge
  have hrecordFound := tidy_found parent_unmarked h.parentLabel hrecord tidy_p0
  have hownerFound := tidy_found related_unmarked h.relatedLabel howner tidy_p1
  have hcreate := tidy_joined parent_unmarked htype edge_unmarked related_unmarked
  have hlinked : (Item.named .truth "linked").Tidy := tidy_named (by decide) (by decide) (by simp)
  rw [link, recordStep, hrecord.ofColumn, howner.ofColumn]
  cases hkeys : d.strategy.keys? with
  | none =>
      refine sound_numbered [] ?_ ⟨?_, names_two.symm⟩
      · simp [referStep]
      · simpa [referStep, Step.Tidy] using ⟨hrecordFound, hownerFound, hcreate, hlinked⟩
  | some keys =>
      obtain ⟨-, hforeign⟩ := h.keys hkeys
      have hrefer := h.tidy_refer hkeys tidy_p2
      refine sound_numbered [] ?_ ⟨?_, names_three.symm⟩
      · simp [referStep, hforeign.ofColumn]
      · simpa [referStep, Step.Tidy] using ⟨hrecordFound, hownerFound, hcreate, hrefer, hlinked⟩

lemma sound_clearReference {edge : EdgeSpec} {recordKey ownerKey : String} {keys : Keys}
    (hedge : d.strategy.edge? = some (edge, recordKey, ownerKey))
    (hkeys : d.strategy.keys? = some keys) (value : Value) :
    (clearReference d keys recordKey value).Sound := by
  obtain ⟨-, hrecord, -⟩ := h.edge hedge
  obtain ⟨-, hforeign⟩ := h.keys hkeys
  have hrecordFound := tidy_found parent_unmarked h.parentLabel hrecord tidy_p0
  have hrefer := h.tidy_refer hkeys tidy_p1
  rw [clearReference, recordStep, referStep, hrecord.ofColumn]
  refine sound_numbered [] ?_ ⟨?_, names_two.symm⟩
  · simp [hforeign.ofColumn]
  · simpa [Step.Tidy] using ⟨hrecordFound, hrefer⟩

lemma sound_unlink {edge : EdgeSpec} {recordKey ownerKey : String}
    (hedge : d.strategy.edge? = some (edge, recordKey, ownerKey)) (value : Value) :
    (unlink d edge recordKey value).Sound :=
  (h.spots_edge hedge edge_unmarked (by decide)).delete value

end Legible

/-- The statements of a change that waits. -/
lemma yields_change {change : EdgeChange} (h : change.relation.Legible) (attributes : Row) :
    Yields (change.statements attributes) fun ls => ∀ l ∈ ls, l.statement.Sound := by
  rw [EdgeChange.statements]
  cases hedge : change.relation.strategy.edge? with
  | none => simp [Yields]
  | some spot =>
      obtain ⟨edge, recordKey, ownerKey⟩ := spot
      refine (Yields.parentValue _ _ _).bind fun value _ => ?_
      have hunlink := h.sound_unlink hedge value
      cases change with
      | associate d owner =>
          have hlink := h.sound_link hedge value owner
          exact .pure (List.forall_mem_cons.mpr ⟨hunlink, List.forall_mem_singleton.mpr hlink⟩)
      | dissociate d =>
          cases hkeys : d.strategy.keys? with
          | none =>
              simp only [EdgeChange.relation, hkeys]
              exact .pure (List.forall_mem_singleton.mpr hunlink)
          | some keys =>
              have hclear := h.sound_clearReference hedge hkeys value
              simp only [EdgeChange.relation, hkeys]
              exact .pure (List.forall_mem_cons.mpr ⟨hunlink, List.forall_mem_singleton.mpr hclear⟩)

/-! ### New nodes -/

namespace Legible

variable (h : d.Legible)

include h

/-- A node by itself. -/
lemma sound_made (attributes : Row) :
    (numbered [.object attributes]
      [.create (nodePattern relatedVariable d.relatedLabel), .set [.replace relatedVariable "p0"],
        .project false [.named (.properties relatedVariable) relatedVariable]]
      [relatedVariable]).Sound := by
  have hnode : (Step.create (nodePattern relatedVariable d.relatedLabel)).Tidy :=
    unmarked_nodePattern related_unmarked h.relatedLabel
  have hreplace : (Change.replace relatedVariable "p0").Tidy := ⟨related_unmarked, tidy_p0⟩
  have hback : (Item.named (.properties relatedVariable) relatedVariable).Tidy :=
    tidy_named related_unmarked (by decide) (by simp)
  refine sound_numbered _ (by simp) ⟨?_, rfl⟩
  simpa [Step.Tidy] using ⟨hnode, hreplace, hback⟩

/-- A node with an edge to its parent. -/
lemma sound_tied {edge : EdgeSpec} {parentKey relatedKey : String}
    (hedge : d.strategy.edge? = some (edge, parentKey, relatedKey)) (key : Value)
    (attributes : Row) :
    (numbered [key, .object attributes]
      [.find ⟨nodePattern parentVariable d.parentLabel,
          [.equals (Property.ofColumn parentVariable parentKey) (.parameter "p0")]⟩,
        .create (nodePattern relatedVariable d.relatedLabel), .set [.replace relatedVariable "p1"],
        .create (edge.creating ⟨parentVariable, none⟩ edgeVariable ⟨relatedVariable, none⟩),
        .project false [.named (.properties relatedVariable) relatedVariable]]
      [relatedVariable]).Sound := by
  obtain ⟨htype, hparent, -⟩ := h.edge hedge
  have hfound := tidy_found parent_unmarked h.parentLabel hparent tidy_p0
  have hnode : (Step.create (nodePattern relatedVariable d.relatedLabel)).Tidy :=
    unmarked_nodePattern related_unmarked h.relatedLabel
  have hreplace : (Change.replace relatedVariable "p1").Tidy := ⟨related_unmarked, tidy_p1⟩
  have hcreate := tidy_joined parent_unmarked htype edge_unmarked related_unmarked
  have hback : (Item.named (.properties relatedVariable) relatedVariable).Tidy :=
    tidy_named related_unmarked (by decide) (by simp)
  rw [hparent.ofColumn]
  refine sound_numbered _ (by simp) ⟨?_, names_two.symm⟩
  simpa [Step.Tidy] using ⟨hfound, hnode, hreplace, hcreate, hback⟩

/-- The statement that makes a related node. -/
lemma yields_creation (parent attributes : Row) :
    Yields (d.creation parent attributes) Statement.Sound := by
  rw [creation]
  cases d.strategy.keys? with
  | none =>
      cases hedge : d.strategy.edge? with
      | none => exact .pure (h.sound_made _)
      | some spot =>
          exact (Yields.parentValue _ _ _).bind fun key _ => .pure (h.sound_tied hedge key _)
  | some keys =>
      refine (Yields.parentValue _ _ _).bind fun value _ => ?_
      cases hedge : d.strategy.edge? with
      | none => exact .pure (h.sound_made _)
      | some spot =>
          exact (Yields.parentValue _ _ _).bind fun key _ => .pure (h.sound_tied hedge key _)

end Legible

end DirectRelation

/-- A new node of a label. -/
lemma sound_insert {label : String} (h : Unmarked label) (properties : Row) :
    (insert label properties).Sound :=
  ⟨by simp [Statement.Closed, insert], insert_bound h properties⟩

end

/-! ### Accepted relations -/

/-- A relation that is declared keeps its pivots. -/
lemma Declaration.build_pivotKept {declaration : Declaration} {d : DirectRelation}
    (h : declaration.build = .ok d) (hkind : d.kind = .belongsToMany) : d.PivotKept := by
  intro hkeys
  obtain ⟨keys, hkeys⟩ := Option.isSome_iff_exists.mp hkeys
  obtain ⟨spec, hspec⟩ := Declaration.build_pivot h hkind hkeys
  exact Option.isSome_of_eq_some hspec

/-- The many-to-many relations among those that are accepted keep their pivots. -/
lemma Relation.Accepted.pivotKept {r : Relation} (h : r.Accepted) {d : DirectRelation}
    (hd : r = .direct d) (hkind : d.kind = .belongsToMany) : d.PivotKept := by
  induction h generalizing d with
  | built h =>
      obtain rfl := Relation.direct.inj hd
      exact Declaration.build_pivotKept h hkind
  | composed h =>
      obtain ⟨_, _, _, -, -, rfl⟩ := compose_eq_ok h
      cases hd
  | @constrained r _ filter ih =>
      cases r with
      | through t => cases hd
      | direct d' =>
          obtain rfl := Relation.direct.inj hd
          exact ih (d := d') rfl hkind
  | @ordered r _ column direction ih =>
      cases r with
      | through t => cases hd
      | direct d' =>
          obtain rfl := Relation.direct.inj hd
          exact ih (d := d') rfl hkind

end GraphMapper
