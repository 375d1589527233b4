import GraphMapper.Proofs.Scope.Asking

/-!
The statements of relations are closed.

* `Query.Closed`: a query written from a statement in which every variable is introduced before it is
  spoken of, and which has just the parameters that it asks for;
* `Relation.Clear`: accepted relations without dollar signs in their names, whose columns name no
  variable;
* `Relation.Speaks`: what the operations on a relation have the engine run;
* `Relation.clear_speaks` (**the statements of relations are closed**).
-/

namespace GraphMapper

open Cypher (Statement Unmarked)

/-- A query written from a closed statement that has just the parameters that it asks for. -/
def Query.Closed (q : Query) : Prop :=
  ∃ s : Statement, s.Sound ∧ s.query = q

lemma Cypher.Statement.Sound.query_closed {s : Statement} (h : s.Sound) : s.query.Closed :=
  ⟨s, h, rfl⟩

/-! ### Runs of statements -/

namespace Client

/-- Statements that are run one after the other. -/
lemma asks_runAll {statements : List Statement} (h : ∀ s ∈ statements, s.Sound) (handle : Handle) :
    Asks Query.Closed (runAll handle statements : Action Script (List Row)) fun _ => True := by
  induction statements with
  | nil => exact .result trivial
  | cons s rest ih =>
      obtain ⟨hs, hrest⟩ := List.forall_mem_cons.mp h
      refine (asks_runIn handle.owner hs.query_closed).bind fun rows _ => ?_
      exact (ih hrest).bind fun _ _ => .result trivial

/-- A node that is not there is not a pivot that is not there. -/
lemma not_wantsPivot_notFound (entity : String) (ids : List String) :
    ¬ (Error.notFound entity ids).WantsPivot := by
  simp [Error.WantsPivot]

/-- Waiting changes that are written one after the other. -/
lemma asks_runLinks {links : List LinkStatement} (h : ∀ l ∈ links, l.statement.Sound)
    (handle : Handle) :
    Asks Query.Closed (runLinks handle links : Action Script Unit) fun _ => True := by
  induction links with
  | nil => exact .result trivial
  | cons l rest ih =>
      obtain ⟨hl, hrest⟩ := List.forall_mem_cons.mp h
      refine (asks_runIn handle.owner hl.query_closed).bind fun rows _ => ?_
      cases l.linksTo with
      | none => exact ih hrest
      | some target =>
          dsimp only
          split_ifs
          · exact .fail (not_wantsPivot_notFound _ _)
          · exact ih hrest

/-- The record in a column of a row is there, or it is not properties. -/
lemma yields_ofColumn (label : String) (row : Row) (column : String) :
    Yields (Record.ofColumn label row column).1 fun _ => True := by
  rw [Record.ofColumn]
  dsimp only
  split
  · trivial
  · simp [Yields, Error.WantsPivot]

lemma yields_createdRow (label : String) (rows : List Row) :
    Yields (createdRow label rows) fun _ => True := by
  rw [createdRow]
  split
  · trivial
  · simp [Yields, Error.WantsPivot]

/-- Only relations over one hop that do not lead to an owner pass. -/
lemma yields_creatable (r : Relation) : Yields (creatable r) fun d => r = .direct d := by
  cases r with
  | through t => simp [creatable, Yields, Error.WantsPivot]
  | direct d =>
      rw [creatable]
      split_ifs
      · simp [Yields, Error.WantsPivot]
      · rfl

variable {d : DirectRelation} (h : d.Legible)

include h

lemma asks_createAttached (hkept : d.PivotKept) (parent attributes pivot : Row) :
    Asks Query.Closed (createAttached d parent attributes pivot : Action Script Record)
      fun _ => True := by
  refine asks_write fun handle => ?_
  have hinsert := sound_insert h.relatedLabel attributes
  refine (asks_runIn handle.owner hinsert.query_closed).bind fun rows _ => ?_
  refine (Asks.ofExcept (yields_createdRow _ rows)).bind fun row _ => ?_
  refine (Asks.ofExcept (yields_ofColumn _ row _)).bind fun record _ => ?_
  cases record.get? d.relatedKey with
  | none => exact .fail (by simp [Error.WantsPivot])
  | some key =>
      refine (Asks.engine Script.answers_clock).bind fun now _ => ?_
      refine (Asks.ofExcept (h.yields_attach hkept now parent [key] pivot)).bind fun ss hss => ?_
      exact (asks_runAll hss handle).bind fun _ _ => .result trivial

lemma asks_createOwned (parent attributes : Row) :
    Asks Query.Closed (createOwned d parent attributes : Action Script Record) fun _ => True := by
  refine (Asks.ofExcept (h.yields_creation parent attributes)).bind fun s hs => ?_
  refine asks_write fun handle => ?_
  refine (asks_runIn handle.owner hs.query_closed).bind fun rows _ => ?_
  cases rows.getLast? with
  | some row => exact .ofExcept (yields_ofColumn _ row _)
  | none =>
      refine (Asks.ofExcept (Yields.parentValue _ _ _)).bind fun key _ => ?_
      exact .fail (not_wantsPivot_notFound _ _)

end Client

/-! ### Relations -/

/-- An accepted relation without dollar signs in its names, whose columns name no variable and whose
scope holds no text written by hand. -/
structure Relation.Clear (r : Relation) : Prop where
  accepted : r.Accepted
  legible : r.Legible

/-- **What a relation has the engine run**: each statement that an operation on it gives is closed and has
just the parameters that it asks for, and no operation fails for want of a pivot. -/
structure Relation.Speaks (r : Relation) : Prop where
  lookup : ∀ keys, Yields ((r.lookup keys).mapError .compile) fun l => l.statement.Sound
  currentKeys : ∀ parent,
    Yields (do (← r.manyToMany "sync").currentKeys parent) Statement.Sound
  attach : ∀ now parent relatedKeys attributes,
    Yields (do (← r.manyToMany "attach").attach now parent relatedKeys attributes)
      fun ss => ∀ s ∈ ss, s.Sound
  detach : ∀ parent relatedKeys,
    Yields (do (← r.manyToMany "detach").detach parent relatedKeys) fun ss => ∀ s ∈ ss, s.Sound
  updatePivot : ∀ now parent relatedKey attributes,
    Yields (do (← r.manyToMany "update_existing_pivot").updatePivot now parent relatedKey attributes)
      fun ss => ∀ s ∈ ss, s.Sound
  createRelated : ∀ parent attributes pivot,
    Asks Query.Closed (Client.createRelated r parent attributes pivot) fun _ => True

namespace Relation.Clear

variable {r : Relation}

/-- What a clear relation over one hop says of the hop. -/
lemma hop {d : DirectRelation} (h : (Relation.direct d).Clear) : d.Legible :=
  h.legible.hops d (by simp [Relation.hops])

/-- An operation on many-to-many relations. -/
lemma yields_manyToMany {α : Type} (h : r.Clear) {f : DirectRelation → Except Error α}
    {P : α → Prop} (hf : ∀ d : DirectRelation, d.Legible → d.PivotKept → Yields (f d) P)
    (operation : String) : Yields (r.manyToMany operation >>= f) P := by
  refine (Yields.manyToMany r operation).bind fun d hd => ?_
  obtain ⟨rfl, hkind⟩ := hd
  exact hf d h.hop (h.accepted.pivotKept rfl hkind)

lemma yields_lookup (h : r.Clear) (keys : List Value) :
    Yields ((r.lookup keys).mapError .compile) fun l => l.statement.Sound := by
  cases hl : r.lookup keys with
  | error e => simp [Yields, Except.mapError, Error.WantsPivot]
  | ok l =>
      obtain ⟨hclosed, hbound⟩ := h.legible.lookup h.accepted.hasPivots hl
      exact ⟨hclosed, hbound⟩

lemma asks_createRelated (h : r.Clear) (parent attributes : Row) (pivot : Option Row) :
    Asks Query.Closed (Client.createRelated r parent attributes pivot) fun _ => True := by
  refine (Asks.ofExcept (Client.yields_creatable r)).bind fun d hd => ?_
  obtain rfl := hd
  cases hkind : d.kind with
  | belongsToMany =>
      exact Client.asks_createAttached h.hop (h.accepted.pivotKept rfl hkind) _ _ _
  | _ => exact Client.asks_createOwned h.hop _ _

/-- What the operations on a clear relation have the engine run. -/
lemma speaks (h : r.Clear) : r.Speaks where
  lookup := h.yields_lookup
  currentKeys parent := h.yields_manyToMany (fun _ hd hkept => hd.yields_currentKeys hkept parent) _
  attach now parent relatedKeys attributes := h.yields_manyToMany
    (fun _ hd hkept => hd.yields_attach hkept now parent relatedKeys attributes) _
  detach parent relatedKeys := h.yields_manyToMany
    (fun _ hd hkept => hd.yields_detach hkept parent relatedKeys) _
  updatePivot now parent relatedKey attributes := h.yields_manyToMany
    (fun _ hd hkept => hd.yields_updatePivot hkept now parent relatedKey attributes) _
  createRelated := h.asks_createRelated

end Relation.Clear

/-- The waiting changes of a record, if all are of clear relations. -/
lemma asks_persistAssociations {record : Record}
    (h : ∀ change ∈ record.pending, (Relation.direct change.relation).Clear) :
    Asks Query.Closed (Client.persistAssociations record) fun _ => True := by
  rw [Client.persistAssociations]
  split_ifs
  · exact .result trivial
  · have hstatements := Yields.mapM (f := fun change => change.statements record.attributes)
      fun change hchange => DirectRelation.yields_change (h change hchange).hop record.attributes
    refine (Asks.ofExcept hstatements).bind fun links hlinks => ?_
    have hall : ∀ l ∈ links.flatten, l.statement.Sound := by
      intro l hl
      obtain ⟨ls, hls, hl⟩ := List.mem_flatten.mp hl
      exact hlinks ls hls l hl
    exact (Client.asks_write (Client.asks_runLinks hall)).bind fun _ _ => .result trivial

/-- **The statements of relations are closed**: whatever is asked of a relation that was accepted, in each
statement that the engine is asked to run every variable is introduced before it is spoken of, every
placeholder has its parameter and every parameter its placeholder, and nothing fails for want of a pivot. -/
theorem Relation.clear_speaks :
    (∀ r : Relation, r.Clear → r.Speaks) ∧
      ∀ record : Record, (∀ change ∈ record.pending, (Relation.direct change.relation).Clear) →
        Asks Query.Closed (Client.persistAssociations record) fun _ => True :=
  ⟨fun _ => Clear.speaks, fun _ => asks_persistAssociations⟩

/-- The roles of a user, kept both ways: those of an active team, by name. -/
def userRoles : DirectRelation where
  name := "roles"
  kind := .belongsToMany
  parentLabel := "User"
  relatedLabel := "Role"
  strategy := .hybrid ⟨"id", "id"⟩ ⟨"HAS_ROLE", .outgoing⟩ "id" "id"
  pivot := some { label := "RoleUser", parentReference := "user_id", relatedReference := "role_id" }
  scope :=
    { filter := [⟨none, false, .related "Team" (.edge "OF" .outgoing)
        [⟨none, false, .test "active" (.compare .eq) (.value (.bool true))⟩]⟩]
      orders := [⟨"name", .ascending⟩] }

/-- The author of a post, kept in an edge. -/
def writtenBy : DirectRelation where
  name := "author"
  kind := .belongsTo
  parentLabel := "Post"
  relatedLabel := "User"
  strategy := .nativeEdge ⟨"WRITTEN_BY", .outgoing⟩ "id" "id"
  pivot := none
  scope := {}

/-- A post that is to have another author. -/
def rewritten : Record where
  label := "Post"
  attributes := [("id", .int 1)]
  pending := [.associate writtenBy (.int 7)]

lemma userRoles_clear : (Relation.direct userRoles).Clear := by
  have hbuilt : Declaration.build
      { name := "roles", kind := .belongsToMany, parentLabel := "User", relatedLabel := "Role"
        strategy := .hybrid, keys := some ⟨"id", "id"⟩, edge := some ⟨"HAS_ROLE", .outgoing⟩
        pivot := userRoles.pivot, scope := userRoles.scope } = .ok userRoles := rfl
  have hhop : userRoles.Legible := ⟨by decide, by decide⟩
  have hactive : columnWithin ∅ "active" := .inl (by decide)
  have hnames : Unmarked "Team" ∧ Unmarked "OF" ∧ Unmarked "active" := by decide
  obtain ⟨hteam, hof, hcolumn⟩ := hnames
  refine ⟨.built hbuilt, ⟨by simpa [Relation.hops] using hhop, ?_, ?_, rfl, by decide⟩⟩
  · exact ⟨⟨hteam, hof, hcolumn, trivial⟩, trivial⟩
  · exact ⟨⟨trivial, ⟨hactive, trivial⟩⟩, trivial⟩

lemma writtenBy_clear : (Relation.direct writtenBy).Clear := by
  have hbuilt : Declaration.build
      { name := "author", kind := .belongsTo, parentLabel := "Post", relatedLabel := "User"
        strategy := .nativeEdge, edge := some ⟨"WRITTEN_BY", .outgoing⟩ } = .ok writtenBy := rfl
  have hhop : writtenBy.Legible := ⟨by decide, by decide⟩
  exact ⟨.built hbuilt, ⟨by simpa [Relation.hops] using hhop, trivial, trivial, rfl, by decide⟩⟩

/-- The roles of a user, and a post whose author changes. -/
theorem Relation.clear_speaks_roles :
    (Relation.direct userRoles).Speaks ∧
      Asks Query.Closed (Client.persistAssociations rewritten) fun _ => True := by
  refine ⟨Relation.clear_speaks.1 _ userRoles_clear, Relation.clear_speaks.2 rewritten ?_⟩
  simpa [rewritten, EdgeChange.relation] using writtenBy_clear

end GraphMapper
