import GraphMapper.Proofs.Graph.Loading
import GraphMapper.Proofs.Record.Loaded
import GraphMapper.Proofs.Value.Json

/-!
The rows of a lookup go to the parents that they name.

* `Relation.recordOf`, `Relation.Readable`: the record that a row tells of, and rows that all tell of
  one;
* `Relation.share`: what a parent is given of rows;
* `Batch.addRows_eq`, `Batch.addRows_of_not_readable`: what a batch becomes, and where it fails;
* `Relation.Answered`: the rows that the executor returns;
* `Relation.partitioned` (**each parent is given just the records of the rows with its key**, and none
  is changed where a row cannot be read).
-/

namespace GraphMapper

/-! ### Rows -/

namespace Relation

/-- The pivot of a row, for a relation that is many-to-many. -/
def pivotOf (r : Relation) (row : Row) : Option Row :=
  match row.get? pivotColumn with
  | some (.object pivot) => if r.kind = .direct .belongsToMany then some pivot else none
  | _ => none

/-- The record that a row tells of, if there is a map of properties in it. -/
def recordOf (r : Relation) (row : Row) : Option Record :=
  match row.get? relatedColumn with
  | some (.object attributes) =>
    some { Record.of r.relatedLabel attributes with pivot := r.pivotOf row }
  | _ => none

/-- Every row with a parent key tells of a record. -/
def Readable (r : Relation) (rows : List Row) : Prop :=
  ∀ row ∈ rows, row.get? parentKeyColumn ≠ none → (r.recordOf row).isSome

/-- The records of the rows with a parent key, in order. -/
def recordsUnder (r : Relation) (rows : List Row) (key : Value) : List Record :=
  rows.filterMap fun row => if row.get? parentKeyColumn = some key then r.recordOf row else none

/-- What a parent is given of rows: the records of its key, or the first of them. -/
def share (r : Relation) (rows : List Row) (parent : Record) : Related Record :=
  let records := ((parent.get? r.parentKey).map (r.recordsUnder rows)).getD []
  if r.isSingle then .one records.head? else .many records

/-- The program reads just the record that a row tells of. -/
lemma relatedOf_eq (r : Relation) (row : Row) :
    relatedOf r (row.drop parentKeyColumn) =
      match r.recordOf row with
      | some record => .ok record
      | none => .error (.decode (.notProperties relatedColumn (row.get? relatedColumn))) := by
  have hrelated : (row.drop parentKeyColumn).get? relatedColumn = row.get? relatedColumn :=
    Fields.get?_drop _ (by decide)
  have hpivot : ((row.drop parentKeyColumn).drop relatedColumn).get? pivotColumn =
      row.get? pivotColumn := by
    rw [Fields.get?_drop _ (by decide), Fields.get?_drop _ (by decide)]
  rw [relatedOf, Record.ofColumn, recordOf, hrelated]
  cases hfound : row.get? relatedColumn with
  | none => rfl
  | some v =>
      cases v with
      | object attributes =>
          simp only [bind, Except.bind, hpivot, pivotOf, withPivot, decide_eq_true_eq]
          cases row.get? pivotColumn with
          | none => split_ifs <;> rfl
          | some p => cases p <;> split_ifs <;> rfl
      | _ => rfl

end Relation

/-! ### Batches -/

namespace Batch

variable {r : Relation} {rows : List Row}

/-- The record that a row adds to those under a key text. -/
def addedBy (r : Relation) (text : String) (row : Row) : Option Record :=
  match row.get? parentKeyColumn with
  | some key => if key.keyText = text then r.recordOf row else none
  | none => none

/-- Under each key text a batch gains the records of the rows with it, in order. -/
theorem addRows_eq (h : r.Readable rows) (batch : Batch) :
    ∃ after, addRows r batch rows = .ok after ∧
      ∀ text, after.under text = batch.under text ++ rows.filterMap (addedBy r text) := by
  induction rows generalizing batch with
  | nil => exact ⟨batch, rfl, fun text => (List.append_nil _).symm⟩
  | cons row rest ih =>
      obtain ⟨hrow, hrest⟩ := List.forall_mem_cons.mp h
      rw [addRows]
      cases hkey : row.get? parentKeyColumn with
      | none =>
          obtain ⟨after, hafter, hparts⟩ := ih hrest batch
          refine ⟨after, hafter, fun text => ?_⟩
          rw [hparts, List.filterMap_cons_none (by rw [addedBy, hkey])]
      | some key =>
          obtain ⟨record, hrecord⟩ := Option.isSome_iff_exists.mp
            (hrow (by simp [hkey]))
          obtain ⟨after, hafter, hparts⟩ := ih hrest (batch.add key record)
          refine ⟨after, ?_, fun text => ?_⟩
          · dsimp only
            rw [r.relatedOf_eq, hrecord]
            exact hafter
          · have hadded : addedBy r text row = if key.keyText = text then some record else none := by
              rw [addedBy, hkey, ← hrecord]
            rw [hparts, under_add, List.append_assoc, List.filterMap_cons, hadded]
            split_ifs <;> rfl

/-- A row with a parent key that tells of no record makes the whole batch fail. -/
theorem addRows_of_not_readable (h : ¬ r.Readable rows) (batch : Batch) :
    ∃ row ∈ rows, row.get? parentKeyColumn ≠ none ∧ r.recordOf row = none ∧
      addRows r batch rows =
        .error (.decode (.notProperties relatedColumn (row.get? relatedColumn))) := by
  induction rows generalizing batch with
  | nil => exact absurd (by simp [Relation.Readable]) h
  | cons row rest ih =>
      rw [addRows]
      cases hkey : row.get? parentKeyColumn with
      | none =>
          have hrest : ¬ r.Readable rest := fun hrest => h (List.forall_mem_cons.mpr
            ⟨fun hhas => absurd hkey hhas, hrest⟩)
          obtain ⟨bad, hbad, hfails⟩ := ih hrest batch
          exact ⟨bad, List.mem_cons_of_mem _ hbad, hfails⟩
      | some key =>
          dsimp only
          rw [r.relatedOf_eq]
          cases hrecord : r.recordOf row with
          | none => exact ⟨row, List.mem_cons_self, by simp [hkey], hrecord, rfl⟩
          | some record =>
              have hrest : ¬ r.Readable rest := fun hrest => h (List.forall_mem_cons.mpr
                ⟨fun _ => by simp [hrecord], hrest⟩)
              obtain ⟨bad, hbad, hfails⟩ := ih hrest (batch.add key record)
              exact ⟨bad, List.mem_cons_of_mem _ hbad, hfails⟩

/-- Key texts are compared in place of the keys. -/
lemma filterMap_addedBy {key : Value} (hkey : key.Finite)
    (hrows : ∀ row ∈ rows, ∀ k, row.get? parentKeyColumn = some k → k.Finite) :
    rows.filterMap (addedBy r key.keyText) = r.recordsUnder rows key := by
  refine List.filterMap_congr fun row hrow => ?_
  rw [addedBy]
  cases hk : row.get? parentKeyColumn with
  | none => simp
  | some k =>
      have hsame : k.keyText = key.keyText ↔ k = key :=
        ⟨Value.eq_of_keyText_eq (hrows row hrow k hk) hkey, congrArg _⟩
      simp only [hsame, Option.some.injEq]

end Batch

/-! ### Loading -/

namespace Relation

variable {σ : Type} {r : Relation} {fetch : Executor σ} {parents : List Record} {rows : List Row}
  {s s' : σ}

/-- The executor returns the rows to the lookup of the parents; where none of them has a key it is not
asked. -/
def Answered (r : Relation) (fetch : Executor σ) (parents : List Record) (s : σ) (rows : List Row)
    (s' : σ) : Prop :=
  if parentKeys parents r = [] then rows = [] ∧ s' = s
  else ∃ l, r.lookup (parentKeys parents r) = .ok l ∧ fetch l.statement.query s = (.ok rows, s')

lemma Answered.batchLoad_eq (h : r.Answered fetch parents s rows s') :
    batchLoad fetch parents r s = (Batch.ofRows r rows, s') := by
  rw [Answered] at h
  rw [batchLoad]
  split_ifs at h with hempty
  · obtain ⟨rfl, rfl⟩ := h
    rw [if_pos (List.isEmpty_iff.mpr hempty)]
    rfl
  · obtain ⟨l, hl, hfetch⟩ := h
    rw [if_neg (by simpa using hempty), hl]
    change StateT.bind (fetch l.statement.query) _ s = _
    rw [StateT.bind, hfetch]
    rfl

/-- A batch that holds the rows gives a parent its share of them. -/
lemma attach_eq {batch : Batch} {parent : Record}
    (h : ∀ key, parent.get? r.parentKey = some key →
      batch.under key.keyText = r.recordsUnder rows key) :
    parent.attach r batch = parent.setRelation r.name (r.share rows parent) := by
  rw [Record.attach, share]
  cases hkey : parent.get? r.parentKey with
  | none => rfl
  | some key =>
      simp only [Option.bind_some, Option.map_some, Option.getD_some, ← h key hkey]
      rfl

/-- **Each parent is given just the records of the rows with its key**, in the order of the rows, or the
first of them where there can be one; and where a row cannot be read, loading fails and no parent is
changed.  The keys are values as they occur, whose doubles are finite; they are the same where they are
written alike, so that an integer is no double and zero no negative zero. -/
theorem partitioned (h : r.Answered fetch parents s rows s')
    (hparents : ∀ parent ∈ parents, ∀ k, parent.get? r.parentKey = some k → k.Finite)
    (hrows : ∀ row ∈ rows, ∀ k, row.get? parentKeyColumn = some k → k.Finite) :
    (r.Readable rows → ∃ batch, batchLoad fetch parents r s = (.ok batch, s') ∧
      ∀ parent ∈ parents, parent.attach r batch = parent.setRelation r.name (r.share rows parent)) ∧
    (¬ r.Readable rows → ∃ row ∈ rows, row.get? parentKeyColumn ≠ none ∧ r.recordOf row = none ∧
      let failure := Error.decode (.notProperties relatedColumn (row.get? relatedColumn))
      batchLoad fetch parents r s = (.error failure, s') ∧
        ∀ registry wanted path name label rest records,
          Registry.find registry label name = .ok r → membersAt wanted path label records = parents →
            loadLabels fetch registry wanted path name (label :: rest) records s =
              ((records, some failure), s')) := by
  refine ⟨fun hreadable => ?_, fun hunreadable => ?_⟩
  · obtain ⟨batch, hbatch, hparts⟩ := Batch.addRows_eq hreadable []
    refine ⟨batch, h.batchLoad_eq.trans (by rw [Batch.ofRows, hbatch]), fun parent hparent => ?_⟩
    refine attach_eq fun key hkey => ?_
    rw [hparts, ← Batch.filterMap_addedBy (hparents parent hparent key hkey) hrows]
    rfl
  · obtain ⟨row, hrow, hkey, hnone, hfails⟩ := Batch.addRows_of_not_readable hunreadable []
    have hload := h.batchLoad_eq
    rw [Batch.ofRows, hfails] at hload
    refine ⟨row, hrow, hkey, hnone, hload, ?_⟩
    intro registry wanted path name label rest records hfind hmembers
    rw [loadLabels, hfind]
    change StateT.bind (batchLoad fetch (membersAt wanted path label records) r) _ s = _
    rw [hmembers, StateT.bind, hload]
    rfl

/-- The roles of a user, each with a level. -/
def leveledRoles : Relation :=
  .direct ⟨"roles", .belongsToMany, "User", "Role", .foreignKey ⟨"id", "id"⟩,
    some { label := "RoleUser", parentReference := "user_id", relatedReference := "role_id" }, {}⟩

/-- Users known by a number, by the text of that number and by nothing. -/
def threeUsers : List Record :=
  [.of "User" [("id", .int 1)], .of "User" [("id", .string "1")], .of "User" []]

def roleRow (key : Value) (pivot : Value) (id : ℤ) : Row :=
  [(parentKeyColumn, key), (pivotColumn, pivot), (relatedColumn, .object [("id", .int id)])]

/-- Two roles of the number with one of the text between them, which has no pivot. -/
def roleRows : List Row :=
  [roleRow (.int 1) (.object [("level", .int 9)]) 3, roleRow (.string "1") .null 4,
    roleRow (.int 1) (.object [("level", .int 2)]) 5]

/-- The same with a row that tells of nothing. -/
def damagedRows : List Row :=
  roleRows ++ [[(parentKeyColumn, .null)]]

/-- An executor that counts and always returns the same rows. -/
def returning (rows : List Row) : Executor ℕ := fun _ count => (.ok rows, count + 1)

lemma answered_returning (rows : List Row) :
    leveledRoles.Answered (returning rows) threeUsers 0 rows 1 := by
  have hkeys : parentKeys threeUsers leveledRoles = [.int 1, .string "1"] := by decide
  rw [Answered, hkeys, if_neg (by simp)]
  exact ⟨_, rfl, rfl⟩

theorem partitioned_roles :
    (∃ batch, batchLoad (returning roleRows) threeUsers leveledRoles 0 = (.ok batch, 1) ∧
      threeUsers.map (·.attach leveledRoles batch) =
        threeUsers.zipWith (·.setRelation "roles" ·)
          [.many [{ Record.of "Role" [("id", .int 3)] with pivot := some [("level", .int 9)] },
              { Record.of "Role" [("id", .int 5)] with pivot := some [("level", .int 2)] }],
            .many [.of "Role" [("id", .int 4)]], .many []]) ∧
      batchLoad (returning damagedRows) threeUsers leveledRoles 0 =
        (.error (.decode (.notProperties relatedColumn none)), 1) := by
  have hparents : ∀ parent ∈ threeUsers, ∀ k, parent.get? "id" = some k → k.Finite := by
    have hkeys : threeUsers.filterMap (·.get? "id") = [.int 1, .string "1"] := by decide
    intro parent hparent k hk
    have hmem : k ∈ threeUsers.filterMap (·.get? "id") :=
      List.mem_filterMap.mpr ⟨parent, hparent, hk⟩
    rw [hkeys, List.mem_pair] at hmem
    rcases hmem with rfl | rfl <;> trivial
  have hrows : ∀ row ∈ damagedRows, ∀ k, row.get? parentKeyColumn = some k → k.Finite := by
    have hkeys : damagedRows.filterMap (fun row => row.get? parentKeyColumn) =
        [.int 1, .string "1", .int 1, .null] := by decide
    intro row hrow k hk
    have hmem : k ∈ damagedRows.filterMap fun row => row.get? parentKeyColumn :=
      List.mem_filterMap.mpr ⟨row, hrow, hk⟩
    rw [hkeys] at hmem
    simp only [List.mem_cons, List.not_mem_nil, or_false] at hmem
    rcases hmem with rfl | rfl | rfl | rfl <;> trivial
  have hrecords : ∀ row ∈ roleRows, (leveledRoles.recordOf row).isSome := by decide
  have hunreadable : ¬ leveledRoles.Readable damagedRows := fun h =>
    absurd (h [(parentKeyColumn, .null)] (by simp [damagedRows]) (by decide)) (by decide)
  constructor
  · obtain ⟨batch, hbatch, hall⟩ := (partitioned (answered_returning roleRows) hparents
      fun row hrow => hrows row (List.mem_append_left _ hrow)).1 fun row hrow _ => hrecords row hrow
    refine ⟨batch, hbatch, ?_⟩
    rw [List.map_congr_left hall]
    rfl
  · obtain ⟨row, hrow, -, hnone, hload, -⟩ :=
      (partitioned (answered_returning _) hparents hrows).2 hunreadable
    rcases List.mem_append.mp hrow with hrow | hrow
    · exact absurd (hrecords row hrow) (by simp [hnone])
    · obtain rfl := List.mem_singleton.mp hrow
      exact hload

end Relation

end GraphMapper
