import GraphMapper.Proofs.Value.Fields
import GraphMapper.Record.Loading

/-!
Forests of records, and changes at the end of a path.

* `Record.Extends`: a record that has lost nothing but may have more relations loaded;
* `recordsAt_modifyAt`: a change at the end of a path is made to the records there;
* `recordsAt_extends`: at the end of a path that is not longer, records are only extended.
-/

namespace GraphMapper

/-! ### One record -/

lemma Related.toList_map {ρ τ : Type} (f : ρ → τ) (related : Related ρ) :
    (related.map f).toList = related.toList.map f := by
  rcases related with (_ | record) | records <;> rfl

namespace Record

/-- The record with more relations loaded, or others in place of those there were. -/
structure Extends (r r' : Record) : Prop where
  label : r'.label = r.label
  attributes : r'.attributes = r.attributes
  isLoaded : ∀ name, r.isLoaded name → r'.isLoaded name

variable {r r' r'' : Record} {name other : String} {f : Record → Record}

lemma Extends.refl (r : Record) : r.Extends r :=
  ⟨rfl, rfl, fun _ h => h⟩

lemma Extends.trans (h : r.Extends r') (h' : r'.Extends r'') : r.Extends r'' where
  label := h'.label.trans h.label
  attributes := h'.attributes.trans h.attributes
  isLoaded name hr := h'.isLoaded name (h.isLoaded name hr)

lemma relation?_mapChildren (r : Record) (name : String) (f : Record → Record) (other : String) :
    (r.mapChildren name f).relation? other =
      (r.relation? other).map fun related => if other = name then related.map f else related :=
  Fields.get?_map r.relations (fun key related => if key = name then related.map f else related) other

lemma isLoaded_mapChildren (r : Record) (name : String) (f : Record → Record) (other : String) :
    (r.mapChildren name f).isLoaded other = r.isLoaded other := by
  have h := congrArg Option.isSome (relation?_mapChildren r name f other)
  rwa [Option.isSome_map] at h

lemma children_mapChildren_self (r : Record) (name : String) (f : Record → Record) :
    (r.mapChildren name f).children name = (r.children name).map f := by
  rw [children, relation?_mapChildren, children]
  cases r.relation? name with
  | none => rfl
  | some related =>
      rw [Option.map_some, if_pos rfl]
      exact related.toList_map f

lemma children_mapChildren_of_ne (h : other ≠ name) (r : Record) (f : Record → Record) :
    (r.mapChildren name f).children other = r.children other := by
  simp only [children, relation?_mapChildren, if_neg h, Option.map_id']

lemma isLoaded_setRelation (r : Record) (name : String) (related : Related Record) :
    (r.setRelation name related).isLoaded name := by
  have h := congrArg Option.isSome (Fields.get?_put_self r.relations name related)
  exact h

lemma extends_setRelation (r : Record) (name : String) (related : Related Record) :
    r.Extends (r.setRelation name related) where
  label := rfl
  attributes := rfl
  isLoaded other h := by
    by_cases hother : other = name
    · exact hother ▸ isLoaded_setRelation r name related
    · have hsame := congrArg Option.isSome (Fields.get?_put_of_ne r.relations hother related)
      exact hsame.trans h

lemma extends_attach (r : Record) (relation : Relation) (batch : Batch) :
    r.Extends (r.attach relation batch) :=
  extends_setRelation r _ _

lemma extends_mapChildren (r : Record) (name : String) (f : Record → Record) :
    r.Extends (r.mapChildren name f) :=
  ⟨rfl, rfl, fun other h => (isLoaded_mapChildren r name f other).trans h⟩

lemma extends_modifyAt (hf : ∀ r, Extends r (f r)) (path : List String) (r : Record) :
    r.Extends (r.modifyAt path f) := by
  cases path with
  | nil => exact hf r
  | cons name rest => exact extends_mapChildren r name _

end Record

/-! ### The records at the end of a path -/

open Record (Extends modifyAt)

variable {f : Record → Record}

lemma flatMap_children_self (name : String) (f : Record → Record) (records : List Record) :
    (records.map (·.mapChildren name f)).flatMap (·.children name) =
      (records.flatMap (·.children name)).map f := by
  rw [List.flatMap_map, List.map_flatMap]
  exact List.flatMap_congr fun r _ => r.children_mapChildren_self name f

lemma flatMap_children_of_ne {name other : String} (h : other ≠ name) (f : Record → Record)
    (records : List Record) :
    (records.map (·.mapChildren name f)).flatMap (·.children other) =
      records.flatMap (·.children other) := by
  rw [List.flatMap_map]
  exact List.flatMap_congr fun r _ => r.children_mapChildren_of_ne h f

/-- A change at the end of a path is made to the records there. -/
theorem recordsAt_modifyAt (path : List String) (f : Record → Record) (records : List Record) :
    recordsAt path (records.map (modifyAt path f)) = (recordsAt path records).map f := by
  induction path generalizing records with
  | nil => rfl
  | cons name rest ih =>
      have hchildren := flatMap_children_self name (modifyAt rest f) records
      rw [recordsAt, recordsAt, ← ih, ← hchildren]
      rfl

/-- At the end of a path records are only extended by a change at the end of another that is not
shorter. -/
theorem recordsAt_extends (hf : ∀ r, Extends r (f r)) {path longer : List String}
    (h : path.length ≤ longer.length) (records : List Record) :
    List.Forall₂ Extends (recordsAt path records)
      (recordsAt path (records.map (modifyAt longer f))) := by
  induction path generalizing longer records with
  | nil =>
      exact List.forall₂_map_right_iff.mpr
        (List.forall₂_same.mpr fun r _ => Record.extends_modifyAt hf longer r)
  | cons other path ih =>
      obtain _ | ⟨name, longer⟩ := longer
      · simp at h
      · rw [recordsAt, recordsAt]
        have hmodify : records.map (modifyAt (name :: longer) f) =
            records.map (·.mapChildren name (modifyAt longer f)) := rfl
        rw [hmodify]
        by_cases hother : other = name
        · subst hother
          rw [flatMap_children_self]
          exact ih (Nat.le_of_succ_le_succ h) _
        · rw [flatMap_children_of_ne hother]
          exact List.forall₂_same.mpr fun r _ => Extends.refl r

/-- Records that are extended one by one, in two steps. -/
lemma extends_trans {first second third : List Record} (h : List.Forall₂ Extends first second)
    (h' : List.Forall₂ Extends second third) : List.Forall₂ Extends first third := by
  induction h generalizing third with
  | nil => exact h'
  | cons hr _ ih =>
      obtain ⟨r, rest, hr', hrest, rfl⟩ := List.forall₂_cons_left_iff.mp h'
      exact .cons (hr.trans hr') (ih hrest)

/-- What is extended still has what was loaded. -/
lemma isLoaded_of_extends {records later : List Record} (h : List.Forall₂ Extends records later)
    {name : String} (hloaded : ∀ r ∈ records, r.isLoaded name) : ∀ r ∈ later, r.isLoaded name := by
  induction h with
  | nil => simp
  | cons hr _ ih =>
      obtain ⟨hfirst, hrest⟩ := List.forall_mem_cons.mp hloaded
      exact List.forall_mem_cons.mpr ⟨hr.isLoaded name hfirst, ih hrest⟩

end GraphMapper
