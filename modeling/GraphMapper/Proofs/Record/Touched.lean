import GraphMapper.Proofs.Record.Loaded

/-!
What loading leaves alone.

* `Asked`, `Supplied`: a level that paths speak of, and what was fetched for a relation of a record;
* `Source`, `Framed`: where an entry comes from, and a record that is changed at entries that were
  asked for alone;
* `Framed.attach`, `Framed.modifyAt`: one record is given a relation, and all at the end of a path are
  changed;
* `loadLabels_framed`, `loadLevels_framed`: the steps of loading, whether they go well or not;
* `loadPaths_framed` (**loading touches only what was asked**): every load.
-/

namespace GraphMapper

/-! ### Entries -/

/-- The paths speak of a level. -/
def Asked (paths : List String) (level : List String) : Prop :=
  ∃ path ∈ paths, level <+: pathSegments path

namespace Related

variable {ρ τ : Type}

/-- What is loaded, but for the records themselves: whether it is one or many, and how many. -/
def shape (related : Related ρ) : Related Unit :=
  related.map fun _ => ()

lemma map_map {υ : Type} (f : ρ → τ) (g : τ → υ) (related : Related ρ) :
    (related.map f).map g = related.map (g ∘ f) := by
  rcases related with (_ | record) | records
  · rfl
  · rfl
  · exact congrArg many List.map_map

lemma shape_map (f : ρ → ρ) (related : Related ρ) : (related.map f).shape = related.shape :=
  related.map_map f fun _ => ()

end Related

/-- The record at a position of an entry. -/
def childAt (entry : Option (Related Record)) (i : ℕ) : Option Record :=
  entry.bind (·.toList[i]?)

lemma childAt_map (f : Record → Record) (entry : Option (Related Record)) (i : ℕ) :
    childAt (entry.map (Related.map f)) i = (childAt entry i).map f := by
  cases entry with
  | none => rfl
  | some related =>
      rw [childAt, childAt, Option.map_some, Option.bind_some, Option.bind_some,
        Related.toList_map, List.getElem?_map]

/-! ### Frames -/

section

variable {σ : Type} (fetch : Executor σ) (registry : Registry) (missingOnly : Bool)
  (paths : List String)

/-- **What was fetched for a relation of a record**: its part of a batch of the relation that is
registered for its label. -/
def Supplied (r : Record) (name : String) (related : Related Record) : Prop :=
  ∃ relation parents batch s mid, registry.find r.label name = .ok relation ∧
    batchLoad fetch parents relation s = (.ok batch, mid) ∧
    (r.attach relation batch).relation? name = some related

/-- **Where an entry comes from**: it is the one that the record has, or it was asked for and fetched.
To load what is missing is to fetch nothing in place of an entry. -/
inductive Source (path : List String) (r : Record) (name : String) :
    Option (Related Record) → Prop where
  | kept : Source path r name (r.relation? name)
  | fetched {related : Related Record} (asked : Asked paths (path ++ [name]))
      (missing : missingOnly → r.relation? name = none)
      (supplied : Supplied fetch registry r name related) : Source path r name (some related)

/-- **A record at the end of a path that is left alone** but for what was asked: its own data are as
before, each entry has as many records in the same order as there are where it comes from, and those
are left alone in turn. -/
inductive Framed : List String → Record → Record → Prop where
  | intro {path : List String} {r r' : Record} (label : r'.label = r.label)
      (attributes : r'.attributes = r.attributes) (pivot : r'.pivot = r.pivot)
      (pending : r'.pending = r.pending) (source : String → Option (Related Record))
      (sources : ∀ name, Source fetch registry missingOnly paths path r name (source name))
      (shapes : ∀ name, (r'.relation? name).map Related.shape = (source name).map Related.shape)
      (children : ∀ name i child child', childAt (source name) i = some child →
        childAt (r'.relation? name) i = some child' → Framed (path ++ [name]) child child') :
      Framed path r r'

end

variable {σ : Type} {fetch : Executor σ} {registry : Registry} {missingOnly : Bool}
  {paths : List String}

/-- The records of an entry are smaller than the record that has it. -/
lemma sizeOf_lt_of_childAt {r child : Record} {name : String} {i : ℕ}
    (h : childAt (r.relation? name) i = some child) : sizeOf child < sizeOf r := by
  obtain ⟨related, hrelated, hchild⟩ := Option.bind_eq_some_iff.mp h
  have hinside : sizeOf child < sizeOf related := by
    have hmem := List.mem_of_getElem? hchild
    cases related with
    | one record =>
        obtain rfl : record = some child := Option.mem_toList.mp hmem
        simp only [Related.one.sizeOf_spec, Option.some.sizeOf_spec]
        omega
    | many records =>
        have hlt := List.sizeOf_lt_of_mem hmem
        simp only [Related.many.sizeOf_spec, Related.toList] at hlt ⊢
        omega
  obtain ⟨before, after, hrelations, -⟩ := List.lookup_eq_some_iff.mp hrelated
  have hentry : sizeOf (name, related) < sizeOf r.relations :=
    List.sizeOf_lt_of_mem (hrelations ▸ List.mem_append_right before List.mem_cons_self)
  cases r
  simp only [Prod.mk.sizeOf_spec, Record.mk.sizeOf_spec] at hentry ⊢
  omega

/-- Without an entry there was none. -/
lemma Source.relation?_eq_none {path : List String} {r : Record} {name : String}
    {entry : Option (Related Record)}
    (h : Source fetch registry missingOnly paths path r name entry) (hnone : entry = none) :
    r.relation? name = none := by
  cases h with
  | kept => exact hnone
  | fetched => cases hnone

namespace Framed

/-- What is left as it is is left alone. -/
lemma refl (path : List String) (r : Record) : Framed fetch registry missingOnly paths path r r :=
  .intro rfl rfl rfl rfl r.relation? (fun _ => .kept) (fun _ => rfl)
    fun name i child child' hchild hchild' => by
      obtain rfl : child = child' := Option.some.inj (hchild.symm.trans hchild')
      have hsmaller := sizeOf_lt_of_childAt hchild
      exact refl (path ++ [name]) child
termination_by sizeOf r

variable {path : List String} {r r' : Record} {name : String} {related : Related Record}

/-- A record that has no entry for a relation had none. -/
lemma relation?_eq_none (h : Framed fetch registry missingOnly paths path r r')
    (hnone : r'.relation? name = none) : r.relation? name = none := by
  obtain ⟨-, -, -, -, source, sources, shapes, -⟩ := h
  have hsource : source name = none := by
    have hshape := shapes name
    rw [hnone, Option.map_none] at hshape
    exact Option.map_eq_none_iff.mp hshape.symm
  exact (sources name).relation?_eq_none hsource

/-- A record is given an entry. -/
lemma setRelation (h : Framed fetch registry missingOnly paths path r r')
    (hsource : Source fetch registry missingOnly paths path r name (some related)) :
    Framed fetch registry missingOnly paths path r (r'.setRelation name related) := by
  obtain ⟨label, attributes, pivot, pending, source, sources, shapes, children⟩ := h
  have hgiven : (r'.setRelation name related).relation? name = some related :=
    Fields.get?_put_self r'.relations name related
  have hothers {other : String} (hother : other ≠ name) :
      (r'.setRelation name related).relation? other = r'.relation? other :=
    Fields.get?_put_of_ne r'.relations hother related
  refine .intro label attributes pivot pending (Function.update source name (some related))
    (fun other => ?_) (fun other => ?_) fun other i child child' => ?_
  · by_cases hother : other = name
    · subst hother
      rw [Function.update_self]
      exact hsource
    · rw [Function.update_of_ne hother]
      exact sources other
  · by_cases hother : other = name
    · subst hother
      rw [Function.update_self, hgiven]
    · rw [Function.update_of_ne hother, hothers hother]
      exact shapes other
  · by_cases hother : other = name
    · subst hother
      rw [Function.update_self, hgiven]
      intro hchild hchild'
      obtain rfl : child = child' := Option.some.inj (hchild.symm.trans hchild')
      exact refl _ child
    · rw [Function.update_of_ne hother, hothers hother]
      exact children other i child child'

/-- A record is given its part of a batch of a relation that was asked for, and that it has not if
only what is missing is loaded. -/
lemma attach {relation : Relation} {parents : List Record} {batch : Batch} {s mid : σ}
    (h : Framed fetch registry missingOnly paths path r r') (hasked : Asked paths (path ++ [name]))
    (hmissing : missingOnly → r'.isLoaded name = false)
    (hfind : registry.find r'.label name = .ok relation) (hname : relation.name = name)
    (hbatch : batchLoad fetch parents relation s = (.ok batch, mid)) :
    Framed fetch registry missingOnly paths path r (r'.attach relation batch) := by
  have hget : r'.get? relation.parentKey = r.get? relation.parentKey := by
    obtain ⟨-, attributes, -⟩ := h
    rw [Record.get?, Record.get?, attributes]
  have hlabel : r'.label = r.label := by
    obtain ⟨label, -⟩ := h
    exact label
  subst hname
  rw [Record.attach, hget]
  refine h.setRelation (.fetched hasked (fun hmiss => h.relation?_eq_none ?_)
    ⟨relation, parents, batch, s, mid, hlabel ▸ hfind, hbatch, ?_⟩)
  · exact Option.isNone_iff_eq_none.mp (Option.isSome_eq_false_iff.mp (hmissing hmiss))
  · exact Fields.get?_put_self r.relations relation.name _

/-- **All records at the end of a path are changed**, each so that it is left alone but for what was
asked. -/
lemma modifyAt {f : Record → Record} {base : List String} {r r' : Record} (path : List String)
    (h : Framed fetch registry missingOnly paths base r r')
    (hf : ∀ x x', Framed fetch registry missingOnly paths (base ++ path) x x' →
      Framed fetch registry missingOnly paths (base ++ path) x (f x')) :
    Framed fetch registry missingOnly paths base r (r'.modifyAt path f) := by
  induction path generalizing base r r' with
  | nil =>
      rw [List.append_nil] at hf
      exact hf r r' h
  | cons name rest ih =>
      obtain ⟨label, attributes, pivot, pending, source, sources, shapes, children⟩ := h
      rw [Record.modifyAt]
      refine .intro label attributes pivot pending source sources (fun other => ?_)
        fun other i child child' hchild => ?_
      all_goals rw [Record.relation?_mapChildren]
      all_goals by_cases hother : other = name
      · simp only [if_pos hother, Option.map_map, Function.comp_def, Related.shape_map]
        exact shapes other
      · simp only [if_neg hother, Option.map_id']
        exact shapes other
      · simp only [if_pos hother]
        rw [childAt_map]
        intro hchild'
        obtain ⟨below, hbelow, rfl⟩ := Option.map_eq_some_iff.mp hchild'
        subst hother
        refine ih (children other i child below hchild hbelow) fun x x' hx => ?_
        rw [List.append_assoc] at hx ⊢
        exact hf x x' hx
      · simp only [if_neg hother, Option.map_id']
        exact children other i child child' hchild

end Framed

/-! ### Loading -/

/-- Records that are left alone one by one. -/
lemma framed_map {records current : List Record} {path : List String} {f : Record → Record}
    (h : List.Forall₂ (Framed fetch registry missingOnly paths []) records current)
    (hf : ∀ x x', Framed fetch registry missingOnly paths path x x' →
      Framed fetch registry missingOnly paths path x (f x')) :
    List.Forall₂ (Framed fetch registry missingOnly paths []) records
      (current.map (Record.modifyAt path f)) :=
  List.forall₂_map_right_iff.mpr (h.imp fun _ _ hr => hr.modifyAt path hf)

/-- The labels of one level are loaded until one of them fails. -/
lemma loadLabels_framed (hregistry : registry.Named) {path : List String} {name : String}
    (hasked : Asked paths (path ++ [name])) {records current : List Record} (labels : List String)
    (h : List.Forall₂ (Framed fetch registry missingOnly paths []) records current) (s : σ) :
    List.Forall₂ (Framed fetch registry missingOnly paths []) records
      (loadLabels fetch registry (isWanted missingOnly name) path name labels current s).1.1 := by
  induction labels generalizing current s with
  | nil => exact h
  | cons label rest ih =>
      rw [loadLabels_apply]
      cases hfind : registry.find label name with
      | error e => exact h
      | ok relation =>
          dsimp only
          rcases hbatch : batchLoad fetch
            (membersAt (isWanted missingOnly name) path label current) relation s with
            ⟨e | batch, mid⟩
          · exact h
          · refine ih (framed_map h fun x x' hx => ?_) mid
            rw [placed]
            split_ifs with hmember
            · rw [Bool.and_eq_true, decide_eq_true_eq] at hmember
              obtain ⟨hlabel, hwanted⟩ := hmember
              refine hx.attach hasked (fun hmiss => ?_) (hlabel.symm ▸ hfind)
                (hregistry label name relation hfind) hbatch
              simpa [isWanted, hmiss] using hwanted
            · exact hx

/-- The levels are loaded until one of them fails. -/
lemma loadLevels_framed (hregistry : registry.Named) {records current : List Record}
    {levels : List (List String)} (hasked : ∀ level ∈ levels, Asked paths level)
    (h : List.Forall₂ (Framed fetch registry missingOnly paths []) records current) (s : σ) :
    List.Forall₂ (Framed fetch registry missingOnly paths []) records
      (loadLevels fetch registry missingOnly levels current s).1.1 := by
  induction levels generalizing current s with
  | nil => exact h
  | cons level rest ih =>
      obtain ⟨hlevel, hrest⟩ := List.forall_mem_cons.mp hasked
      rcases List.eq_nil_or_concat' level with rfl | ⟨path, name, rfl⟩
      · exact ih hrest h s
      · have hlabels := loadLabels_framed hregistry hlevel
          (labelsAt missingOnly path name current) h s
        rw [loadLevels_apply]
        rcases hloaded : loadLabels fetch registry (isWanted missingOnly name) path name
          (labelsAt missingOnly path name current) current s with ⟨⟨forest, _ | e⟩, mid⟩
        · rw [hloaded] at hlabels
          exact ih hrest hlabels mid
        · rw [hloaded] at hlabels
          exact hlabels

/-- **Loading touches only what was asked**: whatever is registered, whatever is answered and whether
it fails half-way or not, the records stay in their order with their label, attributes, pivot and
waiting changes, and so do all records below them; an entry is put only at a relation that a path
names, on a record that the path reaches by what it names before, and only what was fetched for that
record is put there.  To load what is missing puts no entry in place of another. -/
theorem loadPaths_framed (relations : List Relation) (fetch : Executor σ) (missingOnly : Bool)
    (records : List Record) (paths : List String) (s : σ) :
    List.Forall₂
      (Framed fetch (relations.foldl Registry.register []) missingOnly paths []) records
      (loadPaths fetch (relations.foldl Registry.register []) missingOnly records paths s).1.1 :=
  loadLevels_framed (Registry.named_registered relations)
    (fun _ hlevel => (mem_expandPaths.mp hlevel).2)
    (List.forall₂_same.mpr fun r _ => .refl [] r) s

end GraphMapper
