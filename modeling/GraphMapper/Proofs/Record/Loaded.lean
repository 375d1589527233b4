import GraphMapper.Proofs.Record.Forest
import GraphMapper.Proofs.Record.Levels

/-!
Loading what is missing.

* `Registry.Named`: relations are registered under their own names;
* `Executor`: queries answered by any machine with a state;
* `loadLabels_apply`, `loadLevels_apply`: the steps of loading;
* `loadLabels_cons`, `loadLevels_cons`: the steps of loading that goes well;
* `loadLabels_extends`, `loadLevels_extends`: no record at the end of a path that is not longer loses
  anything;
* `Complete`: all records at a level have its relation; `loadLevels_complete`: they have after it;
* `load_missing_idempotent` (**loading what is missing is idempotent**): all levels are complete
  afterwards, so there is nothing left to load.
-/

namespace GraphMapper

/-! ### Registries -/

namespace Registry

/-- Relations are registered under their own names. -/
def Named (registry : Registry) : Prop :=
  ∀ label name r, registry.find label name = .ok r → r.name = name

lemma find_eq_ok {registry : Registry} {label name : String} {r : Relation} :
    registry.find label name = .ok r ↔
      (registry.get? label).bind (Fields.get? · name) = some r := by
  rw [find]
  cases (registry.get? label).bind (Fields.get? · name) <;> simp

lemma named_nil : Named [] := fun label name r h => by
  simp [find_eq_ok, Fields.get?] at h

lemma Named.register {registry : Registry} (h : registry.Named) (r : Relation) :
    (registry.register r).Named := by
  intro label name found hfound
  rw [find_eq_ok, Registry.register] at hfound
  by_cases hlabel : label = r.parentLabel
  · subst hlabel
    rw [Fields.get?_put_self, Option.bind_some] at hfound
    by_cases hname : name = r.name
    · subst hname
      rw [Fields.get?_put_self] at hfound
      rw [← Option.some.inj hfound]
    · rw [Fields.get?_put_of_ne _ hname] at hfound
      refine h r.parentLabel name found (find_eq_ok.mpr ?_)
      cases hnamed : Fields.get? registry r.parentLabel with
      | none =>
          rw [hnamed] at hfound
          cases hfound
      | some named =>
          rw [hnamed] at hfound
          exact hfound
  · rw [Fields.get?_put_of_ne _ hlabel] at hfound
    exact h label name found (find_eq_ok.mpr hfound)

lemma named_registered (relations : List Relation) : (relations.foldl register []).Named :=
  List.foldlRecOn relations register named_nil fun _ h r _ => h.register r

end Registry

/-! ### Steps of loading -/

/-- Queries answered by a machine with a state. -/
abbrev Executor (σ : Type) := Query → StateM σ (Except Error (List Row))

section

variable {σ : Type} {fetch : Executor σ} {registry : Registry} {missingOnly : Bool}
  {records loaded : List Record} {s s' : σ}

/-- The records of a label at the end of a path that are looked at. -/
def membersAt (wanted : Record → Bool) (path : List String) (label : String)
    (records : List Record) : List Record :=
  (recordsAt path records).filter fun r => r.label = label && wanted r

/-- The members of a label given their part of a batch. -/
def placed (wanted : Record → Bool) (label : String) (relation : Relation) (batch : Batch)
    (r : Record) : Record :=
  if r.label = label && wanted r then r.attach relation batch else r

lemma extends_placed (wanted : Record → Bool) (label : String) (relation : Relation) (batch : Batch)
    (r : Record) : r.Extends (placed wanted label relation batch r) := by
  rw [placed]
  split_ifs
  · exact r.extends_attach relation batch
  · exact .refl r

/-- One label of a level is loaded, or fails. -/
lemma loadLabels_apply (wanted : Record → Bool) (path : List String) (name label : String)
    (rest : List String) (records : List Record) (s : σ) :
    loadLabels fetch registry wanted path name (label :: rest) records s =
      match registry.find label name with
      | .error e => ((records, some e), s)
      | .ok relation =>
        match batchLoad fetch (membersAt wanted path label records) relation s with
        | (.error e, mid) => ((records, some e), mid)
        | (.ok batch, mid) =>
          loadLabels fetch registry wanted path name rest
            (records.map (Record.modifyAt path (placed wanted label relation batch))) mid := by
  rw [loadLabels]
  cases registry.find label name with
  | error e => rfl
  | ok relation =>
      dsimp only
      change StateT.bind (batchLoad fetch (membersAt wanted path label records) relation) _ s = _
      rw [StateT.bind]
      rcases batchLoad fetch (membersAt wanted path label records) relation s with
        ⟨e | batch, mid⟩ <;> rfl

lemma loadLabels_cons {wanted : Record → Bool} {path : List String} {name label : String}
    {rest : List String}
    (h : loadLabels fetch registry wanted path name (label :: rest) records s =
      ((loaded, none), s')) :
    ∃ relation batch mid, registry.find label name = .ok relation ∧
      batchLoad fetch (membersAt wanted path label records) relation s = (.ok batch, mid) ∧
      loadLabels fetch registry wanted path name rest
        (records.map (Record.modifyAt path (placed wanted label relation batch))) mid =
          ((loaded, none), s') := by
  rw [loadLabels_apply] at h
  cases hfind : registry.find label name with
  | error e =>
      rw [hfind] at h
      cases congrArg (fun r => r.1.2) h
  | ok relation =>
      rw [hfind] at h
      dsimp only at h
      rcases hbatch : batchLoad fetch (membersAt wanted path label records) relation s with
        ⟨e | batch, mid⟩
      · rw [hbatch] at h
        cases congrArg (fun r => r.1.2) h
      · rw [hbatch] at h
        exact ⟨relation, batch, mid, rfl, hbatch, h⟩

/-- The records that a load looks at. -/
def isWanted (missingOnly : Bool) (name : String) (r : Record) : Bool :=
  !(missingOnly && r.isLoaded name)

/-- The labels of the records at the end of a path that are looked at. -/
def labelsAt (missingOnly : Bool) (path : List String) (name : String) (records : List Record) :
    List String :=
  labelsOf ((recordsAt path records).filter (isWanted missingOnly name))

/-- One level is loaded, or fails. -/
lemma loadLevels_apply (path : List String) (name : String) (rest : List (List String))
    (records : List Record) (s : σ) :
    loadLevels fetch registry missingOnly ((path ++ [name]) :: rest) records s =
      match loadLabels fetch registry (isWanted missingOnly name) path name
        (labelsAt missingOnly path name records) records s with
      | ((forest, some e), mid) => ((forest, some e), mid)
      | ((forest, none), mid) => loadLevels fetch registry missingOnly rest forest mid := by
  rw [loadLevels, List.getLast?_concat]
  dsimp only
  rw [List.dropLast_concat]
  change StateT.bind (loadLabels fetch registry (isWanted missingOnly name) path name
    (labelsAt missingOnly path name records) records) _ s = _
  rw [StateT.bind]
  rcases loadLabels fetch registry (isWanted missingOnly name) path name
    (labelsAt missingOnly path name records) records s with ⟨⟨forest, _ | e⟩, mid⟩ <;> rfl

lemma loadLevels_cons {path : List String} {name : String} {rest : List (List String)} :
    loadLevels fetch registry missingOnly ((path ++ [name]) :: rest) records s =
        ((loaded, none), s') ↔
      ∃ forest mid, loadLabels fetch registry (isWanted missingOnly name) path name
          (labelsAt missingOnly path name records) records s = ((forest, none), mid) ∧
        loadLevels fetch registry missingOnly rest forest mid = ((loaded, none), s') := by
  rw [loadLevels_apply]
  rcases loadLabels fetch registry (isWanted missingOnly name) path name
    (labelsAt missingOnly path name records) records s with ⟨⟨forest, _ | e⟩, mid⟩
  · constructor
    · exact fun h => ⟨forest, mid, rfl, h⟩
    · rintro ⟨forest', mid', ⟨⟩, h⟩
      exact h
  · constructor
    · exact fun h => nomatch congrArg (fun r => r.1.2) h
    · rintro ⟨forest', mid', ⟨⟩, -⟩

/-! ### What loading leaves as it was -/

lemma loadLabels_extends {wanted : Record → Bool} {path shorter : List String} {name : String}
    (hlength : shorter.length ≤ path.length) {labels : List String}
    (h : loadLabels fetch registry wanted path name labels records s = ((loaded, none), s')) :
    List.Forall₂ Record.Extends (recordsAt shorter records) (recordsAt shorter loaded) := by
  induction labels generalizing records s with
  | nil =>
      obtain rfl : records = loaded := congrArg (fun r => r.1.1) h
      exact List.forall₂_same.mpr fun r _ => .refl r
  | cons label rest ih =>
      obtain ⟨relation, batch, mid, -, -, hrest⟩ := loadLabels_cons h
      exact extends_trans
        (recordsAt_extends (extends_placed wanted label relation batch) hlength records) (ih hrest)

/-- Levels that are not shorter change what is below the records at the parent of a level. -/
lemma loadLevels_extends {path : List String} {name : String} {levels : List (List String)}
    (hlevels : ∀ level ∈ levels, (path ++ [name]).length ≤ level.length)
    (h : loadLevels fetch registry missingOnly levels records s = ((loaded, none), s')) :
    List.Forall₂ Record.Extends (recordsAt path records) (recordsAt path loaded) := by
  induction levels generalizing records s with
  | nil =>
      obtain rfl : records = loaded := congrArg (fun r => r.1.1) h
      exact List.forall₂_same.mpr fun r _ => .refl r
  | cons level rest ih =>
      obtain ⟨hlevel, hrest⟩ := List.forall_mem_cons.mp hlevels
      obtain ⟨longer, name', rfl⟩ := (List.eq_nil_or_concat' level).resolve_left fun hnil => by
        simp [hnil] at hlevel
      obtain ⟨forest, mid, hlabels, hloaded⟩ := loadLevels_cons.mp h
      have hlength : path.length ≤ longer.length := by simpa using hlevel
      exact extends_trans (loadLabels_extends hlength hlabels) (ih hrest hloaded)

/-! ### Complete levels -/

/-- All records at a level have its relation. -/
def Complete (records : List Record) (level : List String) : Prop :=
  ∀ path name, level = path ++ [name] → ∀ r ∈ recordsAt path records, r.isLoaded name

lemma complete_concat {path : List String} {name : String} :
    Complete records (path ++ [name]) ↔ ∀ r ∈ recordsAt path records, r.isLoaded name := by
  refine ⟨fun h => h path name rfl, fun h path' name' heq => ?_⟩
  obtain ⟨rfl, hname⟩ := List.append_inj' heq rfl
  obtain rfl : name = name' := by simpa using hname
  exact h

lemma isLoaded_attach {relation : Relation} {name : String} (h : relation.name = name) (batch : Batch)
    (r : Record) : (r.attach relation batch).isLoaded name :=
  h ▸ r.isLoaded_setRelation relation.name _

/-- After all labels of the records without the relation, no record is without it. -/
lemma loadLabels_complete (hregistry : registry.Named) {path : List String} {name : String}
    {labels : List String}
    (hmem : ∀ r ∈ recordsAt path records, isWanted true name r → r.label ∈ labels)
    (h : loadLabels fetch registry (isWanted true name) path name labels records s =
      ((loaded, none), s')) : ∀ r ∈ recordsAt path loaded, r.isLoaded name := by
  induction labels generalizing records s with
  | nil =>
      obtain rfl : records = loaded := congrArg (fun r => r.1.1) h
      intro r hr
      by_contra hmissing
      exact absurd (hmem r hr (by simpa [isWanted] using hmissing)) List.not_mem_nil
  | cons label rest ih =>
      obtain ⟨relation, batch, mid, hfind, -, hrest⟩ := loadLabels_cons h
      refine ih (fun r hr hmissing => ?_) hrest
      rw [recordsAt_modifyAt] at hr
      obtain ⟨before, hbefore, rfl⟩ := List.mem_map.mp hr
      rw [placed] at hmissing ⊢
      split_ifs at hmissing ⊢ with hmember
      · -- a member has been given the relation
        have hloaded := isLoaded_attach (hregistry label name relation hfind) batch before
        simp [isWanted, hloaded] at hmissing
      · refine (List.mem_cons.mp (hmem before hbefore hmissing)).resolve_left fun hlabel => hmember ?_
        simp [hlabel, hmissing]

/-- After the shorter levels and then the longer ones, all are complete. -/
theorem loadLevels_complete (hregistry : registry.Named) {levels : List (List String)}
    (hsorted : levels.Pairwise fun level later => level.length ≤ later.length)
    (hne : ∀ level ∈ levels, level ≠ [])
    (h : loadLevels fetch registry true levels records s = ((loaded, none), s')) :
    ∀ level ∈ levels, Complete loaded level := by
  induction levels generalizing records s with
  | nil => simp
  | cons level rest ih =>
      obtain ⟨hlevel, hrest⟩ := List.forall_mem_cons.mp hne
      obtain ⟨hshorter, hlonger⟩ := List.pairwise_cons.mp hsorted
      obtain ⟨path, name, rfl⟩ := (List.eq_nil_or_concat' level).resolve_left hlevel
      obtain ⟨forest, mid, hlabels, hloaded⟩ := loadLevels_cons.mp h
      have hcomplete := loadLabels_complete hregistry (fun r hr hmissing =>
        mem_labelsOf.mpr ⟨r, List.mem_filter.mpr ⟨hr, hmissing⟩, rfl⟩) hlabels
      have hextends := loadLevels_extends hshorter hloaded
      exact List.forall_mem_cons.mpr
        ⟨complete_concat.mpr (isLoaded_of_extends hextends hcomplete), ih hlonger hrest hloaded⟩

end

/-- Where all levels are complete nothing is loaded. -/
lemma loadLevels_of_complete {m : Type → Type} [Monad m] [LawfulMonad m]
    (fetch : Query → m (Except Error (List Row))) (registry : Registry) {records : List Record}
    {levels : List (List String)} (h : ∀ level ∈ levels, Complete records level) :
    loadLevels fetch registry true levels records = pure (records, none) := by
  induction levels with
  | nil => rfl
  | cons level rest ih =>
      obtain ⟨hlevel, hrest⟩ := List.forall_mem_cons.mp h
      rcases List.eq_nil_or_concat' level with rfl | ⟨path, name, rfl⟩
      · exact ih hrest
      · have hnone : (recordsAt path records).filter (isWanted true name) = [] :=
          List.filter_eq_nil_iff.mpr fun r hr => by
            simp [isWanted, complete_concat.mp hlevel r hr]
        rw [loadLevels, List.getLast?_concat]
        dsimp only
        rw [List.dropLast_concat]
        change (loadLabels fetch registry (isWanted true name) path name
          (labelsOf ((recordsAt path records).filter (isWanted true name))) records >>= _) = _
        rw [hnone, show labelsOf [] = [] from rfl, loadLabels, pure_bind]
        exact ih hrest

/-- **Loading what is missing is idempotent**: once it went well, whatever was answered, every record
that is reached along the beginning of a path has the relation that comes next, and to load what is
missing again asks nothing and changes nothing. -/
theorem load_missing_idempotent {σ : Type} (relations : List Relation) (fetch : Executor σ)
    (records : List Record) (paths : List String) {s s' : σ} {loaded : List Record}
    (h : loadPaths fetch (relations.foldl Registry.register []) true records paths s =
      ((loaded, none), s')) :
    (∀ path ∈ paths, ∀ beginning name rest, pathSegments path = beginning ++ name :: rest →
        ∀ r ∈ recordsAt beginning loaded, r.isLoaded name) ∧
      ∀ {m : Type → Type} [Monad m] [LawfulMonad m] (again : Query → m (Except Error (List Row))),
        loadPaths again (relations.foldl Registry.register []) true loaded paths =
          pure (loaded, none) := by
  have hcomplete := loadLevels_complete (Registry.named_registered relations)
    (expandPaths_sorted paths) (fun level hlevel => (mem_expandPaths.mp hlevel).1) h
  refine ⟨fun path hpath beginning name rest hsegments => ?_, fun again => ?_⟩
  · refine complete_concat.mp (hcomplete _ (mem_expandPaths.mpr ⟨by simp, path, hpath, rest, ?_⟩))
    rw [hsegments, List.append_assoc]
    rfl
  · exact loadLevels_of_complete again _ hcomplete

/-- The posts of a user. -/
def userPosts : Relation :=
  .direct ⟨"posts", .hasMany, "User", "Post", .foreignKey ⟨"id", "user_id"⟩, none, {}⟩

/-- The comments on a post. -/
def postComments : Relation :=
  .direct ⟨"comments", .hasMany, "Post", "Comment", .foreignKey ⟨"id", "post_id"⟩, none, {}⟩

/-- A machine that counts the queries and answers each of them with one node related to the first. -/
def counting : Executor ℕ := fun _ count =>
  (.ok [[(parentKeyColumn, .int 1), (relatedColumn, .object [("id", .int 7)])]], count + 1)

/-- Two users, one of whom has posts already. -/
def halfLoaded : List Record :=
  [.of "User" [("id", .int 1)],
    { Record.of "User" [("id", .int 2)] with
      relations := [("posts", .many [.of "Post" [("id", .int 3)]])] }]

lemma expandPaths_comments : expandPaths ["posts.comments"] = [["posts"], ["posts", "comments"]] := by
  rw [expandPaths, List.mergeSort_of_pairwise (by decide)]
  decide

theorem load_missing_idempotent_comments :
    let registry := [userPosts, postComments].foldl Registry.register []
    ∃ loaded, loadPaths counting registry true halfLoaded ["posts.comments"] 0 =
        ((loaded, none), 2) ∧
      (recordsAt ["posts"] loaded).length = 2 ∧
      (∀ r ∈ recordsAt ["posts"] loaded, r.isLoaded "comments") ∧
      loadPaths counting registry true loaded ["posts.comments"] 2 = ((loaded, none), 2) := by
  intro registry
  obtain ⟨loaded, hloaded, hlength⟩ : ∃ loaded,
      loadPaths counting registry true halfLoaded ["posts.comments"] 0 = ((loaded, none), 2) ∧
        (recordsAt ["posts"] loaded).length = 2 := by
    rw [loadPaths, expandPaths_comments]
    exact ⟨_, rfl, rfl⟩
  obtain ⟨hcomplete, hagain⟩ := load_missing_idempotent _ _ _ _ hloaded
  refine ⟨loaded, hloaded, hlength, ?_, congrFun (hagain counting) 2⟩
  exact hcomplete "posts.comments" (by simp) ["posts"] "comments" [] (by decide)

end GraphMapper
