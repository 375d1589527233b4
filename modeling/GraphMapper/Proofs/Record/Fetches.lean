import GraphMapper.Proofs.Graph.Loading
import GraphMapper.Proofs.Record.Loaded

/-!
The queries that loading asks.

* `recorded`: an executor that keeps a record of its queries;
* `Fetch`, `Fetch.Serves`: a query with all that it is asked for, and the parents that it serves;
* `fetchOf`, `fetchesOf`: the fetches of a group of parents and of a level;
* `batchLoad_recorded`, `loadLabels_recorded`, `loadLevels_recorded`: what is asked on the way;
* `MeetsLevel`, `Met`, `Fetched`: the forest that a level comes upon, what is fetched for it, and the
  fetches of all levels;
* `one_fetch_per_group` (**one fetch for each level and label**): a load that goes well asks one query
  for each level and each label with a key among the parents there, shorter levels first, each with
  every key once.
-/

namespace GraphMapper

/-! ### Fetches -/

/-- An executor that keeps a record of its queries. -/
def recorded {σ : Type} (fetch : Executor σ) : Executor (List Query × σ) := fun q (log, s) =>
  let (reply, s) := fetch q s
  (reply, (log ++ [q], s))

/-- A query of a load: the level and the label of the parents that it is asked for, the relation and
the keys that it is made of. -/
structure Fetch where
  level : List String
  label : String
  relation : Relation
  keys : List Value
  query : Query

/-- The fetch for a group of parents; there is none if no parent has a key. -/
def fetchOf (level : List String) (label : String) (relation : Relation) (parents : List Record) :
    Option Fetch :=
  let keys := parentKeys parents relation
  if keys.isEmpty then none
  else (relation.lookup keys).toOption.map fun found =>
    ⟨level, label, relation, keys, found.statement.query⟩

/-- The fetches of a level, label by label. -/
def fetchesOf (registry : Registry) (missingOnly : Bool) (path : List String) (name : String)
    (records : List Record) (labels : List String) : List Fetch :=
  labels.filterMap fun label => (registry.find label name).toOption.bind fun relation =>
    fetchOf (path ++ [name]) label relation
      (membersAt (isWanted missingOnly name) path label records)

section

variable {σ : Type} {fetch : Executor σ} {registry : Registry} {missingOnly : Bool}
  {records loaded : List Record} {log : List Query} {s : σ} {after : List Query × σ}

/-! ### What is asked on the way -/

lemma batchLoad_recorded {parents : List Record} {relation : Relation} {batch : Batch}
    (level : List String) (label : String)
    (h : batchLoad (recorded fetch) parents relation (log, s) = (.ok batch, after)) :
    after.1 = log ++ (fetchOf level label relation parents).toList.map (·.query) ∧
      ((fetchOf level label relation parents).isSome ↔ parentKeys parents relation ≠ []) := by
  rw [batchLoad] at h
  rw [fetchOf]
  split_ifs at h ⊢ with hempty
  · obtain rfl : (log, s) = after := congrArg Prod.snd h
    simpa using hempty
  · cases hfound : relation.lookup (parentKeys parents relation) with
    | error cause =>
        rw [hfound] at h
        cases congrArg Prod.fst h
    | ok found =>
        rw [hfound] at h
        change StateT.bind (recorded fetch found.statement.query) _ (log, s) = _ at h
        rw [StateT.bind, recorded] at h
        rcases hreply : fetch found.statement.query s with ⟨e | rows, s'⟩
        · rw [hreply] at h
          cases congrArg Prod.fst h
        · rw [hreply] at h
          obtain rfl : (log ++ [found.statement.query], s') = after := congrArg Prod.snd h
          exact ⟨rfl, fun _ => by simpa using hempty, fun _ => rfl⟩

/-- Parents of another label are not changed. -/
lemma membersAt_placed {wanted : Record → Bool} {path : List String} {label other : String}
    (h : other ≠ label) (relation : Relation) (batch : Batch) :
    membersAt wanted path other
        (records.map (Record.modifyAt path (placed wanted label relation batch))) =
      membersAt wanted path other records := by
  rw [membersAt, recordsAt_modifyAt, List.filter_map, membersAt]
  have hsame (r : Record) (hr : r.label = other) : placed wanted label relation batch r = r := by
    rw [placed, if_neg (by simp [hr, h])]
  have hmember (r : Record) : ((fun r => decide (r.label = other) && wanted r) ∘
      placed wanted label relation batch) r = (decide (r.label = other) && wanted r) := by
    by_cases hr : r.label = other
    · rw [Function.comp_apply, hsame r hr]
    · have hlabel := (extends_placed wanted label relation batch r).label
      simp [hlabel, hr]
  rw [List.filter_congr fun r _ => hmember r]
  refine (List.map_congr_left fun r hr => hsame r ?_).trans (List.map_id' _)
  exact of_decide_eq_true (Bool.and_eq_true_iff.mp (List.mem_filter.mp hr).2).1

lemma fetchesOf_cons {label name : String} {relation : Relation}
    (h : registry.find label name = .ok relation) (path : List String) (rest : List String) :
    fetchesOf registry missingOnly path name records (label :: rest) =
      (fetchOf (path ++ [name]) label relation
          (membersAt (isWanted missingOnly name) path label records)).toList ++
        fetchesOf registry missingOnly path name records rest := by
  have hfetch : ((registry.find label name).toOption.bind fun relation =>
      fetchOf (path ++ [name]) label relation
        (membersAt (isWanted missingOnly name) path label records)) =
      fetchOf (path ++ [name]) label relation
        (membersAt (isWanted missingOnly name) path label records) := by
    rw [h]
    rfl
  rw [fetchesOf, List.filterMap_cons, hfetch, fetchesOf]
  cases fetchOf (path ++ [name]) label relation
    (membersAt (isWanted missingOnly name) path label records) <;> rfl

/-- The labels of a level ask for the parents as they are when the level is reached. -/
lemma loadLabels_recorded {path : List String} {name : String} {labels : List String}
    (hlabels : labels.Nodup)
    (h : loadLabels (recorded fetch) registry (isWanted missingOnly name) path name labels records
      (log, s) = ((loaded, none), after)) :
    after.1 = log ++ (fetchesOf registry missingOnly path name records labels).map (·.query) ∧
      ∀ label ∈ labels, ∃ relation, registry.find label name = .ok relation ∧
        let parents := membersAt (isWanted missingOnly name) path label records
        ((fetchOf (path ++ [name]) label relation parents).isSome ↔
          parentKeys parents relation ≠ []) := by
  induction labels generalizing records log s with
  | nil =>
      obtain rfl : (log, s) = after := congrArg Prod.snd h
      simp [fetchesOf]
  | cons label rest ih =>
      obtain ⟨hlabel, hrest⟩ := List.nodup_cons.mp hlabels
      obtain ⟨relation, batch, ⟨mid, s'⟩, hfind, hbatch, hloaded⟩ := loadLabels_cons h
      obtain ⟨rfl, hsome⟩ := batchLoad_recorded (path ++ [name]) label hbatch
      obtain ⟨hafter, hall⟩ := ih hrest hloaded
      have hparents (other : String) (hother : other ∈ rest) :
          membersAt (isWanted missingOnly name) path other (records.map (Record.modifyAt path
            (placed (isWanted missingOnly name) label relation batch))) =
              membersAt (isWanted missingOnly name) path other records := by
        refine membersAt_placed ?_ relation batch
        rintro rfl
        exact hlabel hother
      have hfetches : fetchesOf registry missingOnly path name (records.map (Record.modifyAt path
          (placed (isWanted missingOnly name) label relation batch))) rest =
            fetchesOf registry missingOnly path name records rest :=
        List.filterMap_congr fun other hother => by rw [hparents other hother]
      constructor
      · rw [hafter, hfetches, fetchesOf_cons hfind, List.map_append, List.append_assoc]
      · refine List.forall_mem_cons.mpr ⟨⟨relation, hfind, hsome⟩, fun other hother => ?_⟩
        obtain ⟨r, hr, hiff⟩ := hall other hother
        rw [hparents other hother] at hiff
        exact ⟨r, hr, hiff⟩

/-! ### The fetches of a level -/

lemma eq_of_fetchOf {level : List String} {label : String} {relation : Relation}
    {parents : List Record} {f : Fetch} (h : fetchOf level label relation parents = some f) :
    f.level = level ∧ f.label = label ∧ f.relation = relation ∧
      f.keys = parentKeys parents relation ∧
      ∃ found, relation.lookup f.keys = .ok found ∧ f.query = found.statement.query := by
  rw [fetchOf] at h
  split_ifs at h
  cases hfound : relation.lookup (parentKeys parents relation) with
  | error cause =>
      rw [hfound] at h
      cases h
  | ok found =>
      rw [hfound] at h
      obtain rfl := Option.some.inj h
      exact ⟨rfl, rfl, rfl, rfl, found, hfound, rfl⟩

lemma mem_fetchesOf {path : List String} {name : String} {labels : List String} {f : Fetch} :
    f ∈ fetchesOf registry missingOnly path name records labels ↔
      ∃ label ∈ labels, ∃ relation, registry.find label name = .ok relation ∧
        fetchOf (path ++ [name]) label relation
          (membersAt (isWanted missingOnly name) path label records) = some f := by
  rw [fetchesOf, List.mem_filterMap]
  refine exists_congr fun label => and_congr_right fun _ => ?_
  cases registry.find label name with
  | error e => simp [Except.toOption]
  | ok relation => simp [Except.toOption]

lemma labelsAt_nodup (path : List String) (name : String) (records : List Record) :
    (labelsAt missingOnly path name records).Nodup :=
  labelsOf_nodup _

lemma label_fetchesOf (path : List String) (name : String) (labels : List String) :
    ((fetchesOf registry missingOnly path name records labels).map (·.label)).Sublist labels := by
  induction labels with
  | nil => exact .slnil
  | cons label rest ih =>
      cases hfind : registry.find label name with
      | error e =>
          have hskip : fetchesOf registry missingOnly path name records (label :: rest) =
              fetchesOf registry missingOnly path name records rest := by
            rw [fetchesOf, List.filterMap_cons, hfind]
            rfl
          rw [hskip]
          exact ih.cons label
      | ok relation =>
          rw [fetchesOf_cons hfind, List.map_append]
          cases hfetch : fetchOf (path ++ [name]) label relation
            (membersAt (isWanted missingOnly name) path label records) with
          | none => exact ih.cons label
          | some f =>
              obtain ⟨-, hlabel, -⟩ := eq_of_fetchOf hfetch
              exact hlabel ▸ ih.cons_cons f.label

lemma level_of_mem_fetchesOf {path : List String} {name : String} {labels : List String} {f : Fetch}
    (h : f ∈ fetchesOf registry missingOnly path name records labels) : f.level = path ++ [name] := by
  obtain ⟨label, -, relation, -, hfetch⟩ := mem_fetchesOf.mp h
  exact (eq_of_fetchOf hfetch).1

/-- No label is asked for twice. -/
lemma fetchesOf_nodup (path : List String) (name : String) :
    ((fetchesOf registry missingOnly path name records (labelsAt missingOnly path name records)).map
      fun f => (f.level, f.label)).Nodup := by
  have hlabels : ((fetchesOf registry missingOnly path name records
      (labelsAt missingOnly path name records)).map (·.label)).Nodup :=
    (label_fetchesOf path name _).nodup (labelsAt_nodup path name records)
  refine List.Nodup.of_map Prod.snd ?_
  rwa [List.map_map]

end

/-! ### Whole loads -/

/-- The forest that a load has come to when it turns to a level. -/
def MeetsLevel {σ : Type} (fetch : Executor σ) (registry : Registry) (missingOnly : Bool)
    (levels : List (List String)) (records : List Record) (s : σ) (level : List String)
    (forest : List Record) : Prop :=
  ∃ earlier later mid, levels = earlier ++ level :: later ∧
    loadLevels fetch registry missingOnly earlier records s = ((forest, none), mid)

section

variable {σ : Type} {fetch : Executor σ} {registry : Registry} {missingOnly : Bool}
  {records loaded : List Record} {log : List Query} {s : σ} {after : List Query × σ}

/-- What a load comes upon and fetches at a level. -/
structure Met (fetch : Executor σ) (registry : Registry) (missingOnly : Bool)
    (levels : List (List String)) (records loaded : List Record) (start : List Query × σ)
    (fetches : List Fetch) (path : List String) (name : String) (forest : List Record) : Prop where
  meets : MeetsLevel (recorded fetch) registry missingOnly levels records start (path ++ [name]) forest
  kept : List.Forall₂ Record.Extends (recordsAt path forest) (recordsAt path loaded)
  fetched : ∀ f, f ∈ fetches ∧ f.level = path ++ [name] ↔
    f ∈ fetchesOf registry missingOnly path name forest (labelsAt missingOnly path name forest)
  asked : ∀ label ∈ labelsAt missingOnly path name forest, ∃ relation,
    registry.find label name = .ok relation ∧
      let parents := membersAt (isWanted missingOnly name) path label forest
      ((fetchOf (path ++ [name]) label relation parents).isSome ↔ parentKeys parents relation ≠ [])

/-- What is met at one level is not changed by a level before it. -/
lemma Met.cons {levels : List (List String)} {forest forest' : List Record}
    {start mid : List Query × σ} {first fetches : List Fetch} {path path' : List String}
    {name name' : String}
    (hlabels : loadLabels (recorded fetch) registry (isWanted missingOnly name) path name
      (labelsAt missingOnly path name records) records start = ((forest, none), mid))
    (hfirst : ∀ f ∈ first, f.level ≠ path' ++ [name'])
    (h : Met fetch registry missingOnly levels forest loaded mid fetches path' name' forest') :
    Met fetch registry missingOnly ((path ++ [name]) :: levels) records loaded start
      (first ++ fetches) path' name' forest' := by
  obtain ⟨⟨earlier, later, mid', hlevels, hrun⟩, hkept, hfetched, hasked⟩ := h
  refine ⟨⟨(path ++ [name]) :: earlier, later, mid', by rw [hlevels]; rfl,
    loadLevels_cons.mpr ⟨forest, _, hlabels, hrun⟩⟩, hkept, fun f => ?_, hasked⟩
  rw [← hfetched, List.mem_append]
  exact and_congr_left fun hpath => or_iff_right fun hf => hfirst f hf hpath

/-- The fetches of a load, level by level. -/
structure Fetched (fetch : Executor σ) (registry : Registry) (missingOnly : Bool)
    (levels : List (List String)) (records loaded : List Record) (start : List Query × σ)
    (fetches : List Fetch) : Prop where
  level : ∀ f ∈ fetches, f.level ∈ levels
  nodup : (fetches.map fun f => (f.level, f.label)).Nodup
  sorted : fetches.Pairwise fun f later => f.level.length ≤ later.level.length
  met : ∀ path name, path ++ [name] ∈ levels → ∃ forest,
    Met fetch registry missingOnly levels records loaded start fetches path name forest

theorem loadLevels_recorded {levels : List (List String)} (hnodup : levels.Nodup)
    (hsorted : levels.Pairwise fun level later => level.length ≤ later.length)
    (hne : ∀ level ∈ levels, level ≠ [])
    (h : loadLevels (recorded fetch) registry missingOnly levels records (log, s) =
      ((loaded, none), after)) :
    ∃ fetches, after.1 = log ++ fetches.map (·.query) ∧
      Fetched fetch registry missingOnly levels records loaded (log, s) fetches := by
  induction levels generalizing records log s with
  | nil =>
      obtain rfl : (log, s) = after := congrArg Prod.snd h
      exact ⟨[], by simp, ⟨by simp, by simp, by simp, by simp⟩⟩
  | cons level rest ih =>
      obtain ⟨hlevel, hnodup'⟩ := List.nodup_cons.mp hnodup
      obtain ⟨hshorter, hlonger⟩ := List.pairwise_cons.mp hsorted
      obtain ⟨hne', hrest⟩ := List.forall_mem_cons.mp hne
      obtain ⟨path, name, rfl⟩ := (List.eq_nil_or_concat' level).resolve_left hne'
      obtain ⟨forest, ⟨mid, s'⟩, hlabels, hloaded⟩ := loadLevels_cons.mp h
      obtain ⟨rfl, hasked⟩ := loadLabels_recorded (labelsAt_nodup _ _ _) hlabels
      obtain ⟨fetches, hafter, hfetched⟩ := ih hnodup' hlonger hrest hloaded
      let first := fetchesOf registry missingOnly path name records
        (labelsAt missingOnly path name records)
      have hfirst (f : Fetch) (hf : f ∈ first) : f.level = path ++ [name] := level_of_mem_fetchesOf hf
      have hlater (f : Fetch) (hf : f ∈ fetches) : f.level ≠ path ++ [name] := fun heq =>
        hlevel (heq ▸ hfetched.level f hf)
      refine ⟨first ++ fetches, by rw [hafter, List.append_assoc, ← List.map_append], ?_, ?_, ?_, ?_⟩
      · refine List.forall_mem_append.mpr ⟨fun f hf => ?_, fun f hf => ?_⟩
        · exact hfirst f hf ▸ List.mem_cons_self
        · exact List.mem_cons_of_mem _ (hfetched.level f hf)
      · rw [List.map_append]
        refine (fetchesOf_nodup path name).append hfetched.nodup ?_
        rintro pair hpair hpair'
        obtain ⟨f, hf, rfl⟩ := List.mem_map.mp hpair
        obtain ⟨f', hf', heq⟩ := List.mem_map.mp hpair'
        exact hlater f' hf' ((congrArg Prod.fst heq).trans (hfirst f hf))
      · refine List.pairwise_append.mpr ⟨?_, hfetched.sorted, fun f hf later hlater => ?_⟩
        · exact List.pairwise_of_forall_mem_list fun f hf f' hf' => by rw [hfirst f hf, hfirst f' hf']
        · rw [hfirst f hf]
          exact hshorter _ (hfetched.level later hlater)
      · intro path' name' hmem
        rcases List.mem_cons.mp hmem with heq | hmem
        · -- this level comes upon the forest that the load starts with
          obtain ⟨rfl, hname⟩ := List.append_inj' heq rfl
          obtain rfl : name' = name := by simpa using hname
          have hkept := extends_trans (loadLabels_extends le_rfl hlabels)
            (loadLevels_extends hshorter hloaded)
          refine ⟨records, ⟨[], rest, (log, s), rfl, rfl⟩, hkept, fun f => ?_, hasked⟩
          rw [List.mem_append]
          constructor
          · rintro ⟨hf | hf, hpath⟩
            · exact hf
            · exact absurd hpath (hlater f hf)
          · exact fun hf => ⟨.inl hf, hfirst f hf⟩
        · obtain ⟨forest', hmet⟩ := hfetched.met path' name' hmem
          refine ⟨forest', hmet.cons hlabels fun f hf heq => hlevel ?_⟩
          rw [← hfirst f hf, heq]
          exact hmem

end

/-! ### Keys of parents -/

section

variable {parents : List Record} {relation : Relation}

lemma keyText_parentKeys (parents : List Record) (relation : Relation) :
    ((parentKeys parents relation).map Value.keyText).Nodup :=
  (Value.keyText_distinctFrom _ []).1

lemma exists_of_mem_parentKeys {k : Value} (h : k ∈ parentKeys parents relation) :
    ∃ parent ∈ parents, parent.get? relation.parentKey = some k :=
  List.mem_filterMap.mp (List.mem_of_mem_filter (Value.distinctFrom_subset [] _ h))

/-- Every key of a parent is bound, up to its text. -/
lemma exists_mem_parentKeys {parent : Record} (hparent : parent ∈ parents) {k : Value}
    (h : parent.get? relation.parentKey = some k) :
    ∃ k' ∈ parentKeys parents relation, k'.keyText = k.keyText := by
  refine Value.exists_mem_distinctFrom (List.mem_filter.mpr ⟨?_, ?_⟩) List.not_mem_nil
  · exact List.mem_filterMap.mpr ⟨parent, hparent, h⟩
  · cases k with
    | null => exact absurd rfl (Record.ne_null_of_get? h)
    | _ => rfl

lemma parentKeys_ne_nil :
    parentKeys parents relation ≠ [] ↔
      ∃ parent ∈ parents, (parent.get? relation.parentKey).isSome := by
  constructor
  · intro h
    obtain ⟨k, hk⟩ := List.exists_mem_of_ne_nil _ h
    obtain ⟨parent, hparent, hget⟩ := exists_of_mem_parentKeys hk
    exact ⟨parent, hparent, by rw [hget]; rfl⟩
  · rintro ⟨parent, hparent, hsome⟩
    obtain ⟨k, hget⟩ := Option.isSome_iff_exists.mp hsome
    obtain ⟨k', hk', -⟩ := exists_mem_parentKeys hparent hget
    exact List.ne_nil_of_mem hk'

/-- A lookup binds its keys before anything else. -/
lemma lookup_bound {keys : List Value} {found : Lookup} (h : relation.lookup keys = .ok found) :
    Fields.get? found.statement.query.parameters "p0" = some (.array (Value.distinctKeys keys)) := by
  rw [Relation.lookup_eq] at h
  have hadds := relation.finalScope.filter.compile_adds (I := .json) (g := .ofNodes [])
    relatedVariable (Relation.keyBindings keys)
  rcases hc : (relation.finalScope.filter.compile relatedVariable).on (Relation.keyBindings keys)
    with ⟨e | scope, b⟩
  · rw [hc] at h
    cases h
  · rw [hc] at h
    obtain rfl := Except.ok.inj h
    have hgrows := (hadds.of_eq_ok hc).1
    exact Bindings.get?_parameters (hgrows.getElem? (k := 0) rfl)

end

/-! ### One fetch for each group -/

/-- A fetch serves a group of parents: it is the query of the relation, and the list of keys that it
binds holds each key of a parent once, keys being the same if their texts are. -/
structure Fetch.Serves (f : Fetch) (parents : List Record) : Prop where
  query : ∃ found, f.relation.lookup f.keys = .ok found ∧ f.query = found.statement.query
  bound : Fields.get? f.query.parameters "p0" = some (.array f.keys)
  distinct : (f.keys.map Value.keyText).Nodup
  sound : ∀ k ∈ f.keys, ∃ parent ∈ parents, parent.get? f.relation.parentKey = some k
  complete : ∀ parent ∈ parents, ∀ k, parent.get? f.relation.parentKey = some k →
    ∃ k' ∈ f.keys, k'.keyText = k.keyText
  mem_keys :
    Set.InjOn Value.keyText {k | ∃ parent ∈ parents, parent.get? f.relation.parentKey = some k} →
    ∀ k, k ∈ f.keys ↔ ∃ parent ∈ parents, parent.get? f.relation.parentKey = some k

lemma serves_of_fetchOf {level : List String} {label : String} {relation : Relation}
    {parents : List Record} {f : Fetch} (h : fetchOf level label relation parents = some f) :
    f.Serves parents := by
  obtain ⟨-, -, rfl, hkeys, found, hfound, hquery⟩ := eq_of_fetchOf h
  refine ⟨⟨found, hfound, hquery⟩, ?_, ?_, ?_, ?_, ?_⟩
  · rw [hquery, lookup_bound hfound, hkeys, parentKeys, Value.distinctKeys_distinctKeys]
  · exact hkeys ▸ keyText_parentKeys parents f.relation
  · exact fun k hk => exists_of_mem_parentKeys (hkeys ▸ hk)
  · exact fun parent hparent k hk => hkeys ▸ exists_mem_parentKeys hparent hk
  · exact fun hinj k => hkeys ▸ Relation.mem_parentKeys hinj

/-- At a level a label is asked for just if one of its parents has a key. -/
lemma Met.exists_fetch_iff {σ : Type} {fetch : Executor σ} {registry : Registry} {missingOnly : Bool}
    {levels : List (List String)} {records loaded forest : List Record} {start : List Query × σ}
    {fetches : List Fetch} {path : List String} {name : String}
    (h : Met fetch registry missingOnly levels records loaded start fetches path name forest)
    (label : String) :
    (∃ f ∈ fetches, f.level = path ++ [name] ∧ f.label = label) ↔
      ∃ relation, registry.find label name = .ok relation ∧
        ∃ parent ∈ membersAt (isWanted missingOnly name) path label forest,
          (parent.get? relation.parentKey).isSome := by
  constructor
  · rintro ⟨f, hf, hpath, rfl⟩
    obtain ⟨label, hlabel, relation, hfind, hfetch⟩ :=
      mem_fetchesOf.mp ((h.fetched f).mp ⟨hf, hpath⟩)
    obtain ⟨-, rfl, -⟩ := eq_of_fetchOf hfetch
    obtain ⟨relation', hfind', hsome⟩ := h.asked _ hlabel
    obtain rfl := Except.ok.inj (hfind'.symm.trans hfind)
    exact ⟨relation', hfind, parentKeys_ne_nil.mp (hsome.mp (by rw [hfetch]; rfl))⟩
  · rintro ⟨relation, hfind, parent, hparent, hkey⟩
    obtain ⟨hmem, hmember⟩ := List.mem_filter.mp hparent
    obtain ⟨hsame, hwanted⟩ := Bool.and_eq_true_iff.mp hmember
    have hlabel : label ∈ labelsAt missingOnly path name forest :=
      mem_labelsOf.mpr ⟨parent, List.mem_filter.mpr ⟨hmem, hwanted⟩, of_decide_eq_true hsame⟩
    obtain ⟨relation', hfind', hsome⟩ := h.asked _ hlabel
    obtain rfl := Except.ok.inj (hfind'.symm.trans hfind)
    obtain ⟨f, hfetch⟩ := Option.isSome_iff_exists.mp
      (hsome.mpr (parentKeys_ne_nil.mpr ⟨parent, hparent, hkey⟩))
    obtain ⟨hf, hpath⟩ :=
      (h.fetched f).mpr (mem_fetchesOf.mpr ⟨label, hlabel, relation', hfind, hfetch⟩)
    exact ⟨f, hf, hpath, (eq_of_fetchOf hfetch).2.1⟩

/-- **One fetch for each level and label**: a load that goes well, whatever is answered, asks one query
for each beginning of a path and each label with a key among the parents there that it looks at, and no
other; the parents are those it has come to by the levels before, and they are the same in the end but
for what was loaded.  No level is asked for before a shorter one, and each query binds every key of its
parents once, keys being the same if their texts are. -/
theorem one_fetch_per_group {σ : Type} (registry : Registry) (fetch : Executor σ)
    (missingOnly : Bool) (records : List Record) (paths : List String) {s : σ} {loaded : List Record}
    {after : List Query × σ}
    (h : loadPaths (recorded fetch) registry missingOnly records paths ([], s) =
      ((loaded, none), after)) :
    ∃ fetches : List Fetch, after.1 = fetches.map (·.query) ∧
      (fetches.map fun f => (f.level, f.label)).Nodup ∧
      (fetches.Pairwise fun f later => f.level.length ≤ later.level.length) ∧
      (∀ f ∈ fetches, f.level ≠ [] ∧ ∃ p ∈ paths, f.level <+: pathSegments p) ∧
      ∀ path name, (∃ p ∈ paths, path ++ [name] <+: pathSegments p) → ∃ forest,
        MeetsLevel (recorded fetch) registry missingOnly (expandPaths paths) records ([], s)
          (path ++ [name]) forest ∧
        List.Forall₂ Record.Extends (recordsAt path forest) (recordsAt path loaded) ∧
        (∀ label, (∃ f ∈ fetches, f.level = path ++ [name] ∧ f.label = label) ↔
          ∃ relation, registry.find label name = .ok relation ∧
            ∃ parent ∈ membersAt (isWanted missingOnly name) path label forest,
              (parent.get? relation.parentKey).isSome) ∧
        ∀ f ∈ fetches, f.level = path ++ [name] → registry.find f.label name = .ok f.relation ∧
          f.Serves (membersAt (isWanted missingOnly name) path f.label forest) := by
  obtain ⟨fetches, hafter, hfetched⟩ := loadLevels_recorded (expandPaths_nodup paths)
    (expandPaths_sorted paths) (fun level hlevel => (mem_expandPaths.mp hlevel).1) h
  refine ⟨fetches, hafter, hfetched.nodup, hfetched.sorted,
    fun f hf => mem_expandPaths.mp (hfetched.level f hf), fun path name hprefix => ?_⟩
  obtain ⟨forest, hmet⟩ := hfetched.met path name (mem_expandPaths.mpr ⟨by simp, hprefix⟩)
  refine ⟨forest, hmet.meets, hmet.kept, hmet.exists_fetch_iff, fun f hf hpath => ?_⟩
  obtain ⟨label, hlabel, relation, hfind, hfetch⟩ :=
    mem_fetchesOf.mp ((hmet.fetched f).mp ⟨hf, hpath⟩)
  obtain ⟨-, rfl, rfl, -⟩ := eq_of_fetchOf hfetch
  exact ⟨hfind, serves_of_fetchOf hfetch⟩

/-- Three users, two of whom have one key and one of whom has none. -/
def twiceTheSame : List Record :=
  [.of "User" [("id", .int 1)], .of "User" [("id", .int 1)], .of "User" []]

theorem one_fetch_per_group_comments :
    let registry := [userPosts, postComments].foldl Registry.register []
    ∃ loaded log, loadPaths (recorded counting) registry false twiceTheSame ["posts.comments"]
        ([], 0) = ((loaded, none), (log, 2)) ∧
      ∃ fetches : List Fetch, log = fetches.map (·.query) ∧ fetches.length = 2 ∧
        ∃ f ∈ fetches, f.level = ["posts"] ∧ f.label = "User" ∧ ∀ k, k ∈ f.keys ↔ k = .int 1 := by
  intro registry
  obtain ⟨loaded, log, hloaded, hlength⟩ : ∃ loaded log,
      loadPaths (recorded counting) registry false twiceTheSame ["posts.comments"] ([], 0) =
          ((loaded, none), (log, 2)) ∧
        log.length = 2 := by
    rw [loadPaths, expandPaths_comments]
    exact ⟨_, _, rfl, rfl⟩
  obtain ⟨fetches, hlog, -, -, -, hlevels⟩ := one_fetch_per_group _ _ _ _ _ hloaded
  replace hlog : log = fetches.map (·.query) := hlog
  refine ⟨loaded, log, hloaded, fetches, hlog, by rw [← hlength, hlog, List.length_map], ?_⟩
  obtain ⟨forest, ⟨earlier, later, mid, hexpand, hrun⟩, -, hasked, hserves⟩ :=
    hlevels [] "posts" ⟨"posts.comments", by simp, ["comments"], by decide⟩
  -- the first level comes upon the forest that the load starts with
  obtain rfl : twiceTheSame = forest := by
    rw [expandPaths_comments] at hexpand
    cases earlier with
    | nil => exact congrArg (fun r => r.1.1) hrun
    | cons level earlier =>
        obtain ⟨-, hrest⟩ := List.cons.inj hexpand
        cases earlier <;> simp at hrest
  have hmembers : membersAt (isWanted false "posts") [] "User" twiceTheSame = twiceTheSame := rfl
  obtain ⟨f, hf, hlevel, hlabel⟩ := (hasked "User").mpr
    ⟨userPosts, rfl, .of "User" [("id", .int 1)], hmembers ▸ List.mem_cons_self, rfl⟩
  obtain ⟨hfind, hserved⟩ := hserves f hf hlevel
  rw [hlabel] at hfind hserved
  rw [hmembers] at hserved
  have hrelation : userPosts = f.relation := Except.ok.inj hfind
  have hkeys (k : Value) : (∃ parent ∈ twiceTheSame, parent.get? f.relation.parentKey = some k) ↔
      k = .int 1 := by
    have hone : (Record.of "User" [("id", .int 1)]).get? "id" = some (.int 1) := rfl
    have hnone : (Record.of "User" []).get? "id" = none := rfl
    rw [← hrelation]
    change (∃ parent ∈ twiceTheSame, parent.get? "id" = some k) ↔ _
    simp [twiceTheSame, hone, hnone, eq_comm]
  refine ⟨f, hf, hlevel, hlabel, fun k => (hserved.mem_keys ?_ k).trans (hkeys k)⟩
  rintro v hv w hw -
  rw [(hkeys v).mp hv, (hkeys w).mp hw]

end GraphMapper
