import GraphMapper.Proofs.Pivot.Reader
import GraphMapper.Proofs.Store.Database

/-!
Synchronizing the related keys of a parent.

* `PivotChanges.Tells`, `PivotChanges.diff_tells` (**the difference is exact**): changes tell the keys
  that are in one of two sets alone;
* `Keeping.attachedKeys`, `Keeping.applyChanges`, `Keeping.refreshPivots`: the parts of a
  synchronization, inside a transaction;
* `Client.sync_reaches` (**synchronizing reaches the desired keys**): the keys that are attached
  afterwards, what is told about them, and that there is nothing to do a second time.
-/

namespace GraphMapper

open Cypher (Graph Interpretation Statement playAll)

/-! ### Differences -/

/-- The keys that a synchronization leaves attached. -/
def synced (detaching : Bool) (before : Set Value) (desired : List Value) : Set Value :=
  (if detaching then ∅ else before) ∪ {v | v ∈ desired}

lemma synced_subset (detaching : Bool) (before : Set Value) (desired : List Value) :
    synced detaching before desired ⊆ before ∪ {v | v ∈ desired} := by
  cases detaching <;> simp [synced]

/-- The keys that a synchronization takes away if they are attached. -/
def unwanted (detaching : Bool) (desired : List Value) : Set Value :=
  {v | detaching = true ∧ v ∉ desired}

lemma mem_unwanted_of_notMem_synced {detaching : Bool} {before : Set Value} {desired : List Value}
    {v : Value} (hv : v ∈ before) (hnot : v ∉ synced detaching before desired) :
    v ∈ unwanted detaching desired := by
  cases detaching with
  | true => exact ⟨rfl, fun hdesired => hnot (.inr hdesired)⟩
  | false => exact absurd (.inl hv) hnot

/-- A second time leaves what the first time left. -/
lemma synced_synced (detaching : Bool) (before : Set Value) (desired : List Value) :
    synced detaching (synced detaching before desired) desired = synced detaching before desired := by
  cases detaching <;> simp [synced, Set.union_assoc]

namespace PivotChanges

/-- The changes tell the keys that are attached afterwards alone, and those that were before alone. -/
structure Tells (changes : PivotChanges) (before after : Set Value) : Prop where
  attached_nodup : changes.attached.Nodup
  mem_attached : ∀ v, v ∈ changes.attached ↔ v ∈ after ∧ v ∉ before
  detached_nodup : changes.detached.Nodup
  mem_detached : ∀ v, v ∈ changes.detached ↔ v ∈ before ∧ v ∉ after

/-- Where nothing changes, nothing is told. -/
lemma Tells.eq_nil {changes : PivotChanges} {s : Set Value} (h : changes.Tells s s) :
    changes.attached = [] ∧ changes.detached = [] :=
  ⟨List.eq_nil_iff_forall_not_mem.mpr fun v hv => ((h.mem_attached v).mp hv).2
      ((h.mem_attached v).mp hv).1,
    List.eq_nil_iff_forall_not_mem.mpr fun v hv => ((h.mem_detached v).mp hv).2
      ((h.mem_detached v).mp hv).1⟩

/-- Without what is detached and with what is attached there is what is to be there. -/
lemma Tells.result {changes : PivotChanges} {before after : Set Value}
    (h : changes.Tells before after) (hinj : Set.InjOn Value.keyText (before ∪ after)) :
    {v ∈ before | v ∉ Value.distinct changes.detached} ∪ {v | v ∈ Value.distinct changes.attached} =
      after := by
  have hdetached {v : Value} : v ∈ Value.distinct changes.detached ↔ v ∈ before ∧ v ∉ after :=
    (Value.mem_distinct (hinj.mono fun v hv => .inl ((h.mem_detached v).mp hv).1)).trans
      (h.mem_detached v)
  have hattached {v : Value} : v ∈ Value.distinct changes.attached ↔ v ∈ after ∧ v ∉ before :=
    (Value.mem_distinct (hinj.mono fun v hv => .inr ((h.mem_attached v).mp hv).1)).trans
      (h.mem_attached v)
  ext v
  simp only [Set.mem_union, Set.mem_ofPred_eq, hdetached, hattached]
  tauto

/-- Only what is to be written makes a synchronization update. -/
lemma refresh_of_updated {desired current : List Value} {refresh detaching : Bool}
    (h : (if detaching then diff desired current refresh
      else { diff desired current refresh with detached := [] }).updated ≠ []) : refresh = true := by
  by_contra hnone
  refine h ?_
  split_ifs <;> exact if_neg hnone

section

variable {desired current : List Value}
  (hinj : Set.InjOn Value.keyText ({v | v ∈ desired} ∪ {v | v ∈ current}))

include hinj

/-- Keys without the ones among others. -/
lemma mem_filter_not_isKeyOf {v : Value} :
    v ∈ (Value.distinct desired).filter (fun key => !Value.isKeyOf (Value.distinct current) key) ↔
      v ∈ desired ∧ v ∉ current := by
  have hcurrent : Set.InjOn Value.keyText {v | v ∈ current} := hinj.mono Set.subset_union_right
  rw [List.mem_filter, Value.mem_distinct (hinj.mono Set.subset_union_left)]
  refine and_congr_right fun hv => ?_
  have hkeys : Set.InjOn Value.keyText ({v} ∪ {w | w ∈ Value.distinct current}) :=
    hinj.mono (Set.union_subset (Set.singleton_subset_iff.mpr (.inl hv)) fun w hw =>
      .inr (Value.distinctFrom_subset [] _ hw))
  rw [Bool.not_eq_true', ← Bool.not_eq_true, Value.isKeyOf_iff hkeys, Value.mem_distinct hcurrent]

/-- **The difference is exact.** -/
theorem diff_tells (refresh : Bool) :
    (diff desired current refresh).Tells {v | v ∈ current} {v | v ∈ desired} where
  attached_nodup := (Value.distinct_nodup desired).filter _
  mem_attached _ := mem_filter_not_isKeyOf hinj
  detached_nodup := (Value.distinct_nodup current).filter _
  mem_detached _ := mem_filter_not_isKeyOf (Set.union_comm _ _ ▸ hinj)

/-- Without detaching, the keys that were there stay. -/
lemma diff_tells_synced (refresh detaching : Bool) :
    (if detaching then diff desired current refresh
      else { diff desired current refresh with detached := [] }).Tells {v | v ∈ current}
      (synced detaching {v | v ∈ current} desired) := by
  have h := diff_tells hinj refresh
  cases detaching with
  | true => simpa [synced] using h
  | false =>
      refine ⟨h.attached_nodup, fun v => (h.mem_attached v).trans ?_, .nil, fun v => ?_⟩
      · exact ⟨fun h => ⟨.inr h.1, h.2⟩, fun h => ⟨h.1.resolve_left h.2, h.2⟩⟩
      · exact ⟨fun h => absurd h List.not_mem_nil, fun h => absurd (.inl h.1) h.2⟩

end

end PivotChanges

/-- A synchronization is one that the terms of a relation allow. -/
structure Terms.Allow (T : Terms) (desired : List Value) (pivot : Option Row) (detaching : Bool)
    (g : Graph) : Prop where
  fit : T.fit g
  attachable : ∀ v ∈ desired, v ∈ T.attachable
  detachable : unwanted detaching desired ⊆ T.detachable
  spared : T.spared (pivot.getD [])
  lasting : pivot.isSome = true → T.lasting

/-! ### Inside a transaction -/

namespace Client

variable {σ : Type} [Engine σ]

/-- What a synchronization does inside its transaction. -/
def syncInside (d : DirectRelation) (parent : Row) (desired : List Value) (pivot : Option Row)
    (detaching : Bool) (handle : Handle) : Action σ PivotChanges := do
  let current ← attachedKeys handle d parent
  let changes := PivotChanges.diff desired current pivot.isSome
  let changes := if detaching then changes else { changes with detached := [] }
  applyChanges handle d parent changes (pivot.getD [])
  refreshPivots handle d parent (pivot.getD []) changes.updated
  return changes

lemma sync_apply {d : DirectRelation} (hkind : d.kind = .belongsToMany) (parent : Row)
    (desired : List Value) (pivot : Option Row) (detaching : Bool) (caller : Owner) (c : Client σ) :
    sync (.direct d) parent desired pivot detaching caller c =
      write (syncInside d parent desired pivot detaching) caller c := by
  have hmany : (Relation.direct d).manyToMany "sync" = .ok d := if_pos hkind
  rw [sync, Action.bind_apply_ok (by rw [Action.ofExcept_apply, hmany]; rfl)]
  rfl

end Client

section

variable {I : Interpretation} {d : DirectRelation} {parent : Row} {k : Value}
  {reading : Query → Option Statement} {base : Client (Database I reading)} {owner : Owner}
  {t : ActiveTransaction} {mayFail : Prop} {g : Graph}

/-- Statements that are made, and that the engine does not refuse, are run one after the other. -/
lemma Client.Achieves.runPlayed (ht : base.active.lookup owner = some t)
    {made : Except Error (List Statement)} {ss : List Statement} {g' : Graph} (hmade : made = .ok ss)
    (hreads : ∀ s ∈ ss, reading s.query = some s) (hplay : playAll I ss g = some g') {α : Type}
    {f : List Row → Action (Database I reading) α} {post : α → Graph → Prop}
    (hf : ∀ rows, Achieves base owner mayFail (f rows) g' post) :
    Achieves base owner mayFail
      (do let statements ← Action.ofExcept made
          let rows ← Client.runAll ⟨owner⟩ statements
          f rows) g post := by
  refine Achieves.runMade ht (fun e he => ?_) (fun ss' hss => ?_) (fun ss' hss hnone => ?_)
    fun ss' g'' hss hplay' => ?_
  · cases hmade.symm.trans he
  · exact Except.ok.inj (hmade.symm.trans hss) ▸ hreads
  · rw [← Except.ok.inj (hmade.symm.trans hss), hplay] at hnone
    cases hnone
  · rw [← Except.ok.inj (hmade.symm.trans hss), hplay] at hplay'
    exact Option.some.inj hplay' ▸ hf

namespace Keeping

open Client (Achieves)

variable {T : Terms} {attributes : Row} {desired : List Value} {pivot : Option Row} {detaching : Bool}

/-- The keys that are read are those that are attached. -/
lemma attachedKeys (K : Keeping I d parent k T) (hreads : d.ReadBy reading)
    (ht : base.active.lookup owner = some t) (hfit : T.fit g) :
    Achieves base owner mayFail (Client.attachedKeys ⟨owner⟩ d parent) g fun keys g' =>
      g' = g ∧ {v | v ∈ keys} = attachedTo (T.links g) k := by
  obtain ⟨s, st, answers, hs, hrun, hgraph, hanswers, hmem⟩ := K.read g hfit
  rw [Client.attachedKeys]
  refine Achieves.ofExcept_bind (fun e he => ?_) fun s' hs' => ?_
  · cases hs.symm.trans he
  obtain rfl := Except.ok.inj (hs'.symm.trans hs)
  refine Achieves.run_bind ht (hreads.current parent s' hs) (fun hnone => ?_) fun st' hst' => ?_
  · cases hrun.symm.trans hnone
  obtain rfl := Option.some.inj (hrun.symm.trans hst')
  refine Achieves.pure ⟨hgraph, Set.ext fun v => ?_⟩
  have hnull : v.isNull = false ↔ v ≠ .null := by cases v <;> simp [Value.isNull]
  rw [hanswers, Option.getD_some, Set.mem_ofPred_eq, List.mem_filter, hmem, Bool.not_eq_true', hnull,
    and_comm]
  rfl

/-- What is detached is gone, and what is attached is there. -/
lemma applyChanges (K : Keeping I d parent k T) (hreads : d.ReadBy reading)
    (ht : base.active.lookup owner = some t) (hfit : T.fit g)
    {changes : PivotChanges} (hattachable : ∀ v ∈ changes.attached, v ∈ T.attachable)
    (hdetachable : ∀ v ∈ changes.detached, v ∈ T.detachable) (hspared : T.spared attributes) :
    Achieves base owner mayFail (Client.applyChanges ⟨owner⟩ d parent changes attributes) g
      fun _ g' => Leaves T k g
        ({v ∈ attachedTo (T.links g) k | v ∉ Value.distinct changes.detached} ∪
          {v | v ∈ Value.distinct changes.attached}) g' := by
  obtain ⟨detaching, g₁, hdetach, hplay, hleaves⟩ := K.detach g changes.detached hfit hdetachable
  rw [Client.applyChanges]
  refine Achieves.runPlayed ht hdetach (hreads.detach _ _ _ hdetach) hplay fun _ =>
    Achieves.clock_bind fun now => ?_
  obtain ⟨attaching, g₂, hattach, hplay', hleaves'⟩ :=
    K.attach g₁ now changes.attached attributes hleaves.fit hattachable hspared
  refine Achieves.runPlayed ht hattach (hreads.attach _ _ _ _ _ hattach) hplay' fun _ => .pure ?_
  rw [← hleaves.attached]
  exact hleaves.trans hleaves'

/-- Writing attributes leaves the keys. -/
lemma refreshPivots (K : Keeping I d parent k T) (hreads : d.ReadBy reading)
    (ht : base.active.lookup owner = some t) (hfit : T.fit g) (hspared : T.spared attributes)
    {keys : List Value} (hlasting : keys ≠ [] → T.lasting) :
    Achieves base owner mayFail (Client.refreshPivots ⟨owner⟩ d parent attributes keys) g
      fun _ g' => Leaves T k g (attachedTo (T.links g) k) g' := by
  induction keys generalizing g with
  | nil => exact .pure (.refl hfit)
  | cons v rest ih =>
      rw [Client.refreshPivots]
      refine Achieves.clock_bind fun now => ?_
      have hlasting := hlasting (List.cons_ne_nil v rest)
      obtain ⟨ss, g₁, hupdate, hplay, hleaves⟩ := K.update g now v attributes hfit hspared hlasting
      refine Achieves.runPlayed ht hupdate (hreads.update _ _ _ _ _ hupdate) hplay fun _ =>
        (ih hleaves.fit fun _ => hlasting).mono id ?_
      rintro _ g₂ hleaves'
      rw [hleaves.attached] at hleaves'
      exact hleaves.trans hleaves'

/-- Inside its transaction a synchronization tells what it changes, and leaves what it should. -/
lemma syncInside (K : Keeping I d parent k T) (hreads : d.ReadBy reading)
    (ht : base.active.lookup owner = some t) (hallow : T.Allow desired pivot detaching g)
    (hinj : Set.InjOn Value.keyText ({v | v ∈ desired} ∪ attachedTo (T.links g) k)) :
    Achieves base owner mayFail (Client.syncInside d parent desired pivot detaching ⟨owner⟩) g
      fun changes g' =>
        changes.Tells (attachedTo (T.links g) k) (synced detaching (attachedTo (T.links g) k) desired) ∧
          Leaves T k g (synced detaching (attachedTo (T.links g) k) desired) g' := by
  refine (K.attachedKeys hreads ht hallow.fit).bind ?_
  rintro current g' ⟨hsame, hcurrent⟩
  rw [hsame]
  rw [← hcurrent] at hinj
  have htells := PivotChanges.diff_tells_synced hinj pivot.isSome detaching
  rw [hcurrent] at htells hinj
  dsimp only
  set changes := if detaching then PivotChanges.diff desired current pivot.isSome
    else { PivotChanges.diff desired current pivot.isSome with detached := [] } with hchanges
  have hattached : ∀ v ∈ changes.attached, v ∈ T.attachable := fun v hv =>
    have hv := (htells.mem_attached v).mp hv
    (synced_subset _ _ _ hv.1).elim (fun h => absurd h hv.2) (hallow.attachable v)
  have hdetached : ∀ v ∈ changes.detached, v ∈ T.detachable := fun v hv =>
    have hv := (htells.mem_detached v).mp hv
    hallow.detachable (mem_unwanted_of_notMem_synced hv.1 hv.2)
  have hlasting : changes.updated ≠ [] → T.lasting := fun hupdated =>
    hallow.lasting (PivotChanges.refresh_of_updated hupdated)
  refine (K.applyChanges hreads ht hallow.fit hattached hdetached hallow.spared).bind
    fun _ g₁ hleaves => ?_
  rw [htells.result (hinj.mono fun v hv => hv.elim .inr fun hv =>
    (synced_subset _ _ _ hv).symm)] at hleaves
  refine (K.refreshPivots hreads ht hleaves.fit hallow.spared hlasting).bind fun _ g₂ hleaves' => ?_
  rw [hleaves.attached] at hleaves'
  exact .pure ⟨htells, hleaves.trans hleaves'⟩

/-- A synchronization, from one graph to the next. -/
lemma sync (K : Keeping I d parent k T) (hreads : d.ReadBy reading)
    (hkind : d.kind = .belongsToMany) (hallow : T.Allow desired pivot detaching g)
    (hinj : Set.InjOn Value.keyText ({v | v ∈ desired} ∪ attachedTo (T.links g) k))
    {c : Client (Database I reading)} (hidle : c.Idle g) (caller : Owner) :
    ∃ changes c' g', Client.sync (.direct d) parent desired pivot detaching caller c =
        (.ok changes, c') ∧ c'.Idle g' ∧
      changes.Tells (attachedTo (T.links g) k) (synced detaching (attachedTo (T.links g) k) desired) ∧
      Leaves T k g (synced detaching (attachedTo (T.links g) k) desired) g' := by
  obtain ⟨r, c', hrun, hr⟩ := Client.write_spec hidle
    (fun base owner t ht => K.syncInside hreads ht hallow hinj) caller
  cases r with
  | error e => exact (hr.1 : False).elim
  | ok changes =>
      obtain ⟨g', ⟨htells, hleaves⟩, hidle'⟩ := hr
      exact ⟨changes, c', g', (Client.sync_apply hkind ..).trans hrun, hidle', htells, hleaves⟩

end Keeping

end

/-! ### Synchronizing -/

namespace DirectRelation

/-- The links of a relation: edges where it is kept in edges, pivot nodes else. -/
def links (d : DirectRelation) (g : Graph) : Set Link :=
  match d.strategy with
  | .foreignKey _ => d.pivot.elim ∅ (·.links g)
  | .nativeEdge edge parentKey relatedKey | .hybrid _ edge parentKey relatedKey =>
    (d.wiring edge parentKey relatedKey).links g

/-- The relation is kept in one way, and the graph is such that its pivots can be told by their keys,
deleted and made. -/
def Ready (d : DirectRelation) (k : Value) (desired : List Value) (pivot : Option Row)
    (detaching : Bool) (g : Graph) : Prop :=
  match d.strategy with
  | .foreignKey _ => ∀ spec, d.pivot = some spec →
      spec.Plain ∧ spec.SparedBy (pivot.getD []) ∧ (pivot.isSome = true → spec.Lasting) ∧
        spec.Loose k (unwanted detaching desired) g
  | .nativeEdge edge parentKey relatedKey =>
      (d.wiring edge parentKey relatedKey).Plain ∧
        (d.wiring edge parentKey relatedKey).Fit k {v | v ∈ desired} g
  | .hybrid _ _ _ _ => False

/-- If the relation has edges, they have a direction. -/
def Directed (d : DirectRelation) : Prop :=
  ∀ edge parentKey relatedKey, d.strategy.edge? = some (edge, parentKey, relatedKey) →
    edge.direction ≠ .both

end DirectRelation

section

variable {I : Interpretation} {d : DirectRelation} {parent : Row} {k : Value} {desired : List Value}
  {pivot : Option Row} {detaching : Bool} {g : Graph}

/-- A relation that is ready keeps its pivots, on terms that allow the synchronization. -/
lemma DirectRelation.Ready.keeping (hready : d.Ready k desired pivot detaching g)
    (hI : I.EqualsJson) {declaration : Declaration} (hbuild : declaration.build = .ok d)
    (hkind : d.kind = .belongsToMany) (hk : parent.get? d.parentKey = some k) (hnull : k ≠ .null)
    (hdesired : ∀ v ∈ desired, v ≠ .null) :
    ∃ T, Keeping I d parent k T ∧ T.links = d.links ∧ T.Allow desired pivot detaching g ∧
      (d.Directed → T.apart) := by
  rw [Ready] at hready
  simp only [parentKey, hkind] at hk
  cases hstrategy : d.strategy with
  | foreignKey keys =>
      rw [hstrategy] at hready hk
      obtain ⟨spec, hpivot⟩ := Declaration.build_hasPivot hbuild keys hstrategy hkind
      obtain ⟨hspec, hspared, hlasting, hloose⟩ := hready spec hpivot
      refine ⟨spec.terms k (unwanted detaching desired),
        .foreignKey hI hstrategy hpivot hspec hk hnull _, ?_,
        ⟨hloose, hdesired, subset_rfl, hspared, hlasting⟩, fun _ => trivial⟩
      funext g
      rw [links, hstrategy, hpivot]
      rfl
  | nativeEdge edge parentKey relatedKey =>
      rw [hstrategy] at hready hk
      obtain ⟨hw, hfit⟩ := hready
      refine ⟨(d.wiring edge parentKey relatedKey).terms k {v | v ∈ desired},
        .nativeEdge hI hstrategy hw hk hnull _, ?_,
        ⟨hfit, fun v hv => hv, Set.subset_univ _, trivial, fun _ => trivial⟩, fun hdirected =>
          hdirected edge parentKey relatedKey (by rw [hstrategy]; rfl)⟩
      funext g
      rw [links, hstrategy]
      rfl
  | hybrid keys edge parentKey relatedKey =>
      rw [hstrategy] at hready
      exact hready.elim

namespace Client

variable {reading : Query → Option Statement}

/-- **Synchronizing reaches the desired keys**: they are the related keys of the parent afterwards, with
those that were there if nothing is detached.  What is told is what changed, nothing is told a second
time, and nothing is done to other parents unless the edges have no direction. -/
theorem sync_reaches (hI : I.EqualsJson) {declaration : Declaration}
    (hbuild : declaration.build = .ok d) (hkind : d.kind = .belongsToMany) (hreads : d.ReadBy reading)
    (hk : parent.get? d.parentKey = some k) (hnull : k ≠ .null) (hdesired : ∀ v ∈ desired, v ≠ .null)
    (hready : d.Ready k desired pivot detaching g)
    (hinj : Set.InjOn Value.keyText ({v | v ∈ desired} ∪ attachedTo (d.links g) k))
    {c : Client (Database I reading)} (hidle : c.Idle g) (caller : Owner) :
    ∃ changes c' g', sync (.direct d) parent desired pivot detaching caller c = (.ok changes, c') ∧
      c'.Idle g' ∧
      attachedTo (d.links g') k =
        (if detaching then ∅ else attachedTo (d.links g) k) ∪ {v | v ∈ desired} ∧
      changes.Tells (attachedTo (d.links g) k) (attachedTo (d.links g') k) ∧
      (d.Directed → linksOfOthers (d.links g') k = linksOfOthers (d.links g) k) ∧
      ∃ again c'', sync (.direct d) parent desired pivot detaching caller c' = (.ok again, c'') ∧
        again.attached = [] ∧ again.detached = [] := by
  obtain ⟨T, K, hlinks, hallow, hapart⟩ := hready.keeping hI hbuild hkind hk hnull hdesired
  rw [← hlinks] at hinj ⊢
  obtain ⟨changes, c', g', hrun, hidle', htells, hleaves⟩ :=
    K.sync hreads hkind hallow hinj hidle caller
  have hinj' : Set.InjOn Value.keyText ({v | v ∈ desired} ∪ attachedTo (T.links g') k) := by
    rw [hleaves.attached]
    exact hinj.mono (Set.union_subset Set.subset_union_left
      ((synced_subset _ _ _).trans (Set.union_comm _ _).subset))
  obtain ⟨again, c'', -, hrun', -, htells', -⟩ :=
    K.sync hreads hkind { hallow with fit := hleaves.fit } hinj' hidle' caller
  rw [hleaves.attached, synced_synced] at htells'
  refine ⟨changes, c', g', hrun, hidle', hleaves.attached, ?_, fun hdirected => ?_, again, c'',
    hrun', htells'.eq_nil⟩
  · rw [hleaves.attached]
    exact htells
  · exact hleaves.others (hapart hdirected)

/-- The roles of a user, kept in nodes. -/
def userRoles : Declaration where
  name := "roles"
  kind := .belongsToMany
  parentLabel := "User"
  relatedLabel := "Role"
  keys := some ⟨"id", "id"⟩
  pivot := some { label := "RoleUser", parentReference := "user_id", relatedReference := "role_id" }

/-- The roles of a user as a relation. -/
def rolesOfUsers : DirectRelation where
  name := "roles"
  kind := .belongsToMany
  parentLabel := "User"
  relatedLabel := "Role"
  strategy := .foreignKey ⟨"id", "id"⟩
  pivot := some { label := "RoleUser", parentReference := "user_id", relatedReference := "role_id" }
  scope := {}

/-- Two users with roles: the first has one of them twice. -/
def grantedRoles : Graph :=
  .ofNodes [("User", [("id", .int 1)]), ("User", [("id", .int 2)]),
    ("RoleUser", [("role_id", .int 7), ("user_id", .int 1)]),
    ("RoleUser", [("role_id", .int 7), ("user_id", .int 1)]),
    ("RoleUser", [("role_id", .int 8), ("user_id", .int 1)]),
    ("RoleUser", [("role_id", .int 7), ("user_id", .int 2)])]

/-- A user keeps one role, loses one that was granted twice, and is granted another. -/
theorem sync_reaches_roles :
    ∃ changes c' g', sync (.direct rolesOfUsers) [("id", .int 1)] [.int 8, .int 9, .int 9]
        (some [("level", .int 3)]) true (.task none)
        (resting .json (Cypher.reader rolesOfUsers.forms) grantedRoles) = (.ok changes, c') ∧
      c'.Idle g' ∧ attachedTo (rolesOfUsers.links g') (.int 1) = {.int 8, .int 9} ∧
      linksOfOthers (rolesOfUsers.links g') (.int 1) =
        linksOfOthers (rolesOfUsers.links grantedRoles) (.int 1) := by
  have hreads : rolesOfUsers.ReadBy (Cypher.reader rolesOfUsers.forms) :=
    rolesOfUsers.readBy_forms (by decide +kernel)
  have hready : rolesOfUsers.Ready (.int 1) [.int 8, .int 9, .int 9] (some [("level", .int 3)]) true
      grantedRoles := by
    rintro spec hspec
    obtain rfl := Option.some.inj hspec
    refine ⟨⟨by decide, by decide, by decide⟩, ?_, fun _ => nofun,
      fun _ _ _ e he => absurd he List.not_mem_nil⟩
    rw [Pivot.SparedBy]
    decide
  have hinj : Set.InjOn Value.keyText ({v | v ∈ [Value.int 8, .int 9, .int 9]} ∪
      attachedTo (rolesOfUsers.links grantedRoles) (.int 1)) := by
    have hwanted : ∀ v ∈ [Value.int 8, .int 9, .int 9], v ∈ [7, 8, 9].map Value.int := by decide
    have hgranted : ∀ p ∈ grantedRoles.labelled "RoleUser",
        grantedRoles.value p "role_id" ∈ [7, 8, 9].map Value.int := by decide
    refine Value.keyText_injOn.mono fun v hv => .inr ?_
    have hv : v ∈ [7, 8, 9].map Value.int := by
      rcases hv with hv | ⟨-, _, ⟨p, hp, rfl⟩, -, rfl⟩
      · exact hwanted v hv
      · exact hgranted p hp
    obtain ⟨n, -, rfl⟩ := List.mem_map.mp hv
    exact ⟨n, rfl⟩
  have hbuild : userRoles.build = .ok rolesOfUsers := rfl
  have hk : Fields.get? [("id", Value.int 1)] rolesOfUsers.parentKey = some (.int 1) := rfl
  obtain ⟨changes, c', g', hrun, hidle, hattached, -, hothers, -⟩ :=
    sync_reaches Cypher.Interpretation.json_equalsJson hbuild rfl hreads hk (by decide) (by decide)
      hready hinj (resting_idle grantedRoles) (.task none)
  refine ⟨changes, c', g', hrun, hidle, hattached.trans ?_, hothers ?_⟩
  · ext v
    simp
  · rintro edge parentKey relatedKey ⟨⟩

/-- The roles of a user, kept in nodes whose parent key is named with the variable of a pivot. -/
def qualifiedRoles : DirectRelation :=
  { rolesOfUsers with
    pivot := some
      { label := "RoleUser", parentReference := "pivot.user_id", relatedReference := "role_id" } }

/-- A key that is named with the variable of a pivot is written under that name and looked for under
another one: what was attached is not found, and is attached once more. -/
theorem attached_again :
    ({ userRoles with pivot := qualifiedRoles.pivot } : Declaration).build = .ok qualifiedRoles ∧
      let attach := sync (.direct qualifiedRoles) [("id", .int 1)] [.int 8] none true (.task none)
      let first := attach (resting .json (Cypher.reader qualifiedRoles.forms) (.ofNodes []))
      first.1 = .ok { attached := [.int 8] } ∧ (attach first.2).1 = .ok { attached := [.int 8] } :=
  ⟨rfl, by decide +kernel⟩

end Client

end

end GraphMapper
