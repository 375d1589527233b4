import GraphMapper.Proofs.Pivot.Mirror
import GraphMapper.Proofs.Pivot.Sync

/-!
Hybrid relations, operation after operation.

* `DirectRelation.Doubled`: a many-to-many relation that is kept in nodes and in edges;
* `Stored`: the store has the nodes that an operation needs;
* `Mirroring`: statements that leave the two copies alike, whatever comes of them;
  `Doubled.attach`, `Doubled.detach`, `Doubled.update`: those of the relation do;
* `Client.KeepsAlike`: an action of an idle client that leaves the two copies alike;
* `PivotCall`, `PivotCall.keeps` (**one operation**), `PivotCall.afterAll`;
* `PivotCall.hybrid_consistent` (**hybrid relations stay consistent**): nodes and edges that agree do so
  after any sequence of operations.
-/

namespace GraphMapper

open Cypher (Graph Interpretation Statement playAll)
open Client (Achieves)

variable {I : Interpretation} {d : DirectRelation} {spec : Pivot} {w : Wiring} {parent : Row}
  {attributes : Row} {g g' : Graph}

/-- A many-to-many relation that is kept in nodes and in edges, with one key column of the parent. -/
structure DirectRelation.Doubled (d : DirectRelation) (spec : Pivot) (w : Wiring) : Prop where
  kind : d.kind = .belongsToMany
  pivot : d.pivot = some spec
  strategy : ∃ keys edge parentKey relatedKey,
    d.strategy = .hybrid keys edge parentKey relatedKey ∧ keys.localKey = parentKey ∧
      w = d.wiring edge parentKey relatedKey
  nodes : spec.Plain
  edges : w.Plain

/-! ### What an operation needs -/

/-- The nodes with some related keys are in the store, and, if there are any, so is the parent. -/
structure Stored (spec : Pivot) (w : Wiring) (parent : Row) (keys : List Value) (g : Graph) : Prop where
  clear : w.Clear spec.label g
  parent : keys ≠ [] → ∀ k, parent.get? w.parentKey = some k → k ≠ .null →
    ∃ i, i ∈ g.holding w.parentLabel w.parentKey k
  related : ∀ v ∈ keys, ∃ j, j ∈ g.holding w.relatedLabel w.relatedKey v

namespace Stored

variable {keys keys' : List Value}

lemma mirrors (h : Stored spec w parent keys g) (hmirrors : Mirrors spec w g g') :
    Stored spec w parent keys g' where
  clear := hmirrors.clear
  parent hkeys k hk hnull := (h.parent hkeys k hk hnull).imp fun i hi => hmirrors.parent k i hi
  related v hv := (h.related v hv).imp fun j hj => hmirrors.related v j hj

lemma mono (h : Stored spec w parent keys g) (hkeys : ∀ v ∈ keys', v ∈ keys) :
    Stored spec w parent keys' g :=
  ⟨h.clear, fun hsome => h.parent (List.ne_nil_of_mem (hkeys _ (List.head_mem hsome))),
    fun v hv => h.related v (hkeys v hv)⟩

end Stored

/-! ### Statements -/

/-- Statements that leave the two copies alike, unless they are refused or were not made. -/
def Mirroring (I : Interpretation) (spec : Pivot) (w : Wiring) (g : Graph)
    (made : Except Error (List Statement)) : Prop :=
  match made with
  | .ok ss => ∀ g', playAll I ss g = some g' → Mirrors spec w g g'
  | .error e => e.isRetryable = false

lemma Mirroring.nil (h : w.Clear spec.label g) : Mirroring I spec w g (.ok []) := by
  rintro g' hplay
  obtain rfl := Option.some.inj hplay
  exact .refl h

namespace DirectRelation

namespace Doubled

lemma relatedLabel (h : d.Doubled spec w) : d.relatedLabel = w.relatedLabel := by
  obtain ⟨keys, edge, parentKey, relatedKey, -, -, rfl⟩ := h.strategy
  rfl

lemma relatedKey (h : d.Doubled spec w) : d.relatedKey = w.relatedKey := by
  obtain ⟨keys, edge, parentKey, relatedKey, hstrategy, -, rfl⟩ := h.strategy
  rw [DirectRelation.relatedKey, hstrategy]
  rfl

/-- The statements of the relation for a parent that has its key. -/
lemma writes (h : d.Doubled spec w) {k : Value} (hk : parent.get? w.parentKey = some k)
    (hnull : k ≠ .null) :
    d.Writes parent ((Side.edges w).current k)
      (fun keys attributes => [spec.attachment k keys attributes, w.attachment k keys attributes])
      (fun keys => [(Side.nodes spec).detach k keys, (Side.edges w).detach k keys])
      (fun v attributes => [(Side.nodes spec).update k v attributes,
        (Side.edges w).update k v attributes]) := by
  obtain ⟨keys, edge, parentKey, relatedKey, hstrategy, hsame, rfl⟩ := h.strategy
  exact d.writes_hybrid hstrategy h.pivot hsame hk hnull

/-- For a parent without its key there are none. -/
lemma unwritten (h : d.Doubled spec w)
    (hk : ¬ ∃ k, parent.get? w.parentKey = some k ∧ k ≠ .null) :
    ∃ e : Error, e.isRetryable = false ∧ d.currentKeys parent = .error e ∧
      (∀ now keys attributes, d.attach now parent keys attributes =
        if (Value.distinct keys).isEmpty then .ok [] else .error e) ∧
      (∀ keys : Option (List Value), d.detach parent keys =
        if keys.any (·.isEmpty) then .ok [] else .error e) ∧
      ∀ now v attributes, d.updatePivot now parent v attributes = .error e := by
  obtain ⟨keys, edge, parentKey, relatedKey, hstrategy, hsame, rfl⟩ := h.strategy
  have hparent := (parentValue_cases d.name parentKey parent).resolve_left hk
  refine ⟨.invalidRelation d.name (.parentWithout parentKey), rfl, ?_, fun now keys attributes => ?_,
    fun keys => ?_, fun now v attributes => ?_⟩
  · simp only [currentKeys, hstrategy, hparent]
    rfl
  · simp only [DirectRelation.attach, bothSides, hstrategy, attachNodes, pivotSpec, h.pivot, hsame,
      hparent]
    rfl
  · simp only [DirectRelation.detach, bothSides, hstrategy, pivotSpec, h.pivot, hsame, hparent]
    rfl
  · simp only [updatePivot, bothSides, hstrategy, pivotSpec, h.pivot, hsame, hparent]
    rfl

variable {keys : List Value}

lemma attach (h : d.Doubled spec w) (hI : I.EqualsJson) (hstored : Stored spec w parent keys g)
    (hspared : spec.SparedBy attributes) (now : String) :
    Mirroring I spec w g (d.attach now parent keys attributes) := by
  by_cases hk : ∃ k, parent.get? w.parentKey = some k ∧ k ≠ .null
  · obtain ⟨k, hk, hnull⟩ := hk
    rw [(h.writes hk hnull).attach]
    split_ifs with hnone
    · exact .nil hstored.clear
    · intro g' hplay
      rw [h.pivot] at hplay
      have hkeys : keys ≠ [] := fun hkeys => hnone (hkeys ▸ rfl)
      have hrelated : ∀ v ∈ Value.distinct keys, ∃ j, j ∈ g.holding w.relatedLabel w.relatedKey v :=
        fun v hv => hstored.related v (Value.distinctFrom_subset [] _ hv)
      obtain ⟨g'', hplay', hmirrors⟩ := Mirrors.attach hI h.nodes h.edges hstored.clear
        (hspared.keyed hnull now true) (hstored.parent hkeys k hk hnull) hrelated
      exact Option.some.inj (hplay'.symm.trans hplay) ▸ hmirrors
  · obtain ⟨e, he, -, hattach, -, -⟩ := h.unwritten hk
    rw [hattach]
    split_ifs
    · exact .nil hstored.clear
    · exact he

lemma detach (h : d.Doubled spec w) (hI : I.EqualsJson) (hclear : w.Clear spec.label g)
    (parent : Row) (keys : Option (List Value)) :
    Mirroring I spec w g (d.detach parent keys) := by
  by_cases hk : ∃ k, parent.get? w.parentKey = some k ∧ k ≠ .null
  · obtain ⟨k, hk, hnull⟩ := hk
    rw [(h.writes hk hnull).detach]
    split_ifs with hnone
    · exact .nil hclear
    · exact fun g' hplay => .detach hI h.nodes h.edges hclear hnull keys hplay
  · obtain ⟨e, he, -, -, hdetach, -⟩ := h.unwritten hk
    rw [hdetach]
    split_ifs
    · exact .nil hclear
    · exact he

lemma update (h : d.Doubled spec w) (hI : I.EqualsJson) (hclear : w.Clear spec.label g)
    (hspared : spec.SparedBy attributes) (hlasting : spec.Lasting) (now : String) (parent : Row)
    (v : Value) : Mirroring I spec w g (d.updatePivot now parent v attributes) := by
  by_cases hk : ∃ k, parent.get? w.parentKey = some k ∧ k ≠ .null
  · obtain ⟨k, hk, hnull⟩ := hk
    rw [(h.writes hk hnull).update]
    intro g' hplay
    rw [h.pivot] at hplay
    obtain ⟨g'', hplay', hmirrors⟩ := Mirrors.update hI h.nodes h.edges hclear hnull v
      (hspared.stamped hlasting now)
    exact Option.some.inj (hplay'.symm.trans hplay) ▸ hmirrors
  · obtain ⟨e, he, -, -, -, hupdate⟩ := h.unwritten hk
    rw [hupdate]
    exact he

/-- Reading related keys leaves the graph. -/
lemma current (h : d.Doubled spec w) (hI : I.EqualsJson) (parent : Row) (g : Graph) :
    match d.currentKeys parent with
    | .ok s => ∃ st, s.run I g = some st ∧ st.graph = g
    | .error e => e.isRetryable = false := by
  by_cases hk : ∃ k, parent.get? w.parentKey = some k ∧ k ≠ .null
  · obtain ⟨k, hk, hnull⟩ := hk
    rw [(h.writes hk hnull).current]
    obtain ⟨st, -, hrun, hgraph, -⟩ := Side.current_run hI (Side.edges_sound h.edges) hnull g
    exact ⟨st, hrun, hgraph⟩
  · obtain ⟨e, he, hcurrent, -⟩ := h.unwritten hk
    rw [hcurrent]
    exact he

end Doubled

end DirectRelation

/-! ### New nodes -/

namespace Cypher

lemma Graph.AddsNodes.change {labels : List String} {ids : List ℕ} (h : g.AddsNodes labels ids g')
    {i : ℕ} (hi : i ∈ ids) (f : Row → Row) : g.AddsNodes labels ids (g'.change f (.node i)) where
  nodes := h.nodes
  labels_new := h.labels_new
  labels_old := h.labels_old
  ofNode_old j hj := by
    have hne : j ≠ i := fun hji => h.notMem hi (hji ▸ hj)
    exact (Function.update_of_ne hne _ _).trans (h.ofNode_old j hj)
  edges := h.edges
  edgeType := h.edgeType
  source := h.source
  target := h.target
  ofEdge := h.ofEdge

/-- Inserting makes one node and answers its properties. -/
lemma insert_run (label : String) (attributes : Row) (g : Graph) :
    ∃ st i, (insert label attributes).run I g = some st ∧ g.AddsNodes [label] [i] st.graph ∧
      (st.answers.getD []).map (·.row) = [[(insertedColumn, .object (st.graph.ofNode i))]] := by
  have hadds := (Graph.AddsNodes.addNode g [label]).change
    (List.mem_singleton_self (Graph.unused g.nodes)) fun _ => assignProperties [] attributes
  exact ⟨⟨_, _, _⟩, _, rfl, hadds, rfl⟩

end Cypher

/-! ### Inside a transaction -/

section

variable {reading : Query → Option Statement} {base : Client (Database I reading)} {owner : Owner}
  {t : ActiveTransaction} {α : Type} {keys : List Value}

/-- Statements that leave the two copies alike, in a transaction. -/
lemma Client.Achieves.runMirroring (ht : base.active.lookup owner = some t)
    {made : Except Error (List Statement)} (hmade : Mirroring I spec w g made)
    (hreads : ∀ ss, made = .ok ss → ∀ s ∈ ss, reading s.query = some s)
    {f : List Row → Action (Database I reading) α} {post : α → Graph → Prop}
    (hf : ∀ g', Mirrors spec w g g' → ∀ rows, Achieves base owner True (f rows) g' post) :
    Achieves base owner True
      (do let statements ← Action.ofExcept made
          let rows ← Client.runAll ⟨owner⟩ statements
          f rows) g post := by
  refine Achieves.runMade ht (fun e he => ⟨trivial, ?_⟩) hreads (fun _ _ _ => trivial)
    fun ss g' hss hplay => hf g' ?_
  · rw [he] at hmade
    exact hmade
  · rw [hss] at hmade
    exact hmade g' hplay

namespace DirectRelation.Doubled

lemma attachedKeys (h : d.Doubled spec w) (hI : I.EqualsJson) (hreads : d.ReadBy reading)
    (ht : base.active.lookup owner = some t) :
    Achieves base owner True (Client.attachedKeys ⟨owner⟩ d parent) g fun _ g' => g' = g := by
  have hcurrent := h.current hI parent g
  rw [Client.attachedKeys]
  refine Achieves.ofExcept_bind (fun e he => ⟨trivial, ?_⟩) fun s hs => ?_
  · rw [he] at hcurrent
    exact hcurrent
  · rw [hs] at hcurrent
    obtain ⟨st, hrun, hgraph⟩ := hcurrent
    refine Achieves.run_bind ht (hreads.current parent s hs) (fun _ => trivial) fun st' hst' => ?_
    obtain rfl := Option.some.inj (hrun.symm.trans hst')
    exact .pure hgraph

lemma applyChanges (h : d.Doubled spec w) (hI : I.EqualsJson) (hreads : d.ReadBy reading)
    (ht : base.active.lookup owner = some t) {changes : PivotChanges}
    (hstored : Stored spec w parent changes.attached g) (hspared : spec.SparedBy attributes) :
    Achieves base owner True (Client.applyChanges ⟨owner⟩ d parent changes attributes) g
      fun _ g' => Mirrors spec w g g' := by
  rw [Client.applyChanges]
  refine Achieves.runMirroring ht (h.detach hI hstored.clear parent _) (hreads.detach _ _)
    fun g₁ hmirrors _ => Achieves.clock_bind fun now => ?_
  exact Achieves.runMirroring ht (h.attach hI (hstored.mirrors hmirrors) hspared now)
    (hreads.attach _ _ _ _) fun g₂ hmirrors' _ => .pure (hmirrors.trans hmirrors')

lemma refreshPivots (h : d.Doubled spec w) (hI : I.EqualsJson) (hreads : d.ReadBy reading)
    (ht : base.active.lookup owner = some t) (hclear : w.Clear spec.label g)
    (hspared : spec.SparedBy attributes) {keys : List Value} (hlasting : keys ≠ [] → spec.Lasting) :
    Achieves base owner True (Client.refreshPivots ⟨owner⟩ d parent attributes keys) g
      fun _ g' => Mirrors spec w g g' := by
  induction keys generalizing g with
  | nil => exact .pure (.refl hclear)
  | cons v rest ih =>
      rw [Client.refreshPivots]
      have hlasting := hlasting (List.cons_ne_nil v rest)
      refine Achieves.clock_bind fun now => ?_
      exact Achieves.runMirroring ht (h.update hI hclear hspared hlasting now parent v)
        (hreads.update _ _ _ _) fun g₁ hmirrors _ => (ih hmirrors.clear fun _ => hlasting).mono id
          fun _ g₂ hmirrors' => hmirrors.trans hmirrors'

lemma syncInside (h : d.Doubled spec w) (hI : I.EqualsJson) (hreads : d.ReadBy reading)
    (ht : base.active.lookup owner = some t) {desired : List Value} {pivot : Option Row}
    (hstored : Stored spec w parent desired g) (hspared : spec.SparedBy (pivot.getD []))
    (hlasting : pivot.isSome = true → spec.Lasting) (detaching : Bool) :
    Achieves base owner True (Client.syncInside d parent desired pivot detaching ⟨owner⟩) g
      fun _ g' => Mirrors spec w g g' := by
  refine (h.attachedKeys hI hreads ht).bind ?_
  rintro current g' hsame
  rw [hsame]
  dsimp only
  set changes := if detaching then PivotChanges.diff desired current pivot.isSome
    else { PivotChanges.diff desired current pivot.isSome with detached := [] } with hchanges
  have hattached : ∀ v ∈ changes.attached, v ∈ desired := fun v hv => by
    rw [hchanges] at hv
    split_ifs at hv <;> exact Value.distinctFrom_subset [] _ (List.mem_of_mem_filter hv)
  refine (h.applyChanges hI hreads ht (hstored.mono hattached) hspared).bind fun _ g₁ hmirrors => ?_
  have hupdated : changes.updated ≠ [] → spec.Lasting := fun hupdated =>
    hlasting (PivotChanges.refresh_of_updated hupdated)
  refine (h.refreshPivots hI hreads ht hmirrors.clear hspared hupdated).bind fun _ g₂ hmirrors' => ?_
  exact .pure (hmirrors.trans hmirrors')

/-- A new node is attached by its key, or none is made. -/
lemma createAttached (h : d.Doubled spec w) (hI : I.EqualsJson) (hreads : d.ReadBy reading)
    (ht : base.active.lookup owner = some t) {pivot : Row} (hclear : w.Clear spec.label g)
    (hparent : ∀ k, parent.get? w.parentKey = some k → k ≠ .null →
      ∃ i, i ∈ g.holding w.parentLabel w.parentKey k)
    (hspared : spec.SparedBy pivot) (attributes : Row) :
    Achieves base owner True
      (do let rows ← Handle.run ⟨owner⟩ (GraphMapper.insert d.relatedLabel attributes).query
          let row ← Action.ofExcept (Client.createdRow d.relatedLabel rows)
          let record ← Action.ofExcept (Record.ofColumn d.relatedLabel row insertedColumn).1
          match record.get? d.relatedKey with
          | none => Action.fail (.invalidRelation d.name (.createdWithout d.relatedKey))
          | some key => do
            let now ← Action.engine Engine.clock
            let _ ← Client.runAll ⟨owner⟩ (← Action.ofExcept (d.attach now parent [key] pivot))
            return record) g fun _ g' => Mirrors spec w g g' := by
  obtain ⟨st, i, hrun, hadds, hanswer⟩ := Cypher.insert_run (I := I) d.relatedLabel attributes g
  refine Achieves.run_bind ht (hreads.insert attributes) (fun _ => trivial) fun st' hst' => ?_
  obtain rfl := Option.some.inj (hrun.symm.trans hst')
  rw [hanswer]
  rw [h.relatedLabel] at hadds
  have hmirrors := Mirrors.addsNodes hclear hadds
  refine Achieves.ofExcept_bind (fun _ he => nomatch he) fun row hrow => ?_
  obtain rfl := Except.ok.inj hrow
  refine Achieves.ofExcept_bind (fun _ he => nomatch he) fun record hrecord => ?_
  obtain rfl := Except.ok.inj hrecord
  cases hkey : (Record.of d.relatedLabel (st.graph.ofNode i)).get? d.relatedKey with
  | none => exact .fail trivial rfl
  | some key =>
      have hnode : i ∈ st.graph.holding w.relatedLabel w.relatedKey key := by
        obtain ⟨hvalue, hnull⟩ := Option.filter_eq_some_iff.mp hkey
        refine Cypher.Graph.mem_holding.mpr ⟨hadds.mem_labelled.mpr (.inr (List.mem_singleton_self i)),
          ?_, ?_⟩
        · rw [Graph.value, ← h.relatedKey]
          exact congrArg (Option.getD · .null) hvalue
        · rintro rfl
          cases hnull
      have hstored' : Stored spec w parent [key] st.graph :=
        ⟨hmirrors.clear, fun _ k hk hnull => (hparent k hk hnull).imp fun j hj =>
            hmirrors.parent k j hj,
          fun v hv => List.mem_singleton.mp hv ▸ ⟨i, hnode⟩⟩
      refine Achieves.clock_bind fun now => ?_
      exact Achieves.runMirroring ht (h.attach hI hstored' hspared now) (hreads.attach _ _ _ _)
        fun g₃ hmirrors' _ => .pure (hmirrors.trans hmirrors')

end DirectRelation.Doubled

end

/-! ### Operations -/

namespace Client

variable {reading : Query → Option Statement} {α β : Type} {caller : Owner}

/-- An action of an idle client that leaves the two copies of the store alike, and the store as it was
if it fails. -/
def KeepsAlike (spec : Pivot) (w : Wiring) (a : Action (Database I reading) α) (caller : Owner)
    (g : Graph) : Prop :=
  ∀ c : Client (Database I reading), c.Idle g → ∃ (r : Except Error α) (c' : _) (g' : Graph),
    a caller c = (r.mapError .failed, c') ∧ c'.Idle g' ∧ Mirrors spec w g g' ∧
      ∀ e, r = .error e → g' = g

namespace KeepsAlike

lemma pure (h : w.Clear spec.label g) (x : α) :
    KeepsAlike spec w (Pure.pure x : Action (Database I reading) α) caller g :=
  fun c hidle => ⟨.ok x, c, g, rfl, hidle, .refl h, fun _ he => nomatch he⟩

lemma ofExcept_bind (h : w.Clear spec.label g) {r : Except Error α}
    {f : α → Action (Database I reading) β} (hf : ∀ x, r = .ok x → KeepsAlike spec w (f x) caller g) :
    KeepsAlike spec w (Action.ofExcept r >>= f) caller g := by
  intro c hidle
  cases r with
  | error e => exact ⟨.error e, c, g, rfl, hidle, .refl h, fun _ _ => rfl⟩
  | ok x => exact hf x rfl c hidle

lemma clock_bind {f : String → Action (Database I reading) β}
    (hf : ∀ now, KeepsAlike spec w (f now) caller g) :
    KeepsAlike spec w (Action.engine Engine.clock >>= f) caller g := by
  intro c hidle
  exact hf (c.engine.clock c.engine.looks)
    { c with engine := { c.engine with looks := c.engine.looks + 1 } }
    ⟨hidle.graph, hidle.active, hidle.pool⟩

lemma write (h : w.Clear spec.label g) {work : Handle → Action (Database I reading) α}
    (hwork : ∀ base owner t, base.active.lookup owner = some t →
      Achieves base owner True (work ⟨owner⟩) g fun _ g' => Mirrors spec w g g') :
    KeepsAlike spec w (Client.write work) caller g := by
  intro c hidle
  obtain ⟨r, c', hrun, hr⟩ := write_spec hidle hwork caller
  cases r with
  | ok x =>
      obtain ⟨g', hmirrors, hidle'⟩ := hr
      exact ⟨.ok x, c', g', hrun, hidle', hmirrors, fun _ he => nomatch he⟩
  | error e => exact ⟨.error e, c', g, hrun, hr.2.2, .refl h, fun _ _ => rfl⟩

end KeepsAlike

section

variable {keys : List Value}

lemma keeps_attach (h : d.Doubled spec w) (hI : I.EqualsJson) (hreads : d.ReadBy reading)
    (hstored : Stored spec w parent keys g) (hspared : spec.SparedBy attributes) :
    KeepsAlike spec w (attach (.direct d) parent keys attributes : Action (Database I reading) Unit)
      caller g := by
  rw [attach]
  refine KeepsAlike.ofExcept_bind hstored.clear fun d' hd' => KeepsAlike.clock_bind fun now => ?_
  obtain rfl := Except.ok.inj ((if_pos h.kind).symm.trans hd')
  refine KeepsAlike.ofExcept_bind hstored.clear fun ss hss => KeepsAlike.write hstored.clear ?_
  intro base owner t ht
  have hmirroring := h.attach hI hstored hspared now
  rw [hss] at hmirroring
  exact (Achieves.runAll ht (hreads.attach _ _ _ _ ss hss) (fun _ => trivial) hmirroring).bind
    fun _ _ hmirrors => .pure hmirrors

lemma keeps_detach (h : d.Doubled spec w) (hI : I.EqualsJson) (hreads : d.ReadBy reading)
    (hclear : w.Clear spec.label g) (parent : Row) (keys : Option (List Value)) :
    KeepsAlike spec w (detach (.direct d) parent keys : Action (Database I reading) Unit)
      caller g := by
  rw [detach]
  refine KeepsAlike.ofExcept_bind hclear fun d' hd' => ?_
  obtain rfl := Except.ok.inj ((if_pos h.kind).symm.trans hd')
  refine KeepsAlike.ofExcept_bind hclear fun ss hss => ?_
  split_ifs with hnone
  · exact .pure hclear ()
  · refine KeepsAlike.write hclear ?_
    intro base owner t ht
    have hmirroring := h.detach hI hclear parent keys
    rw [hss] at hmirroring
    exact (Achieves.runAll ht (hreads.detach _ _ ss hss) (fun _ => trivial) hmirroring).bind
      fun _ _ hmirrors => .pure hmirrors

lemma keeps_update (h : d.Doubled spec w) (hI : I.EqualsJson) (hreads : d.ReadBy reading)
    (hclear : w.Clear spec.label g) (hspared : spec.SparedBy attributes) (hlasting : spec.Lasting)
    (parent : Row) (v : Value) :
    KeepsAlike spec w (updateExistingPivot (.direct d) parent v attributes : Action (Database I reading) ℕ)
      caller g := by
  rw [updateExistingPivot]
  refine KeepsAlike.ofExcept_bind hclear fun d' hd' => KeepsAlike.clock_bind fun now => ?_
  obtain rfl := Except.ok.inj ((if_pos h.kind).symm.trans hd')
  refine KeepsAlike.ofExcept_bind hclear fun ss hss => KeepsAlike.write hclear ?_
  intro base owner t ht
  have hmirroring := h.update hI hclear hspared hlasting now parent v
  rw [hss] at hmirroring
  exact (Achieves.runAll ht (hreads.update _ _ _ _ ss hss) (fun _ => trivial) hmirroring).bind
    fun _ _ hmirrors => .pure hmirrors

lemma keeps_sync (h : d.Doubled spec w) (hI : I.EqualsJson) (hreads : d.ReadBy reading)
    (hstored : Stored spec w parent keys g) {pivot : Option Row}
    (hspared : spec.SparedBy (pivot.getD [])) (hlasting : pivot.isSome = true → spec.Lasting)
    (detaching : Bool) :
    KeepsAlike spec w (sync (.direct d) parent keys pivot detaching : Action (Database I reading) PivotChanges)
      caller g := by
  rw [sync]
  refine KeepsAlike.ofExcept_bind hstored.clear fun d' hd' => ?_
  obtain rfl := Except.ok.inj ((if_pos h.kind).symm.trans hd')
  exact KeepsAlike.write hstored.clear fun base owner t ht =>
    h.syncInside hI hreads ht hstored hspared hlasting detaching

lemma keeps_toggle (h : d.Doubled spec w) (hI : I.EqualsJson) (hreads : d.ReadBy reading)
    (hstored : Stored spec w parent keys g) {pivot : Option Row}
    (hspared : spec.SparedBy (pivot.getD [])) :
    KeepsAlike spec w (toggle (.direct d) parent keys pivot : Action (Database I reading) PivotChanges)
      caller g := by
  rw [toggle]
  refine KeepsAlike.ofExcept_bind hstored.clear fun d' hd' => KeepsAlike.write hstored.clear ?_
  obtain rfl := Except.ok.inj ((if_pos h.kind).symm.trans hd')
  intro base owner t ht
  refine (h.attachedKeys hI hreads ht).bind ?_
  rintro current g' hsame
  rw [hsame]
  have hattached : ∀ v ∈ (PivotChanges.toggle keys current).attached, v ∈ keys := fun v hv =>
    Value.distinctFrom_subset [] _ (List.mem_of_mem_filter hv)
  exact (h.applyChanges hI hreads ht (hstored.mono hattached) hspared).bind
    fun _ _ hmirrors => .pure hmirrors

lemma keeps_create (h : d.Doubled spec w) (hI : I.EqualsJson) (hreads : d.ReadBy reading)
    (hclear : w.Clear spec.label g)
    (hparent : ∀ k, parent.get? w.parentKey = some k → k ≠ .null →
      ∃ i, i ∈ g.holding w.parentLabel w.parentKey k) {pivot : Option Row}
    (hspared : spec.SparedBy (pivot.getD [])) (attributes : Row) :
    KeepsAlike spec w (createRelated (.direct d) parent attributes pivot : Action (Database I reading) Record)
      caller g := by
  have hcreatable : creatable (.direct d) = .ok d := if_neg (by rw [h.kind]; decide)
  rw [createRelated]
  refine KeepsAlike.ofExcept_bind hclear fun d' hd' => ?_
  obtain rfl := Except.ok.inj (hcreatable.symm.trans hd')
  rw [h.kind]
  exact KeepsAlike.write hclear fun base owner t ht =>
    h.createAttached hI hreads ht hclear hparent hspared attributes

end

end Client

/-- A write to the pivots of a parent. -/
inductive PivotWrite where
  | attach (keys : List Value) (attributes : Row)
  | detach (keys : Option (List Value))
  | sync (desired : List Value) (pivot : Option Row) (detaching : Bool)
  | toggle (keys : List Value) (pivot : Option Row)
  | update (key : Value) (attributes : Row)
  | create (attributes : Row) (pivot : Option Row)

namespace PivotWrite

/-- The keys that may be attached. -/
def keys : PivotWrite → List Value
  | attach keys _ | sync keys _ _ | toggle keys _ => keys
  | detach _ | update _ _ | create _ _ => []

/-- There are keys that may be attached, or one is made. -/
def attaches : PivotWrite → Bool
  | attach keys _ | sync keys _ _ | toggle keys _ => !keys.isEmpty
  | create _ _ => true
  | detach _ | update _ _ => false

/-- Attributes may be written to pivots that are there. -/
def refreshes : PivotWrite → Bool
  | sync _ pivot _ => pivot.isSome
  | update _ _ => true
  | attach _ _ | detach _ | toggle _ _ | create _ _ => false

/-- The attributes that may be written. -/
def properties : PivotWrite → Row
  | attach _ attributes | update _ attributes => attributes
  | sync _ pivot _ | toggle _ pivot | create _ pivot => pivot.getD []
  | detach _ => []

lemma attaches_of_keys {write : PivotWrite} (h : write.keys ≠ []) : write.attaches = true := by
  cases write <;> simp_all [keys, attaches]

end PivotWrite

/-- A write by a caller for a parent. -/
structure PivotCall where
  caller : Owner
  parent : Row
  write : PivotWrite

namespace PivotCall

/-- The client after a call. -/
def after {σ : Type} [Engine σ] (r : Relation) (call : PivotCall) (c : Client σ) : Client σ :=
  match call.write with
  | .attach keys attributes => (Client.attach r call.parent keys attributes call.caller c).2
  | .detach keys => (Client.detach r call.parent keys call.caller c).2
  | .sync desired pivot detaching =>
    (Client.sync r call.parent desired pivot detaching call.caller c).2
  | .toggle keys pivot => (Client.toggle r call.parent keys pivot call.caller c).2
  | .update key attributes =>
    (Client.updateExistingPivot r call.parent key attributes call.caller c).2
  | .create attributes pivot =>
    (Client.createRelated r call.parent attributes pivot call.caller c).2

/-- The client after calls one after the other. -/
def afterAll {σ : Type} [Engine σ] (r : Relation) (calls : List PivotCall) (c : Client σ) : Client σ :=
  calls.foldl (fun c call => call.after r c) c

/-- A call that a store is ready for: if something may be attached, it has the parent and the nodes with
the keys, and what is written does not take the place of the keys of a pivot. -/
structure Fits (spec : Pivot) (w : Wiring) (call : PivotCall) (g : Graph) : Prop where
  parent : call.write.attaches = true → ∀ k, call.parent.get? w.parentKey = some k → k ≠ .null →
    ∃ i, i ∈ g.holding w.parentLabel w.parentKey k
  related : ∀ v ∈ call.write.keys, ∃ j, j ∈ g.holding w.relatedLabel w.relatedKey v
  spared : spec.SparedBy call.write.properties
  lasting : call.write.refreshes = true → spec.Lasting

variable {reading : Query → Option Statement}

/-- Each of the calls finds a store that is ready for it. -/
def AllFit (spec : Pivot) (w : Wiring) (r : Relation) :
    List PivotCall → Client (Database I reading) → Prop
  | [], _ => True
  | call :: rest, c => call.Fits spec w c.engine.graph ∧ AllFit spec w r rest (call.after r c)

/-- **One operation** leaves the two copies alike, whatever comes of it. -/
theorem keeps (h : d.Doubled spec w) (hI : I.EqualsJson) (hreads : d.ReadBy reading)
    (hclear : w.Clear spec.label g) {call : PivotCall} (hfits : call.Fits spec w g)
    {c : Client (Database I reading)} (hidle : c.Idle g) :
    ∃ g', (call.after (.direct d) c).Idle g' ∧ Mirrors spec w g g' := by
  have hkeeps {α : Type} {a : Action (Database I reading) α}
      (ha : Client.KeepsAlike spec w a call.caller g) :
      ∃ g', (a call.caller c).2.Idle g' ∧ Mirrors spec w g g' := by
    obtain ⟨r, c', g', hrun, hidle', hmirrors, -⟩ := ha c hidle
    exact ⟨g', hrun ▸ hidle', hmirrors⟩
  obtain ⟨caller, parent, write⟩ := call
  have hstored : Stored spec w parent write.keys g :=
    ⟨hclear, fun hkeys => hfits.parent (PivotWrite.attaches_of_keys hkeys), hfits.related⟩
  have hspared := hfits.spared
  have hlasting := hfits.lasting
  cases write with
  | attach keys attributes => exact hkeeps (Client.keeps_attach h hI hreads hstored hspared)
  | detach keys => exact hkeeps (Client.keeps_detach h hI hreads hclear parent keys)
  | sync desired pivot detaching =>
      exact hkeeps (Client.keeps_sync h hI hreads hstored hspared hlasting detaching)
  | toggle keys pivot => exact hkeeps (Client.keeps_toggle h hI hreads hstored hspared)
  | update key attributes =>
      exact hkeeps (Client.keeps_update h hI hreads hclear hspared (hlasting rfl) parent key)
  | create attributes pivot =>
      exact hkeeps (Client.keeps_create h hI hreads hclear (hfits.parent rfl) hspared attributes)

/-- Any number of operations leave the two copies alike. -/
lemma afterAll_mirrors (h : d.Doubled spec w) (hI : I.EqualsJson) (hreads : d.ReadBy reading)
    (hclear : w.Clear spec.label g) {calls : List PivotCall} {c : Client (Database I reading)}
    (hidle : c.Idle g) (hfit : AllFit spec w (.direct d) calls c) :
    ∃ g', (afterAll (.direct d) calls c).Idle g' ∧ Mirrors spec w g g' := by
  induction calls generalizing c g with
  | nil => exact ⟨g, hidle, .refl hclear⟩
  | cons call rest ih =>
      obtain ⟨hfits, hrest⟩ := hfit
      rw [hidle.graph] at hfits
      obtain ⟨g₁, hidle₁, hmirrors⟩ := keeps h hI hreads hclear hfits hidle
      obtain ⟨g₂, hidle₂, hmirrors'⟩ := ih hmirrors.clear hidle₁ hrest
      exact ⟨g₂, hidle₂, hmirrors.trans hmirrors'⟩

/-- **Hybrid relations stay consistent**: after any sequence of operations pivot nodes and edges have
the same pairs of keys if they had before, and say the same of them if they did. -/
theorem hybrid_consistent (h : d.Doubled spec w) (hI : I.EqualsJson) (hreads : d.ReadBy reading)
    (hclear : w.Clear spec.label g) {c : Client (Database I reading)} (hidle : c.Idle g)
    (calls : List PivotCall) (hfit : AllFit spec w (.direct d) calls c) :
    ∃ g', (afterAll (.direct d) calls c).Idle g' ∧
      (Tie.pair '' spec.ties g = Tie.pair '' w.ties spec.references g →
        Tie.pair '' spec.ties g' = Tie.pair '' w.ties spec.references g') ∧
      (spec.ties g = w.ties spec.references g → spec.ties g' = w.ties spec.references g') := by
  obtain ⟨g', hidle', hmirrors⟩ := afterAll_mirrors h hI hreads hclear hidle hfit
  exact ⟨g', hidle', hmirrors.pairs, hmirrors.ties⟩

/-- The nodes in which roles of users are kept. -/
def rolePivots : Pivot :=
  { label := "RoleUser", parentReference := "user_id", relatedReference := "role_id" }

/-- The roles of a user, kept in nodes and in edges. -/
def mirroredRoles : DirectRelation where
  name := "roles"
  kind := .belongsToMany
  parentLabel := "User"
  relatedLabel := "Role"
  strategy := .hybrid ⟨"id", "id"⟩ ⟨"HAS_ROLE", .outgoing⟩ "id" "id"
  pivot := some rolePivots
  scope := {}

/-- The edges of that relation. -/
def roleEdges : Wiring := ⟨"User", "Role", ⟨"HAS_ROLE", .outgoing⟩, "id", "id"⟩

lemma mirroredRoles_doubled : mirroredRoles.Doubled rolePivots roleEdges :=
  ⟨rfl, rfl, ⟨⟨"id", "id"⟩, ⟨"HAS_ROLE", .outgoing⟩, "id", "id", rfl, rfl, rfl⟩,
    ⟨by decide, by decide, by decide⟩, ⟨by decide, by decide⟩⟩

/-- A user and two roles, none of which is granted. -/
def ungranted : Graph :=
  .ofNodes [("User", [("id", .int 1)]), ("Role", [("id", .int 7)]), ("Role", [("id", .int 8)])]

lemma ungranted_clear : roleEdges.Clear "RoleUser" ungranted :=
  ⟨by decide, by decide, by rw [Graph.Apart]; decide, by rw [Graph.Apart]; decide,
    .inl (by decide)⟩

lemma ungranted_ties :
    rolePivots.ties ungranted = roleEdges.ties rolePivots.references ungranted := by
  have hnodes : rolePivots.links ungranted = ∅ :=
    Set.eq_empty_iff_forall_notMem.mpr fun l hl => by
      have hnone : ungranted.labelled "RoleUser" = [] := by decide
      exact absurd (hnone ▸ (Pivot.mem_links.mp hl).1) List.not_mem_nil
  have hedges : roleEdges.links ungranted = ∅ :=
    Set.eq_empty_iff_forall_notMem.mpr fun l hl => by
      obtain ⟨i, j, e, ⟨-, -, he⟩, -⟩ := hl
      exact absurd (List.mem_of_mem_filter he) List.not_mem_nil
  rw [Pivot.ties, Wiring.ties, hnodes, hedges, Set.image_empty]

/-- Calls for the user, one of each kind. -/
def grants : List PivotCall :=
  [.attach [.int 7, .int 8] [("level", .int 3)], .sync [.int 8] (some [("level", .int 5)]) true,
    .create [("id", .int 9)] none, .toggle [.int 7, .int 9] none, .update (.int 7) [("level", .int 4)],
    .detach (some [.int 8])].map fun write => ⟨.task none, [("id", .int 1)], write⟩

/-- A call for the user fits a store that has the user and the roles. -/
lemma fits_user {write : PivotWrite} {g : Graph} (hparent : 0 ∈ g.holding "User" "id" (.int 1))
    (hrelated : ∀ v ∈ write.keys, ∃ j ∈ g.nodes, j ∈ g.holding "Role" "id" v)
    (hspared : "user_id" ∉ Fields.names write.properties ∧ "role_id" ∉ Fields.names write.properties) :
    Fits rolePivots roleEdges ⟨.task none, [("id", .int 1)], write⟩ g where
  parent _ k hk _ := by
    obtain rfl := Option.some.inj hk
    exact ⟨0, hparent⟩
  related v hv := (hrelated v hv).imp fun _ hj => hj.2
  lasting _ := nofun
  spared column hcolumn := by
    rcases List.mem_pair.mp hcolumn with rfl | rfl
    · exact hspared.1
    · exact hspared.2

/-- After the calls one role is granted, and nodes and edges say the same of it. -/
theorem hybrid_consistent_grants :
    ∃ g', (afterAll (.direct mirroredRoles) grants
        (Client.resting .json (Cypher.reader mirroredRoles.forms) ungranted)).Idle g' ∧
      rolePivots.ties g' = roleEdges.ties rolePivots.references g' ∧ g'.edges.length = 1 := by
  have hreads : mirroredRoles.ReadBy (Cypher.reader mirroredRoles.forms) :=
    mirroredRoles.readBy_forms (by decide +kernel)
  have hfit : AllFit rolePivots roleEdges (.direct mirroredRoles) grants
      (Client.resting .json (Cypher.reader mirroredRoles.forms) ungranted) := by
    refine ⟨fits_user ?_ ?_ ?_, fits_user ?_ ?_ ?_, fits_user ?_ ?_ ?_, fits_user ?_ ?_ ?_,
      fits_user ?_ ?_ ?_, fits_user ?_ ?_ ?_, trivial⟩ <;> decide +kernel
  obtain ⟨g', hidle, -, hties⟩ := hybrid_consistent mirroredRoles_doubled
    Cypher.Interpretation.json_equalsJson hreads ungranted_clear (Client.resting_idle ungranted) grants
    hfit
  refine ⟨g', hidle, hties ungranted_ties, ?_⟩
  rw [← hidle.graph]
  decide +kernel

/-- A role that is not there is granted in a node alone. -/
theorem copies_drift :
    let g' := (Client.attach (.direct mirroredRoles) [("id", .int 1)] [.int 404] [] (.task none)
      (Client.resting .json (Cypher.reader mirroredRoles.forms) ungranted)).2.engine.graph
    ({ Client.userRoles with
      strategy := .hybrid, edge := some ⟨"HAS_ROLE", .outgoing⟩ } : Declaration).build =
        .ok mirroredRoles ∧
      rolePivots.ties ungranted = roleEdges.ties rolePivots.references ungranted ∧
      Tie.pair '' rolePivots.ties g' ≠ Tie.pair '' roleEdges.ties rolePivots.references g' := by
  intro g'
  have hedges : g'.edges = [] := by decide +kernel
  have hnode : 3 ∈ g'.labelled "RoleUser" := by decide +kernel
  refine ⟨rfl, ungranted_ties, fun hsame => ?_⟩
  have hpair : (Link.tie rolePivots.references (rolePivots.linkOf g' 3)).pair ∈
      Tie.pair '' rolePivots.ties g' :=
    Set.mem_image_of_mem _ (Set.mem_image_of_mem _ (Set.mem_image_of_mem _ hnode))
  rw [hsame] at hpair
  obtain ⟨_, ⟨_, ⟨i, j, e, ⟨-, -, he⟩, rfl⟩, rfl⟩, -⟩ := hpair
  exact absurd (hedges ▸ List.mem_of_mem_filter he) List.not_mem_nil

end PivotCall

end GraphMapper
