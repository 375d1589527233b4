import GraphMapper.Proofs.Association.Rewiring

/-!
Calls that change the owner of a record in memory.

* `OwnerCall`: a call along a relation; `OwnerCall.perform`, `performAll`: what it makes of a record, and
  what calls one after the other make of it, with those that succeed;
* `Record.withOwner`, `OwnerCall.perform_eq_ok`: what a call that succeeds does;
* `Record.Agrees`, `OwnerCall.Shown`: two records are the same as far as a relation goes, and a record shows
  what a call did;
* `Family`: relations that can be used side by side; `Family.perform`: one call along one of them;
* `lastOn`, `Follows`, `Follows.cons`, `Family.follows` (**the last call counts**): what a record shows
  after any calls.
-/

namespace GraphMapper

/-! ### Calls -/

/-- A call that changes the owner of a record. -/
inductive OwnerCall where
  | associate (relation : DirectRelation) (owner : Record)
  | dissociate (relation : DirectRelation)

namespace OwnerCall

def relation : OwnerCall → DirectRelation
  | .associate relation _ | .dissociate relation => relation

/-- The new owner. -/
def owner? : OwnerCall → Option Record
  | .associate _ owner => some owner
  | .dissociate _ => none

def perform (call : OwnerCall) (r : Record) : Except Error Record :=
  match call with
  | .associate relation owner => r.associate (.direct relation) owner
  | .dissociate relation => r.dissociate (.direct relation)

/-- The change of edges that a call asks for.  An owner without a key is none. -/
def change? : OwnerCall → Option EdgeChange
  | .associate relation owner => (owner.get? relation.relatedKey).map (.associate relation)
  | .dissociate relation => some (.dissociate relation)

lemma relation_change {call : OwnerCall} {x : EdgeChange} (h : call.change? = some x) :
    x.relation = call.relation := by
  cases call with
  | associate relation owner =>
      obtain ⟨key, -, rfl⟩ := Option.map_eq_some_iff.mp h
      rfl
  | dissociate relation =>
      obtain rfl := Option.some.inj h
      rfl

/-- A record after calls, and the calls that succeeded.  One that fails leaves the record as it is. -/
def performAll : List OwnerCall → Record → Record × List OwnerCall
  | [], r => (r, [])
  | call :: rest, r =>
    match call.perform r with
    | .error _ => performAll rest r
    | .ok r' => ((performAll rest r').1, call :: (performAll rest r').2)

end OwnerCall

/-! ### One call -/

namespace Record

/-- The waiting changes of a relation. -/
def waiting (r : Record) (name : String) : List EdgeChange :=
  r.pending.filter (·.relation.name = name)

/-- The record with another owner along a relation. -/
def withOwner (r : Record) (d : DirectRelation) (x : EdgeChange) (owner : Option Record) : Record :=
  ((r.refer d x.key).queue d x).setRelation d.name (.one owner)

section WithOwner

variable (r : Record) (d : DirectRelation) (x : EdgeChange) (owner : Option Record)

lemma get?_withOwner (column : String) :
    (r.withOwner d x owner).attributes.get? column =
      if d.foreign? = some column then some x.key else r.attributes.get? column := by
  have hqueue (r : Record) : (r.queue d x).attributes = r.attributes := by
    rw [queue]
    cases d.strategy.edge? <;> rfl
  change ((r.refer d x.key).queue d x).attributes.get? column = _
  rw [hqueue, refer, DirectRelation.foreign?]
  cases d.strategy.keys? with
  | none => rfl
  | some keys =>
      change Fields.get? (r.attributes.put keys.foreignKey x.key) column = _
      rw [Fields.get?_put, Option.map_some]
      split_ifs with h
      · obtain rfl := Option.some.inj h
        rw [Function.update_self]
      · rw [Function.update_of_ne fun heq => h (congrArg some heq.symm)]

lemma node_withOwner :
    (r.withOwner d x owner).label = r.label ∧ (r.withOwner d x owner).pivot = r.pivot := by
  rw [withOwner, queue, refer]
  cases d.strategy.keys? <;> cases d.strategy.edge? <;> exact ⟨rfl, rfl⟩

lemma relation?_withOwner (name : String) :
    (r.withOwner d x owner).relation? name =
      if name = d.name then some (.one owner) else r.relation? name := by
  have hrelations : ((r.refer d x.key).queue d x).relations = r.relations := by
    rw [queue, refer]
    cases d.strategy.keys? <;> cases d.strategy.edge? <;> rfl
  change Fields.get? (Fields.put ((r.refer d x.key).queue d x).relations d.name _) name = _
  rw [hrelations, Fields.get?_put]
  split_ifs with h
  · rw [h, Function.update_self]
  · rw [Function.update_of_ne h]
    rfl

variable {d x}

lemma pending_withOwner (hedge : d.strategy.edge?.isSome) :
    (r.withOwner d x owner).pending = r.pending.filter (·.relation.name ≠ d.name) ++ [x] := by
  obtain ⟨edge, hedge⟩ := Option.isSome_iff_exists.mp hedge
  change ((r.refer d x.key).queue d x).pending = _
  rw [queue, hedge]
  change (r.refer d x.key).pending.filter _ ++ [x] = _
  rw [refer]
  cases d.strategy.keys? <;> rfl

lemma waiting_withOwner (hedge : d.strategy.edge?.isSome) (hx : x.relation.name = d.name)
    (name : String) :
    (r.withOwner d x owner).waiting name = if name = d.name then [x] else r.waiting name := by
  rw [waiting, pending_withOwner r owner hedge, List.filter_append, List.filter_filter]
  split_ifs with h
  · rw [List.filter_eq_nil_iff.mpr fun y _ => by simp [h], List.filter_cons_of_pos (by simp [hx, h])]
    rfl
  · rw [List.filter_cons_of_neg (by simpa [hx] using Ne.symm h), List.filter_nil, List.append_nil,
      waiting]
    refine List.filter_congr fun y _ => ?_
    by_cases hy : y.relation.name = name
    · simp [hy, h]
    · simp [hy]

/-- At most one change of each relation waits. -/
lemma nodup_withOwner (hedge : d.strategy.edge?.isSome) (hx : x.relation.name = d.name)
    (h : (r.pending.map (·.relation.name)).Nodup) :
    ((r.withOwner d x owner).pending.map (·.relation.name)).Nodup := by
  rw [pending_withOwner r owner hedge, List.map_append, List.map_singleton, ← List.concat_eq_append]
  refine (h.sublist (List.filter_sublist.map _)).concat fun hmem => ?_
  obtain ⟨y, hy, heq⟩ := List.mem_map.mp hmem
  exact of_decide_eq_true (List.mem_filter.mp hy).2 (heq.trans hx)

end WithOwner

/-- **Two records are the same as far as a relation goes.** -/
structure Agrees (d : DirectRelation) (r r' : Record) : Prop where
  waiting : r'.waiting d.name = r.waiting d.name
  loaded : r'.relation? d.name = r.relation? d.name
  foreign : ∀ column, d.foreign? = some column →
    r'.attributes.get? column = r.attributes.get? column

namespace Agrees

variable {d : DirectRelation} {r r' r'' : Record}

lemma refl (d : DirectRelation) (r : Record) : Agrees d r r :=
  ⟨rfl, rfl, fun _ _ => rfl⟩

lemma trans (h : Agrees d r r') (h' : Agrees d r' r'') : Agrees d r r'' :=
  ⟨h'.waiting.trans h.waiting, h'.loaded.trans h.loaded,
    fun column hcolumn => (h'.foreign column hcolumn).trans (h.foreign column hcolumn)⟩

end Agrees

end Record

namespace OwnerCall

/-- **A record shows what a call did**: its change alone waits, its owner is loaded, and the foreign key
is the owner's key, or null. -/
structure Shown (call : OwnerCall) (x : EdgeChange) (r : Record) : Prop where
  change : call.change? = some x
  waiting : r.waiting call.relation.name = [x]
  loaded : r.relation? call.relation.name = some (.one call.owner?)
  foreign : ∀ column, call.relation.foreign? = some column →
    r.attributes.get? column = some x.key

variable {call : OwnerCall} {x : EdgeChange} {r r' : Record}

lemma Shown.of_agrees (h : call.Shown x r) (hagrees : Record.Agrees call.relation r r') :
    call.Shown x r' where
  change := h.change
  waiting := hagrees.waiting.trans h.waiting
  loaded := hagrees.loaded.trans h.loaded
  foreign column hcolumn := (hagrees.foreign column hcolumn).trans (h.foreign column hcolumn)

/-- **What a call does**, if it succeeds: along a relation to an owner, it makes it the one that the
change is about. -/
lemma perform_eq_ok (h : call.perform r = .ok r') :
    call.relation.kind = .belongsTo ∧
      ∃ x, call.change? = some x ∧ r' = r.withOwner call.relation x call.owner? := by
  cases call with
  | associate d owner =>
      rw [perform, Record.associate, Record.owned] at h
      split_ifs at h with hkind
      · refine ⟨hkind, ?_⟩
        rw [change?]
        simp only [bind, Except.bind] at h
        split at h
        · cases h
        · next key hkey => exact ⟨.associate d key, by rw [hkey]; rfl, (Except.ok.inj h).symm⟩
      · cases h
  | dissociate d =>
      rw [perform, Record.dissociate, Record.owned] at h
      split_ifs at h with hkind
      · exact ⟨hkind, .dissociate d, rfl, (Except.ok.inj h).symm⟩
      · cases h

end OwnerCall

/-! ### Relations side by side -/

/-- **Relations to owners that can be used side by side**: they keep edges, each under a name and with a
type of its own; where they keep a foreign key as well it is one of their own, and not a column by which
one of them knows the record. -/
structure Family (family : List DirectRelation) : Prop where
  belongsTo : ∀ d ∈ family, d.kind = .belongsTo
  edges : ∀ d ∈ family, d.strategy.edge?.isSome
  names : (family.map (·.name)).Nodup
  types : ∀ d ∈ family, ∀ d' ∈ family, ∀ w w', d.tie? = some w → d'.tie? = some w' →
    w.edge.edgeType = w'.edge.edgeType → d.name = d'.name
  foreign : ∀ d ∈ family, ∀ d' ∈ family, ∀ column, d.foreign? = some column →
    d'.foreign? = some column → d.name = d'.name
  record : ∀ d ∈ family, ∀ d' ∈ family, ∀ w, d'.tie? = some w → d.foreign? ≠ some w.parentKey
  plain : ∀ d ∈ family, (∀ w, d.tie? = some w → w.Plain) ∧
    ∀ column, d.foreign? = some column → columnOwner column = ""

/-- The last of the calls along a relation. -/
def lastOn (name : String) (calls : List OwnerCall) : Option OwnerCall :=
  (calls.filter (·.relation.name = name)).getLast?

/-- **What calls have made of a record**: the last one along each relation counts, and nothing but what
the relations keep is another. -/
structure Follows (family : List DirectRelation) (r : Record) (done : List OwnerCall)
    (after : Record) : Prop where
  once : (r.pending.map (·.relation.name)).Nodup → (after.pending.map (·.relation.name)).Nodup
  pending : (∀ x ∈ r.pending, x.relation ∈ family) → ∀ x ∈ after.pending, x.relation ∈ family
  node : after.label = r.label ∧ after.pivot = r.pivot
  spared : ∀ column, (∀ d ∈ family, d.foreign? ≠ some column) →
    after.attributes.get? column = r.attributes.get? column
  others : ∀ name, (∀ d ∈ family, d.name ≠ name) →
    after.waiting name = r.waiting name ∧ after.relation? name = r.relation? name
  untouched : ∀ d ∈ family, lastOn d.name done = none → Record.Agrees d r after
  last : ∀ d ∈ family, ∀ call, lastOn d.name done = some call →
    call.relation = d ∧ ∃ x, call.Shown x after

section Last

variable {name : String} {call : OwnerCall} {done : List OwnerCall}

lemma lastOn_cons_of_some {last : OwnerCall} (h : lastOn name done = some last) :
    lastOn name (call :: done) = some last := by
  rw [lastOn] at h ⊢
  rw [List.filter_cons]
  split_ifs
  · rw [List.getLast?_cons, h]
    rfl
  · exact h

lemma lastOn_cons_of_none (h : lastOn name done = none) :
    lastOn name (call :: done) = if call.relation.name = name then some call else none := by
  rw [lastOn, List.getLast?_eq_none_iff] at h
  rw [lastOn, List.filter_cons, h]
  simp only [decide_eq_true_eq]
  split_ifs <;> rfl

end Last

namespace Follows

variable {family : List DirectRelation} {r r' after : Record} {call : OwnerCall}
  {done : List OwnerCall}

lemma refl (family : List DirectRelation) (r : Record) : Follows family r [] r :=
  ⟨id, id, ⟨rfl, rfl⟩, fun _ _ => rfl, fun _ _ => ⟨rfl, rfl⟩, fun d _ _ => .refl d r,
    fun _ _ _ hlast => by cases hlast⟩

/-- One call, and then others. -/
lemma cons (h : Follows family r [call] r') (hrest : Follows family r' done after) :
    Follows family r (call :: done) after where
  once hnodup := hrest.once (h.once hnodup)
  pending hpending := hrest.pending (h.pending hpending)
  node := ⟨hrest.node.1.trans h.node.1, hrest.node.2.trans h.node.2⟩
  spared column hspared := (hrest.spared column hspared).trans (h.spared column hspared)
  others name hother := ⟨(hrest.others name hother).1.trans (h.others name hother).1,
    (hrest.others name hother).2.trans (h.others name hother).2⟩
  untouched d hd hnone := by
    cases hlast : lastOn d.name done with
    | some last => cases (lastOn_cons_of_some hlast).symm.trans hnone
    | none =>
        have hnil : lastOn d.name [] = none := rfl
        rw [lastOn_cons_of_none hlast, ← lastOn_cons_of_none hnil] at hnone
        exact (h.untouched d hd hnone).trans (hrest.untouched d hd hlast)
  last d hd last hlast := by
    cases hrestLast : lastOn d.name done with
    | some last' =>
        obtain rfl := Option.some.inj ((lastOn_cons_of_some hrestLast).symm.trans hlast)
        exact hrest.last d hd last' hrestLast
    | none =>
        -- the first call is the last along this relation, and no other one touched what it shows
        have hnil : lastOn d.name [] = none := rfl
        rw [lastOn_cons_of_none hrestLast, ← lastOn_cons_of_none hnil] at hlast
        obtain ⟨rfl, x, hshown⟩ := h.last d hd last hlast
        exact ⟨rfl, x, hshown.of_agrees (hrest.untouched _ hd hrestLast)⟩

end Follows

namespace Family

variable {family : List DirectRelation} {r r' : Record}

lemma eq_of_name (h : Family family) {d d' : DirectRelation} (hd : d ∈ family) (hd' : d' ∈ family)
    (hname : d.name = d'.name) : d = d' :=
  List.inj_on_of_nodup_map h.names hd hd' hname

/-- **One call** is shown afterwards, and other relations are as they were. -/
lemma perform (h : Family family) {call : OwnerCall} (hcall : call.relation ∈ family)
    (hperform : call.perform r = .ok r') : Follows family r [call] r' := by
  obtain ⟨-, x, hx, rfl⟩ := OwnerCall.perform_eq_ok hperform
  have hrelation := OwnerCall.relation_change hx
  have hname : x.relation.name = call.relation.name := congrArg _ hrelation
  have hedge := h.edges _ hcall
  have hshown : call.Shown x (r.withOwner call.relation x call.owner?) :=
    ⟨hx, by rw [Record.waiting_withOwner r _ hedge hname, if_pos rfl],
      by rw [Record.relation?_withOwner, if_pos rfl],
      fun column hcolumn => by rw [Record.get?_withOwner, if_pos hcolumn]⟩
  exact
    { once := Record.nodup_withOwner r _ hedge hname
      pending := fun hpending y hy => by
        rw [Record.pending_withOwner r _ hedge] at hy
        rcases List.mem_append.mp hy with hy | hy
        · exact hpending y (List.mem_of_mem_filter hy)
        · rw [List.mem_singleton.mp hy, hrelation]
          exact hcall
      node := Record.node_withOwner r _ _ _
      spared := fun column hspared => by rw [Record.get?_withOwner, if_neg (hspared _ hcall)]
      others := fun name hother =>
        ⟨by rw [Record.waiting_withOwner r _ hedge hname, if_neg (hother _ hcall).symm],
          by rw [Record.relation?_withOwner, if_neg (hother _ hcall).symm]⟩
      untouched := fun d hd hnone => by
        have hne : d.name ≠ call.relation.name := fun heq => by
          rw [lastOn_cons_of_none rfl, if_pos heq.symm] at hnone
          cases hnone
        refine ⟨by rw [Record.waiting_withOwner r _ hedge hname, if_neg hne],
          by rw [Record.relation?_withOwner, if_neg hne], fun column hcolumn => ?_⟩
        rw [Record.get?_withOwner, if_neg fun hcolumn' => hne
          (h.foreign d hd _ hcall column hcolumn hcolumn')]
      last := fun d hd last hlast => by
        rw [lastOn_cons_of_none rfl] at hlast
        split_ifs at hlast with heq
        · obtain rfl := Option.some.inj hlast
          exact ⟨h.eq_of_name hcall hd heq, x, hshown⟩ }

/-- **The last call counts**: after any calls, of which any may fail, a record shows for each relation
what the last one did that succeeded. -/
theorem follows (h : Family family) {calls : List OwnerCall}
    (hcalls : ∀ call ∈ calls, call.relation ∈ family) (r : Record) :
    Follows family r (OwnerCall.performAll calls r).2 (OwnerCall.performAll calls r).1 := by
  induction calls generalizing r with
  | nil => exact .refl family r
  | cons call rest ih =>
      have hrest := ih fun call hcall => hcalls call (List.mem_cons_of_mem _ hcall)
      rw [OwnerCall.performAll]
      cases hperform : call.perform r with
      | error e => exact hrest r
      | ok r' => exact (h.perform (hcalls call List.mem_cons_self) hperform).cons (hrest r')

end Family

end GraphMapper
