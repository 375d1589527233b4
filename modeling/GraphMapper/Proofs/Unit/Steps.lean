import GraphMapper.Proofs.Unit.Manual

/-!
The steps of a caller.

* `Stage`: how far a caller is with what it does;
* `Move`, `Move.play`: the steps between which other callers may take theirs;
* `Stage.held`, `Stage.Fits`: the transaction of the engine that a caller holds, and what the client
  has for it;
* `Done`, `Moves`: what a step does with transactions, and what it leaves alone;
* `Move.play_spec`: every step.
-/

namespace GraphMapper

/-! ### Stages and steps -/

/-- How far a caller is: outside of transactions or inside its own, or on the way there with a session,
with a transaction that is begun, or with one that is to be ended. -/
inductive Stage where
  | outside
  | leased (lease : Lease)
  | begun (lease : Lease) (transaction : TransactionId)
  /-- The caller had a transaction already, so that the new one will be rolled back. -/
  | refused (lease : Lease) (transaction : TransactionId)
  | inside
  /-- A statement is about to be run in the transaction that was found for the caller. -/
  | asking (transaction : TransactionId) (q : Query)
  | ending (lease : Lease) (transaction : TransactionId) (committing : Bool)
  | returning (lease : Lease)
deriving DecidableEq, Repr

/-- The steps of a caller.  Each asks the engine once, or looks at the client and changes it. -/
inductive Move where
  /-- A serial number is drawn. -/
  | number
  /-- What happens between a failed attempt and the next. -/
  | pause (e : Error) (attempt : ℕ)
  | acquire
  /-- A statement is run on its own. -/
  | execute (q : Query) (mode : AccessMode)
  | start (mode : AccessMode)
  /-- The transaction that was begun becomes that of the caller, unless it has one. -/
  | enlist (serial : ℕ) (mode : AccessMode) (attempt maxAttempts : ℕ)
  | turnAway
  /-- The transaction of the caller is looked up to run a statement in it. -/
  | ask (q : Query)
  | run
  /-- One level deeper, by hand or into a nested unit of work. -/
  | enter
  /-- One level up, by hand or from a nested unit of work that is left where it was entered. -/
  | leave (failed : Bool)
  /-- The transaction is taken from the caller, to be committed unless it is doomed, or to be rolled
  back. -/
  | take (committing : Bool)
  | finish
  | release
deriving DecidableEq, Repr

open Client in
/-- Takes a step, if the caller is far enough for it. -/
def Move.play (owner : Owner) : Move → Stage → Client Script → Option (Stage × Client Script)
  | .number, .outside, c => some (.outside, (freshSerial owner c).2)
  | .pause e k, .outside, c => some (.outside, (betweenAttempts e k owner c).2)
  | .acquire, .outside, c =>
    match Client.acquire owner c with
    | (.ok lease, after) => some (.leased lease, after)
    | (.error _, after) => some (.outside, after)
  | .execute q mode, .leased lease, c =>
    some (.returning lease, (Action.observed (Engine.execute lease.session q mode) owner c).2)
  | .start mode, .leased lease, c =>
    match Action.observed (Engine.start lease.session mode) owner c with
    | (.ok (.ok transaction), after) => some (.begun lease transaction, after)
    | (_, after) => some (.returning lease, after)
  | .enlist serial mode attempt maxAttempts, .begun lease transaction, c =>
    match c.active.lookup owner with
    | some _ => some (.refused lease transaction, c)
    | none =>
      let opened : ActiveTransaction :=
        { serial, transaction, lease, depth := 1, mode, attempt, maxAttempts
          rollbackOnly := false }
      some (.inside, { c with active := c.active ++ [(owner, opened)] })
  | .turnAway, .refused lease transaction, c =>
    some (.returning lease, (Action.engine (Engine.rollback transaction) owner c).2)
  | .ask q, .inside, c =>
    (c.active.lookup owner).map fun t => (.asking t.transaction q, c)
  | .run, .asking transaction q, c =>
    some (.inside, (Action.observed (Engine.run transaction q) owner c).2)
  | .enter, .inside, c =>
    (c.active.lookup owner).map fun t => (.inside, (modifyActive owner t.serial .enter owner c).2)
  | .leave failed, .inside, c =>
    (c.active.lookup owner).bind fun t =>
      if 1 < t.depth then
        some (.inside, (modifyActive owner t.serial (.leave failed) owner c).2)
      else none
  | .take committing, .inside, c =>
    (c.active.lookup owner).map fun t =>
      (.ending t.lease t.transaction (committing && !t.rollbackOnly), (takeActive owner owner c).2)
  | .finish, .ending lease transaction committing, c =>
    some (.returning lease, (Action.observed (Client.ending transaction committing) owner c).2)
  | .release, .returning lease, c => some (.outside, (Client.release lease owner c).2)
  | _, _, _ => none

/-! ### What callers hold -/

/-- The transaction of the engine that a caller holds, by the transaction that the client has for it. -/
def Stage.held (entry : Option ActiveTransaction) : Stage → Option TransactionId
  | .begun _ t => some t
  | .refused _ t => some t
  | .ending _ t _ => some t
  | .inside => entry.map (·.transaction)
  | .asking t _ => some t
  | _ => none

/-- The client has a transaction for a caller just when it is inside. -/
def Stage.Fits (entry : Option ActiveTransaction) : Stage → Prop
  | .inside => ∃ t, entry = some t ∧ 0 < t.depth
  | .asking transaction _ => ∃ t, entry = some t ∧ 0 < t.depth ∧ t.transaction = transaction
  | _ => entry = none

namespace Stage

variable {stage : Stage} {entry : Option ActiveTransaction}

/-- The client has no transaction for a caller, or one at a positive depth. -/
lemma Fits.deep (h : stage.Fits entry) : entry = none ∨ ∃ t, entry = some t ∧ 0 < t.depth := by
  cases stage with
  | inside => exact .inr h
  | asking t q =>
      obtain ⟨t, hentry, hdeep, -⟩ := h
      exact .inr ⟨t, hentry, hdeep⟩
  | _ => exact .inl h

end Stage

/-! ### What a step does -/

/-- **What a step does with transactions**, by the one that its caller holds before and after: the
next number goes to a transaction that is begun, and else only the one that is held is asked
something. -/
inductive Done (next : TransactionId) :
    Option TransactionId → List Script.Event → Option TransactionId → TransactionId → Prop where
  | nothing {held : Option TransactionId} {events : List Script.Event}
      (hbegun : Script.begun events = []) (hwithin : ∀ e ∈ events, e.within = none) :
      Done next held events held next
  | begins (session : SessionId) (mode : AccessMode) :
      Done next none [.start session mode next none] (some next) (next + 1)
  | runs (t : TransactionId) (q : Query) (failure : Option Error) :
      Done next (some t) [.run t q failure] (some t) next
  | ends (t : TransactionId) (committing : Bool) (failure : Option Error) :
      Done next (some t) [Attempt.closing t committing failure] none next

/-- A step of an owner: what it asks the engine belongs to what the owner holds, and the transactions
that the client has for others stay. -/
structure Moves (owner : Owner) (stage : Stage) (c : Client Script) (events : List Script.Event)
    (stage' : Stage) (after : Client Script) : Prop where
  log : after.engine.log = c.engine.log ++ events
  done : Done c.engine.nextTransaction (stage.held (c.active.lookup owner)) events
    (stage'.held (after.active.lookup owner)) after.engine.nextTransaction
  fits : stage'.Fits (after.active.lookup owner)
  others : ∀ other, other ≠ owner → after.active.lookup other = c.active.lookup other
  keys : (after.active.map Prod.fst).Nodup

namespace Client

variable {owner other : Owner} {c after : Client Script}

lemma modifyActive_lookup (serial : ℕ) (f : ActiveTransaction → ActiveTransaction) (owner other : Owner)
    (c : Client Script) :
    (modifyActive owner serial f owner c).2.active.lookup other =
      (c.active.lookup other).map fun t =>
        if other = owner ∧ t.serial = serial then f t else t := by
  change (c.active.map fun p =>
    if p.1 = owner ∧ p.2.serial = serial then (p.1, f p.2) else (p.1, p.2)).lookup other = _
  induction c.active with
  | nil => rfl
  | cons p rest ih =>
      obtain ⟨o, t⟩ := p
      rw [List.map_cons]
      by_cases heq : other = o
      · subst heq
        dsimp only
        split_ifs with hserial
        · rw [List.lookup_cons_self, List.lookup_cons_self, Option.map_some, if_pos hserial]
        · rw [List.lookup_cons_self, List.lookup_cons_self, Option.map_some, if_neg hserial]
      · dsimp only
        have hne : (other == o) = false := by simpa using heq
        split_ifs
        · simp only [List.lookup_cons, hne, ih]
        · simp only [List.lookup_cons, hne, ih]

lemma modifyActive_keys (serial : ℕ) (f : ActiveTransaction → ActiveTransaction) (owner : Owner)
    (c : Client Script) :
    (modifyActive owner serial f owner c).2.active.map Prod.fst = c.active.map Prod.fst := by
  change (c.active.map fun p =>
    if p.1 = owner ∧ p.2.serial = serial then (p.1, f p.2) else (p.1, p.2)).map Prod.fst = _
  rw [List.map_map]
  refine List.map_congr_left fun p _ => ?_
  rw [Function.comp_apply]
  split_ifs <;> rfl

lemma takeActive_lookup (owner other : Owner) (c : Client Script) :
    (takeActive owner owner c).2.active.lookup other =
      if other = owner then none else c.active.lookup other := by
  change (c.active.filter fun p => p.1 ≠ owner).lookup other = _
  induction c.active with
  | nil => simp
  | cons p rest ih =>
      obtain ⟨o, t⟩ := p
      by_cases ho : o = owner
      · rw [List.filter_cons_of_neg (by simpa using ho), ih]
        split_ifs with heq
        · rfl
        · have hne : (other == o) = false := by simpa using fun h : other = o => heq (h.trans ho)
          simp only [List.lookup_cons, hne]
      · rw [List.filter_cons_of_pos (by simpa using ho)]
        by_cases heq : other = o
        · subst heq
          rw [List.lookup_cons_self, List.lookup_cons_self, if_neg ho]
        · have hne : (other == o) = false := by simpa using heq
          simp only [List.lookup_cons, hne, ih]

end Client

namespace Done

variable {next next' t : TransactionId} {held held' : Option TransactionId}
  {new : List Script.Event}

/-- What is done in a transaction is done alone, and in the one that is held. -/
lemma within (h : Done next held new held' next') {e : Script.Event} (he : e ∈ new)
    (ht : e.within = some t) : new = [e] ∧ held = some t := by
  cases h with
  | nothing _ hwithin => cases (hwithin e he).symm.trans ht
  | begins session mode =>
      obtain rfl := List.mem_singleton.mp he
      cases ht
  | runs t' q failure =>
      obtain rfl := List.mem_singleton.mp he
      exact ⟨rfl, ht⟩
  | ends t' committing failure =>
      obtain rfl := List.mem_singleton.mp he
      refine ⟨rfl, ?_⟩
      cases committing <;> exact ht

/-- What is ended was held. -/
lemma held_of_ended (h : Done next held new held' next') (ht : t ∈ Script.ended new) :
    held = some t := by
  obtain ⟨e, he, hended⟩ := List.mem_filterMap.mp ht
  have hwithin : e.within = some t := by
    cases e with
    | commit t' failure => exact hended
    | rollback t' failure => exact hended
    | _ => cases hended
  exact (h.within he hwithin).2

/-- The only transaction that is begun has the next number. -/
lemma eq_next_of_begun (h : Done next held new held' next') (ht : t ∈ Script.begun new) :
    t = next ∧ next' = next + 1 := by
  cases h with
  | nothing hbegun =>
      rw [hbegun] at ht
      cases ht
  | begins session mode => exact ⟨List.mem_singleton.mp ht, rfl⟩
  | runs => cases ht
  | ends t' committing failure => cases committing <;> cases ht

lemma nodup_begun (h : Done next held new held' next') : (Script.begun new).Nodup := by
  cases h with
  | nothing hbegun =>
      rw [hbegun]
      exact List.nodup_nil
  | begins session mode => exact List.nodup_singleton _
  | runs => exact List.nodup_nil
  | ends t' committing failure => cases committing <;> exact List.nodup_nil

lemma next_le (h : Done next held new held' next') : next ≤ next' := by
  cases h with
  | begins => exact Nat.le_succ _
  | _ => exact le_refl _

/-- What is held afterwards was held before or is begun, and is not ended. -/
lemma held_iff (h : Done next held new held' next') :
    held' = some t ↔ (held = some t ∨ t ∈ Script.begun new) ∧ t ∉ Script.ended new := by
  cases h with
  | nothing hbegun hwithin => simp [hbegun, Script.ended_of_within hwithin]
  | begins session mode => simp [Script.begun, Script.ended, eq_comm]
  | runs t' q failure => simp [Script.begun, Script.ended]
  | ends t' committing failure =>
      cases committing <;> simp [Attempt.closing, Script.begun, Script.ended, eq_comm]

end Done

/-! ### Single steps -/

section Steps

open Client

variable {owner : Owner} {stage stage' : Stage} {c after : Client Script}
  {events : List Script.Event}

/-- A step that leaves all transactions of the client as they are. -/
lemma Moves.of_active (hactive : after.active = c.active) (hkeys : (c.active.map Prod.fst).Nodup)
    (hlog : after.engine.log = c.engine.log ++ events)
    (hdone : Done c.engine.nextTransaction (stage.held (c.active.lookup owner)) events
      (stage'.held (c.active.lookup owner)) after.engine.nextTransaction)
    (hfits : stage'.Fits (c.active.lookup owner)) : Moves owner stage c events stage' after where
  log := hlog
  done := by rwa [hactive]
  fits := by rwa [hactive]
  others other _ := by rw [hactive]
  keys := by rwa [hactive]

/-- A step without transactions. -/
lemma Moves.aside (haside : c.Aside after) (hkeys : (c.active.map Prod.fst).Nodup)
    (hheld : stage.held (c.active.lookup owner) = stage'.held (c.active.lookup owner))
    (hfits : stage'.Fits (c.active.lookup owner)) : Moves owner stage c [] stage' after := by
  refine .of_active haside.active hkeys ?_ ?_ hfits
  · rw [haside.quiet.log, List.append_nil]
  · rw [haside.quiet.next, hheld]
    exact .nothing rfl (by simp)

/-- A step that changes the transaction of its caller in the client, but not at the engine. -/
lemma modifyActive_moves {t : ActiveTransaction} (f : ActiveTransaction → ActiveTransaction)
    (hentry : c.active.lookup owner = some t) (hkeys : (c.active.map Prod.fst).Nodup)
    (htransaction : (f t).transaction = t.transaction) (hdeep : 0 < (f t).depth) :
    Moves owner .inside c [] .inside (modifyActive owner t.serial f owner c).2 := by
  have hfound : (modifyActive owner t.serial f owner c).2.active.lookup owner = some (f t) := by
    rw [modifyActive_lookup, hentry, Option.map_some, if_pos ⟨rfl, rfl⟩]
  refine ⟨(List.append_nil _).symm, ?_, ?_, fun other hother => ?_, ?_⟩
  · rw [hfound, hentry, Stage.held, Stage.held, Option.map_some, Option.map_some, htransaction]
    exact .nothing rfl (by simp)
  · rw [hfound]
    exact ⟨f t, rfl, hdeep⟩
  · rw [modifyActive_lookup]
    simp only [hother, false_and, if_false, Option.map_id']
  · rw [modifyActive_keys]
    exact hkeys

/-- A session is taken out, or none is to be had. -/
lemma acquire_moves (hentry : c.active.lookup owner = none) (hkeys : (c.active.map Prod.fst).Nodup)
    (hplay : Move.play owner .acquire .outside c = some (stage', after)) :
    Moves owner .outside c [] stage' after := by
  obtain ⟨r, acquired, hacquire, haside, -⟩ := acquire_spec owner c
  rw [Move.play, hacquire] at hplay
  cases r with
  | ok lease =>
      obtain ⟨rfl, rfl⟩ := Prod.mk.inj (Option.some.inj hplay)
      exact .aside haside hkeys rfl hentry
  | error halt =>
      obtain ⟨rfl, rfl⟩ := Prod.mk.inj (Option.some.inj hplay)
      exact .aside haside hkeys rfl hentry

/-- A transaction is begun, or it is not. -/
lemma start_moves {lease : Lease} (mode : AccessMode) (hentry : c.active.lookup owner = none)
    (hkeys : (c.active.map Prod.fst).Nodup)
    (hplay : Move.play owner (.start mode) (.leased lease) c = some (stage', after)) :
    ∃ events, Moves owner (.leased lease) c events stage' after := by
  obtain ⟨r, started, hstart, hkeeps, hbegun⟩ := start_spec lease.session mode owner c
  rw [Move.play, hstart] at hplay
  obtain ⟨e, rfl, hquiet⟩ | ⟨rfl, hlog, hnext⟩ := hbegun
  · obtain ⟨rfl, rfl⟩ := Prod.mk.inj (Option.some.inj hplay)
    exact ⟨[], .aside ⟨hquiet, hkeeps.active, hkeeps.policy⟩ hkeys rfl hentry⟩
  · obtain ⟨rfl, rfl⟩ := Prod.mk.inj (Option.some.inj hplay)
    refine ⟨_, .of_active hkeeps.active hkeys hlog ?_ hentry⟩
    rw [hnext]
    exact .begins lease.session mode

/-- What the engine does, with its failure taken note of, leaves the transactions of the client. -/
lemma observed_moves {α : Type} (m : StateM Script (Except Error α))
    (hkeys : (c.active.map Prod.fst).Nodup) (hlog : (m c.engine).2.log = c.engine.log ++ events)
    (hdone : Done c.engine.nextTransaction (stage.held (c.active.lookup owner)) events
      (stage'.held (c.active.lookup owner)) (m c.engine).2.nextTransaction)
    (hfits : stage'.Fits (c.active.lookup owner)) :
    Moves owner stage c events stage' (Action.observed m owner c).2 := by
  obtain ⟨after, hobserved, hengine, hkeeps⟩ := observed_spec owner c m
  rw [hobserved]
  refine .of_active hkeeps.active hkeys ?_ ?_ hfits
  · rw [hengine, hlog]
  · rw [hengine]
    exact hdone

/-- A statement on its own. -/
lemma execute_moves (lease : Lease) (q : Query) (mode : AccessMode)
    (hentry : c.active.lookup owner = none) (hkeys : (c.active.map Prod.fst).Nodup) :
    ∃ events, Moves owner (.leased lease) c events (.returning lease)
      (Action.observed (Engine.execute lease.session q mode) owner c).2 := by
  obtain ⟨events, hlog, hnext, hbegun, hwithin⟩ :=
    Script.execute_log lease.session q mode c.engine
  refine ⟨events, observed_moves _ hkeys hlog ?_ hentry⟩
  rw [show (Engine.execute lease.session q mode c.engine).2.nextTransaction = _ from hnext]
  exact .nothing hbegun hwithin

/-- A transaction that was begun becomes that of its owner. -/
lemma enlist_moves {lease : Lease} {transaction : TransactionId} {t : ActiveTransaction}
    (hentry : c.active.lookup owner = none) (hkeys : (c.active.map Prod.fst).Nodup)
    (ht : t.transaction = transaction) (hdeep : 0 < t.depth) :
    Moves owner (.begun lease transaction) c [] .inside
      { c with active := c.active ++ [(owner, t)] } := by
  have hfound : (c.active ++ [(owner, t)]).lookup owner = some t := by
    rw [List.lookup_append, hentry, List.lookup_cons_self]
    rfl
  refine ⟨(List.append_nil _).symm, ?_, ⟨t, hfound, hdeep⟩, fun other hother => ?_, ?_⟩
  · dsimp only
    rw [hfound, Stage.held, Stage.held, Option.map_some, ht]
    exact .nothing rfl (by simp)
  · have hne : (other == owner) = false := by simpa using hother
    simp only [List.lookup_append, List.lookup_cons, hne, List.lookup_nil, Option.or_none]
  · rw [List.map_append, List.map_singleton, List.nodup_append]
    refine ⟨hkeys, List.nodup_singleton _, fun o ho o' ho' => ?_⟩
    rintro rfl
    obtain ⟨p, hp, rfl⟩ := List.mem_map.mp ho
    have hne := List.lookup_eq_none_iff.mp hentry p hp
    rw [List.mem_singleton.mp ho'] at hne
    simp at hne

/-- A transaction that was begun for a caller who had one already is rolled back. -/
lemma turnAway_moves (lease : Lease) (transaction : TransactionId)
    (hentry : c.active.lookup owner = none) (hkeys : (c.active.map Prod.fst).Nodup) :
    ∃ events, Moves owner (.refused lease transaction) c events (.returning lease)
      (Action.engine (Engine.rollback transaction) owner c).2 := by
  obtain ⟨hlog, hnext⟩ := Script.rollback_log transaction c.engine
  refine ⟨_, .of_active rfl hkeys hlog ?_ hentry⟩
  rw [show (Action.engine (Engine.rollback transaction) owner c).2.engine.nextTransaction = _
    from hnext]
  exact .ends transaction false _

/-- The transaction of a caller is found for a statement. -/
lemma ask_moves {t : ActiveTransaction} (q : Query) (hentry : c.active.lookup owner = some t)
    (hdeep : 0 < t.depth) (hkeys : (c.active.map Prod.fst).Nodup) :
    Moves owner .inside c [] (.asking t.transaction q) c := by
  refine .aside (.refl c) hkeys ?_ ⟨t, hentry, hdeep, rfl⟩
  rw [hentry]
  rfl

/-- A statement is run in the transaction that was found for it. -/
lemma run_moves {t : ActiveTransaction} (q : Query) (hentry : c.active.lookup owner = some t)
    (hdeep : 0 < t.depth) (hkeys : (c.active.map Prod.fst).Nodup) :
    ∃ events, Moves owner (.asking t.transaction q) c events .inside
      (Action.observed (Engine.run t.transaction q) owner c).2 := by
  obtain ⟨hlog, hnext⟩ := Script.run_log t.transaction q c.engine
  refine ⟨_, observed_moves _ hkeys hlog ?_ ⟨t, hentry, hdeep⟩⟩
  rw [show (Engine.run t.transaction q c.engine).2.nextTransaction = _ from hnext, hentry]
  exact .runs t.transaction q _

/-- The transaction of a caller is taken out. -/
lemma take_moves {t : ActiveTransaction} (committing : Bool)
    (hentry : c.active.lookup owner = some t) (hkeys : (c.active.map Prod.fst).Nodup) :
    Moves owner .inside c [] (.ending t.lease t.transaction committing)
      (takeActive owner owner c).2 := by
  have hgone : (takeActive owner owner c).2.active.lookup owner = none := by
    rw [takeActive_lookup, if_pos rfl]
  refine ⟨(List.append_nil _).symm, ?_, hgone, fun other hother => ?_, ?_⟩
  · rw [hentry]
    exact .nothing rfl (by simp)
  · rw [takeActive_lookup, if_neg hother]
  · exact hkeys.sublist (List.filter_sublist.map Prod.fst)

/-- A transaction that was taken from its caller is committed or rolled back. -/
lemma finish_moves (lease : Lease) (transaction : TransactionId) (committing : Bool)
    (hentry : c.active.lookup owner = none) (hkeys : (c.active.map Prod.fst).Nodup) :
    ∃ events, Moves owner (.ending lease transaction committing) c events (.returning lease)
      (Action.observed (Client.ending transaction committing) owner c).2 := by
  obtain ⟨hlog, hnext⟩ := ending_log transaction committing c.engine
  refine ⟨_, observed_moves _ hkeys hlog ?_ hentry⟩
  rw [hnext]
  exact .ends transaction committing _

/-- **Every step** asks the engine only about what its caller holds. -/
lemma Move.play_spec {move : Move} (hplay : move.play owner stage c = some (stage', after))
    (hfits : stage.Fits (c.active.lookup owner)) (hkeys : (c.active.map Prod.fst).Nodup) :
    ∃ events, Moves owner stage c events stage' after := by
  cases move with
  | number =>
      cases stage with
      | outside =>
          obtain ⟨rfl, rfl⟩ := Prod.mk.inj (Option.some.inj hplay)
          exact ⟨[], .aside ⟨.refl _, rfl, rfl⟩ hkeys rfl hfits⟩
      | _ => cases hplay
  | pause e k =>
      cases stage with
      | outside =>
          obtain ⟨paused, hpause, haside, -⟩ := betweenAttempts_spec owner c e k
          obtain ⟨rfl, rfl⟩ := Prod.mk.inj (Option.some.inj hplay)
          rw [hpause]
          exact ⟨[], .aside haside hkeys rfl hfits⟩
      | _ => cases hplay
  | acquire =>
      cases stage with
      | outside => exact ⟨[], acquire_moves hfits hkeys hplay⟩
      | _ => cases hplay
  | execute q mode =>
      cases stage with
      | leased lease =>
          obtain ⟨rfl, rfl⟩ := Prod.mk.inj (Option.some.inj hplay)
          exact execute_moves lease q mode hfits hkeys
      | _ => cases hplay
  | start mode =>
      cases stage with
      | leased lease => exact start_moves mode hfits hkeys hplay
      | _ => cases hplay
  | enlist serial mode attempt maxAttempts =>
      cases stage with
      | begun lease transaction =>
          rw [Move.play, show c.active.lookup owner = none from hfits] at hplay
          obtain ⟨rfl, rfl⟩ := Prod.mk.inj (Option.some.inj hplay)
          exact ⟨[], enlist_moves hfits hkeys rfl Nat.one_pos⟩
      | _ => cases hplay
  | turnAway =>
      cases stage with
      | refused lease transaction =>
          obtain ⟨rfl, rfl⟩ := Prod.mk.inj (Option.some.inj hplay)
          exact turnAway_moves lease transaction hfits hkeys
      | _ => cases hplay
  | ask q =>
      cases stage with
      | inside =>
          obtain ⟨t, hentry, hdeep⟩ := hfits
          rw [Move.play, hentry] at hplay
          obtain ⟨rfl, rfl⟩ := Prod.mk.inj (Option.some.inj hplay)
          exact ⟨[], ask_moves q hentry hdeep hkeys⟩
      | _ => cases hplay
  | run =>
      cases stage with
      | asking transaction q =>
          obtain ⟨rfl, rfl⟩ := Prod.mk.inj (Option.some.inj hplay)
          obtain ⟨t, hentry, hdeep, rfl⟩ := hfits
          exact run_moves q hentry hdeep hkeys
      | _ => cases hplay
  | enter =>
      cases stage with
      | inside =>
          obtain ⟨t, hentry, hdeep⟩ := hfits
          rw [Move.play, hentry] at hplay
          obtain ⟨rfl, rfl⟩ := Prod.mk.inj (Option.some.inj hplay)
          exact ⟨[], modifyActive_moves .enter hentry hkeys rfl (Nat.succ_pos _)⟩
      | _ => cases hplay
  | leave failed =>
      cases stage with
      | inside =>
          obtain ⟨t, hentry, hdeep⟩ := hfits
          rw [Move.play, hentry, Option.bind_some] at hplay
          split_ifs at hplay with hinner
          obtain ⟨rfl, rfl⟩ := Prod.mk.inj (Option.some.inj hplay)
          exact ⟨[], modifyActive_moves (.leave failed) hentry hkeys rfl (Nat.sub_pos_of_lt hinner)⟩
      | _ => cases hplay
  | take committing =>
      cases stage with
      | inside =>
          obtain ⟨t, hentry, hdeep⟩ := hfits
          rw [Move.play, hentry] at hplay
          obtain ⟨rfl, rfl⟩ := Prod.mk.inj (Option.some.inj hplay)
          exact ⟨[], take_moves _ hentry hkeys⟩
      | _ => cases hplay
  | finish =>
      cases stage with
      | ending lease transaction committing =>
          obtain ⟨rfl, rfl⟩ := Prod.mk.inj (Option.some.inj hplay)
          exact finish_moves lease transaction committing hfits hkeys
      | _ => cases hplay
  | release =>
      cases stage with
      | returning lease =>
          obtain ⟨rfl, rfl⟩ := Prod.mk.inj (Option.some.inj hplay)
          exact ⟨[], .aside ⟨.refl _, rfl, rfl⟩ hkeys rfl hfits⟩
      | _ => cases hplay

end Steps

end GraphMapper
