import GraphMapper.Proofs.Unit.Action
import GraphMapper.Proofs.Unit.Log

/-!
Sessions are given back.

* `Monitor.NoneHeld`, `Monitor.OneHeld`: from one monitor to a later one, no session more is out, or
  just the session of a lease is;
* `Client.Aside`: a client that has done nothing in transactions meanwhile;
* `Client.acquire_spec`: a session is checked out, or none is;
* `Monitor.OneHeld.putBack`, `Client.release_spec`: a session that is given back is out no more;
* `Client.betweenAttempts_spec`: a new pool has no session out.
-/

namespace GraphMapper

/-! ### Sessions that are out -/

/-- No session more is out of the current pool; a pool opened meanwhile has none out. -/
structure Monitor.NoneHeld (m m' : Monitor) : Prop where
  generation : m.generation ≤ m'.generation
  same : ∀ p', m'.pool = some p' → m'.generation = m.generation →
    ∃ p, m.pool = some p ∧ p'.permits = p.permits ∧ p'.capacity = p.capacity
  opened : ∀ p', m'.pool = some p' → m.generation < m'.generation → p'.permits = p'.capacity

/-- Just the session of the lease is out besides those that were. -/
structure Monitor.OneHeld (lease : Lease) (m m' : Monitor) : Prop where
  generation : lease.generation = m'.generation
  held : ∃ p', m'.pool = some p' ∧ m.NoneHeld { m' with pool := some p'.cancel }

namespace Monitor

lemma NoneHeld.refl (m : Monitor) : m.NoneHeld m where
  generation := le_refl _
  same p' hp _ := ⟨p', hp, rfl, rfl⟩
  opened _ _ hlt := absurd hlt (lt_irrefl _)

lemma NoneHeld.trans {m m' m'' : Monitor} (h : m.NoneHeld m') (h' : m'.NoneHeld m'') :
    m.NoneHeld m'' where
  generation := h.generation.trans h'.generation
  same p'' hp heq := by
    have hmid : m''.generation = m'.generation := by
      have := h.generation
      have := h'.generation
      omega
    obtain ⟨p', hp', hpermits', hcapacity'⟩ := h'.same p'' hp hmid
    obtain ⟨p, hp, hpermits, hcapacity⟩ := h.same p' hp' (by omega)
    exact ⟨p, hp, hpermits'.trans hpermits, hcapacity'.trans hcapacity⟩
  opened p'' hp hlt := by
    by_cases hmid : m''.generation = m'.generation
    · obtain ⟨p', hp', hpermits, hcapacity⟩ := h'.same p'' hp hmid
      rw [hpermits, hcapacity]
      exact h.opened p' hp' (by omega)
    · have := h'.generation
      exact h'.opened p'' hp (by omega)

/-- Only the pool and its generation count. -/
lemma NoneHeld.congr {m m' n n' : Monitor} (h : m.NoneHeld m') (hp : n.pool = m.pool)
    (hg : n.generation = m.generation) (hp' : n'.pool = m'.pool)
    (hg' : n'.generation = m'.generation) : n.NoneHeld n' := by
  refine ⟨?_, ?_, ?_⟩
  · rw [hg, hg']
    exact h.generation
  · rw [hp, hg, hp', hg']
    exact h.same
  · rw [hg, hp', hg']
    exact h.opened

/-- A monitor without a pool has no session out of one. -/
lemma noneHeld_of_none {m m' : Monitor} (hg : m.generation ≤ m'.generation)
    (hp : m'.pool = none) : m.NoneHeld m' :=
  ⟨hg, fun p' h => by simp [hp] at h, fun p' h => by simp [hp] at h⟩

lemma noneHeld_install (m : Monitor) {pool : Pool} (h : pool.permits = pool.capacity) :
    m.NoneHeld (m.install pool) where
  generation := Nat.le_succ _
  same _ _ heq := absurd heq (Nat.succ_ne_self _)
  opened p' hp _ := by
    obtain rfl : pool = p' := Option.some.inj hp
    exact h

/-- The current pool may change as long as its permits stay. -/
lemma NoneHeld.replace {m m' : Monitor} {p q : Pool} (h : m.NoneHeld m') (hp : m'.pool = some p)
    (hpermits : q.permits = p.permits) (hcapacity : q.capacity = p.capacity) :
    m.NoneHeld { m' with pool := some q } := by
  refine ⟨h.generation, fun q' hq heq => ?_, fun q' hq hlt => ?_⟩
  · obtain rfl : q = q' := Option.some.inj hq
    obtain ⟨r, hr, hr', hr''⟩ := h.same p hp heq
    exact ⟨r, hr, hpermits.trans hr', hcapacity.trans hr''⟩
  · obtain rfl : q = q' := Option.some.inj hq
    rw [hpermits, hcapacity]
    exact h.opened p hp hlt

/-- Only the pool and its generation count. -/
lemma OneHeld.congr {lease : Lease} {m m' n' : Monitor} (h : m.OneHeld lease m')
    (hp : n'.pool = m'.pool) (hg : n'.generation = m'.generation) : m.OneHeld lease n' := by
  obtain ⟨hgeneration, p', hp', hnone⟩ := h
  exact ⟨hgeneration.trans hg.symm, p', hp.trans hp', hnone.congr rfl rfl rfl hg⟩

/-- The session of a lease that is put back is out no more. -/
lemma OneHeld.putBack {lease : Lease} {m m' : Monitor} (h : m.OneHeld lease m') :
    m.NoneHeld (m'.putBack lease).1 := by
  obtain ⟨hg, p', hp, hnone⟩ := h
  rw [Monitor.putBack, hp]
  simp only [hg, if_true]
  rw [Pool.putBack]
  split_ifs
  · exact hnone
  · refine ⟨hnone.generation, fun q hq heq => ?_, fun q hq hlt => ?_⟩
    · obtain rfl := Option.some.inj hq
      exact hnone.same p'.cancel rfl heq
    · obtain rfl := Option.some.inj hq
      exact hnone.opened p'.cancel rfl hlt

end Monitor

/-! ### Pools -/

namespace Pool

/-- Sessions that are opened beforehand take no permits. -/
lemma warmUp_spec (n : ℕ) (p : Pool) (s : Script) :
    Script.Quiet s (warmUp n p s).2 ∧
      ∀ p', (warmUp n p s).1 = .ok p' → p'.permits = p.permits ∧ p'.settings = p.settings := by
  induction n generalizing p s with
  | zero =>
      refine ⟨.refl s, fun p' hp => ?_⟩
      obtain rfl : p = p' := Except.ok.inj hp
      exact ⟨rfl, rfl⟩
  | succ n ih =>
      have hconnect : Script.Quiet s (Engine.connect p.settings s).2 :=
        Script.connect_quiet p.settings s
      rw [warmUp, Script.bind_apply]
      generalize Engine.connect p.settings s = r at hconnect ⊢
      obtain ⟨e | session, after⟩ := r
      · exact ⟨hconnect, fun p' hp => by cases hp⟩
      · obtain ⟨hquiet, hpool⟩ := ih { p.adopt with idle := session :: p.idle } after
        exact ⟨hconnect.trans hquiet, fun p' hp => hpool p' hp⟩

/-- A new pool has no session out. -/
lemma open_spec (settings : Settings) (s : Script) :
    Script.Quiet s (Pool.open settings s).2 ∧
      ∀ p, (Pool.open settings s).1 = .ok p → p.permits = p.capacity := by
  obtain ⟨hquiet, hpool⟩ :=
    warmUp_spec (if settings.lazy then 0 else settings.pool.warm) (empty settings) s
  refine ⟨hquiet, fun p hp => ?_⟩
  obtain ⟨hpermits, hsettings⟩ := hpool p hp
  rw [hpermits, capacity, hsettings]
  rfl

/-- A session that is handed out takes a permit, and otherwise none is taken. -/
lemma acquire_spec (p : Pool) (s : Script) :
    Script.Quiet s (acquire p s).2 ∧ (acquire p s).1.2.capacity = p.capacity ∧
      match (acquire p s).1.1 with
      | .session _ => (acquire p s).1.2.permits + 1 = p.permits
      | _ => (acquire p s).1.2.permits = p.permits := by
  have hconnect : Script.Quiet s (Engine.connect p.settings s).2 :=
    Script.connect_quiet p.settings s
  rw [acquire, reserve?]
  split_ifs with hclosed hnone
  · exact ⟨.refl s, rfl, rfl⟩
  · exact ⟨.refl s, rfl, rfl⟩
  · have hleft : p.permits - 1 + 1 = p.permits := by omega
    dsimp only
    rw [takeIdle?]
    cases p.idle with
    | cons session rest => exact ⟨.refl s, rfl, hleft⟩
    | nil =>
        dsimp only
        rw [Script.bind_apply]
        generalize Engine.connect p.settings s = r at hconnect ⊢
        obtain ⟨e | session, after⟩ := r
        · exact ⟨hconnect, rfl, hleft⟩
        · exact ⟨hconnect, rfl, hleft⟩

lemma close_quiet (p : Pool) (s : Script) : Script.Quiet s (close p s).2 :=
  Script.closeAll_quiet _ s

end Pool

/-! ### Clients -/

/-- Meanwhile no statement was run, and no transaction begun or ended. -/
structure Client.Aside (c c' : Client Script) : Prop where
  quiet : Script.Quiet c.engine c'.engine
  active : c'.active = c.active
  policy : c'.policy = c.policy

/-- But for the engine's state, all that counts of the client is as before. -/
structure Client.Keeps (c c' : Client Script) : Prop where
  active : c'.active = c.active
  policy : c'.policy = c.policy
  pool : c'.monitor.pool = c.monitor.pool
  generation : c'.monitor.generation = c.monitor.generation

namespace Client

lemma Aside.refl (c : Client Script) : c.Aside c := ⟨.refl _, rfl, rfl⟩

lemma Aside.trans {c c' c'' : Client Script} (h : c.Aside c') (h' : c'.Aside c'') : c.Aside c'' :=
  ⟨h.quiet.trans h'.quiet, h'.active.trans h.active, h'.policy.trans h.policy⟩

variable (caller : Owner) (c : Client Script)

/-- There is a pool afterwards, or the failure to open one. -/
lemma ensurePool_spec :
    ∃ (r : Except Error Pool) (after : Client Script),
      ensurePool caller c = (.ok r, after) ∧ c.Aside after ∧ c.monitor.NoneHeld after.monitor ∧
        ∀ p, r = .ok p → after.monitor.pool = some p := by
  rw [ensurePool, Action.bind_apply_ok (Action.monitor_apply caller c)]
  cases hpool : c.monitor.pool with
  | some p =>
      exact ⟨_, _, rfl, .refl c, .refl _, fun q hq => by rw [hpool, Except.ok.inj hq]⟩
  | none =>
      obtain ⟨hquiet, hopened⟩ := Pool.open_spec c.monitor.settings c.engine
      dsimp only
      rw [Action.bind_apply_ok (Action.engine_apply _ caller c)]
      generalize Pool.open c.monitor.settings c.engine = r at hquiet hopened ⊢
      obtain ⟨e | p, s⟩ := r
      · refine ⟨_, _, rfl, ⟨hquiet, rfl, rfl⟩, .refl _, fun q hq => by cases hq⟩
      · refine ⟨_, _, rfl, ⟨hquiet, rfl, rfl⟩, Monitor.noneHeld_install _ (hopened p rfl), ?_⟩
        rintro q hq
        rw [← Except.ok.inj hq]
        rfl

/-- The session that is checked out is the only one, and without one none is out. -/
lemma checkOut_spec :
    ∃ (r : Except Halt (Except Error Lease)) (after : Client Script),
      checkOut caller c = (r, after) ∧ c.Aside after ∧
        match r with
        | .ok (.ok lease) => c.monitor.OneHeld lease after.monitor
        | _ => c.monitor.NoneHeld after.monitor := by
  obtain ⟨r, after, hensure, haside, hnone, hpool⟩ := ensurePool_spec caller c
  rw [checkOut, Action.bind_apply_ok hensure]
  cases r with
  | error e => exact ⟨_, _, rfl, haside, hnone⟩
  | ok p =>
      have hp := hpool p rfl
      obtain ⟨hquiet, hcapacity, hpermits⟩ := Pool.acquire_spec p after.engine
      dsimp only
      rw [Action.bind_apply_ok (Action.engine_apply _ caller after)]
      generalize Pool.acquire p after.engine = r at hquiet hcapacity hpermits ⊢
      obtain ⟨⟨_ | e | _, q⟩, s⟩ := r
      · refine ⟨_, _, rfl, haside.trans ⟨hquiet, rfl, rfl⟩, rfl, q, rfl, ?_⟩
        exact hnone.replace hp hpermits hcapacity
      · exact ⟨_, _, rfl, haside.trans ⟨hquiet, rfl, rfl⟩, hnone.replace hp hpermits hcapacity⟩
      · exact ⟨_, _, rfl, haside.trans ⟨hquiet, rfl, rfl⟩, hnone.replace hp hpermits hcapacity⟩

lemma marked_pool (e : Error) (m : Monitor) :
    (Action.marked e m).pool = m.pool ∧ (Action.marked e m).generation = m.generation := by
  rw [Action.marked]
  split_ifs <;> exact ⟨rfl, rfl⟩

lemma seen_pool {α : Type} (r : Except Error α) (m : Monitor) :
    (Action.seen r m).pool = m.pool ∧ (Action.seen r m).generation = m.generation := by
  cases r with
  | ok x => exact ⟨rfl, rfl⟩
  | error e => exact marked_pool e m

/-- What the engine does changes its state, and the mark of staleness alone besides. -/
lemma observed_spec {α : Type} (m : StateM Script (Except Error α)) :
    ∃ after : Client Script, Action.observed m caller c = (.ok (m c.engine).1, after) ∧
      after.engine = (m c.engine).2 ∧ c.Keeps after := by
  obtain ⟨hpool, hgeneration⟩ := seen_pool (m c.engine).1 c.monitor
  exact ⟨_, Action.observed_apply m caller c, rfl, rfl, rfl, hpool, hgeneration⟩

/-- The session that is acquired is the only one, and without one none is out. -/
lemma acquire_spec :
    ∃ (r : Except Halt Lease) (after : Client Script),
      acquire caller c = (r, after) ∧ c.Aside after ∧
        match r with
        | .ok lease => c.monitor.OneHeld lease after.monitor
        | .error _ => c.monitor.NoneHeld after.monitor := by
  obtain ⟨r, after, hcheck, haside, hheld⟩ := checkOut_spec caller c
  rw [acquire]
  obtain halt | e | lease := r
  · exact ⟨_, _, Action.bind_apply_error hcheck, haside, hheld⟩
  · rw [Action.bind_apply_ok hcheck]
    dsimp only
    rw [Action.bind_apply_ok (Action.observe_apply e caller after)]
    obtain ⟨hpool, hgeneration⟩ := marked_pool e after.monitor
    refine ⟨_, _, rfl, haside.trans ⟨.refl _, rfl, rfl⟩, hheld.congr rfl rfl hpool hgeneration⟩
  · rw [Action.bind_apply_ok hcheck]
    exact ⟨_, _, rfl, haside, hheld⟩

/-- A session that is released is out no more. -/
lemma release_spec {m : Monitor} {lease : Lease} (h : m.OneHeld lease c.monitor) :
    ∃ after : Client Script, release lease caller c = (.ok (), after) ∧ after.engine = c.engine ∧
      after.active = c.active ∧ after.policy = c.policy ∧ m.NoneHeld after.monitor :=
  ⟨_, rfl, rfl, rfl, rfl, h.putBack⟩

/-! ### New pools -/

/-- Without a pool no session is out. -/
lemma disconnect_spec :
    ∃ after : Client Script, disconnect caller c = (.ok (), after) ∧ c.Aside after ∧
      c.monitor.NoneHeld after.monitor := by
  rw [disconnect, Action.bind_apply_ok (Action.monitor_apply caller c)]
  cases hpool : c.monitor.pool with
  | none => exact ⟨_, rfl, .refl c, .refl _⟩
  | some p =>
      dsimp only
      rw [Action.bind_apply_ok (Action.modifyMonitor_apply _ caller c),
        Action.bind_apply_ok (Action.engine_apply _ caller _)]
      exact ⟨_, rfl, ⟨Pool.close_quiet p c.engine, rfl, rfl⟩,
        Monitor.noneHeld_of_none (le_refl _) rfl⟩

/-- A pool that is opened in place of another has no session out. -/
lemma reconnect_spec :
    ∃ (r : Except Error Unit) (after : Client Script),
      reconnect caller c = (r.mapError .failed, after) ∧ c.Aside after ∧
        c.monitor.NoneHeld after.monitor := by
  obtain ⟨mid, hdisconnect, haside, hnone⟩ := disconnect_spec caller c
  obtain ⟨hquiet, hopened⟩ := Pool.open_spec mid.monitor.settings mid.engine
  rw [reconnect, Action.bind_apply_ok hdisconnect,
    Action.bind_apply_ok (Action.monitor_apply caller mid),
    Action.bind_apply_ok (Action.engine_apply _ caller mid)]
  generalize Pool.open mid.monitor.settings mid.engine = r at hquiet hopened ⊢
  obtain ⟨e | p, s⟩ := r
  · exact ⟨.error e, _, rfl, haside.trans ⟨hquiet, rfl, rfl⟩, hnone⟩
  · refine ⟨.ok (), _, rfl, haside.trans ⟨hquiet, rfl, rfl⟩, ?_⟩
    have hinstall := hnone.trans (Monitor.noneHeld_install mid.monitor (hopened p rfl))
    exact hinstall.congr rfl rfl rfl rfl

lemma reconnectIfStale_spec :
    ∃ (r : Except Error Bool) (after : Client Script),
      reconnectIfStale caller c = (r.mapError .failed, after) ∧ c.Aside after ∧
        c.monitor.NoneHeld after.monitor := by
  rw [reconnectIfStale, Action.bind_apply_ok (Action.monitor_apply caller c)]
  split_ifs
  · obtain ⟨r, after, hreconnect, haside, hnone⟩ := reconnect_spec caller c
    cases r with
    | error e => exact ⟨.error e, _, Action.bind_apply_error hreconnect, haside, hnone⟩
    | ok =>
        rw [Action.bind_apply_ok hreconnect]
        exact ⟨.ok true, _, rfl, haside, hnone⟩
  · exact ⟨.ok false, _, rfl, .refl c, .refl _⟩

/-- A client that rests closes sessions, and nothing else. -/
lemma settle_spec :
    ∃ after : Client Script, Action.settle caller c = (.ok (), after) ∧ c.Aside after ∧
      after.monitor = c.monitor :=
  ⟨_, rfl, ⟨Script.closeAll_quiet c.returned c.engine, rfl, rfl⟩, rfl⟩

/-- Between two attempts nothing is done with data, and no session is kept. -/
lemma betweenAttempts_spec (e : Error) (k : ℕ) :
    ∃ after : Client Script, betweenAttempts e k caller c = (.ok (), after) ∧ c.Aside after ∧
      c.monitor.NoneHeld after.monitor := by
  have hrest : ∀ mid : Client Script, c.Aside mid → c.monitor.NoneHeld mid.monitor →
      ∃ after : Client Script,
        (do
          if 0 < (← get).policy.exponential k then
            Action.settle : Action Script Unit) caller mid = (.ok (), after) ∧
          c.Aside after ∧ c.monitor.NoneHeld after.monitor := by
    intro mid haside hnone
    rw [Action.bind_apply_ok (Action.get_apply caller mid)]
    split_ifs
    · obtain ⟨after, hsettle, hrest, hmonitor⟩ := settle_spec caller mid
      exact ⟨after, hsettle, haside.trans hrest, hmonitor ▸ hnone⟩
    · exact ⟨mid, rfl, haside, hnone⟩
  rw [betweenAttempts]
  split_ifs
  · obtain ⟨r, mid, hreconnect, haside, hnone⟩ := reconnectIfStale_spec caller c
    rw [Action.bind_apply_ok (Action.attempted_apply_ok hreconnect)]
    exact hrest mid haside hnone
  · exact hrest c (.refl c) (.refl _)

end Client

end GraphMapper
