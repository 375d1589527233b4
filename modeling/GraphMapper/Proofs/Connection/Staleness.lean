import GraphMapper.Engine.Script
import GraphMapper.Proofs.Unit.Action

/-!
The mark of staleness against what happened to the connection.

* `Usage`, `Usage.play`: what may be asked of a connection;
* `Incident`, `Usage.incidents`: pools that were opened and alarms that were raised, as far as the
  caller and the number of pools tell of them;
* `Client.Lived`: the states of a connection with their history, whatever is asked and whatever the
  engine answers;
* `Usage.play_spec`, `Client.Lived.told`: what one use changes, and what the whole history tells of
  the mark;
* `Client.stale_since_opened` (**the mark speaks of the current pool**): it does, if no pool was opened
  on first use while the connection was still marked; `Client.stale_from_before`: it does not after
  such an opening.
-/

namespace GraphMapper

variable {σ : Type}

/-! ### Uses of a connection -/

/-- What may be asked of a connection. -/
inductive Usage where
  | acquire
  | release (lease : Lease)
  | execute (q : Query) (mode : AccessMode)
  | ping
  | observe (e : Error)
  | forceStale
  | setSettings (settings : Settings)
  | reconnect
  | reconnectIfStale
  | disconnect
  | settle

namespace Usage

/-- What comes of a use. -/
abbrev Reply : Usage → Type
  | .acquire => Lease
  | .execute _ _ => List Row
  | .ping | .reconnectIfStale => Bool
  | .release _ | .observe _ | .forceStale | .setSettings _ | .reconnect | .disconnect | .settle => Unit

/-- Makes use of a connection. -/
def play [Engine σ] : (u : Usage) → Action σ u.Reply
  | .acquire => Client.acquire
  | .release lease => Client.release lease
  | .execute q mode => Client.execute q mode
  | .ping => Client.ping
  | .observe e => Action.observe e
  | .forceStale => Client.forceStale
  | .setSettings settings => Client.setSettings settings
  | .reconnect => Client.reconnect
  | .reconnectIfStale => Client.reconnectIfStale
  | .disconnect => Client.disconnect
  | .settle => Action.settle

/-- Whether a use raises an alarm: it fails with an error that speaks of staleness, it is told of such
an error, a ping is not answered, or the connection is declared stale. -/
def alarms : (u : Usage) → Except Halt u.Reply → Bool
  | .acquire, .error (.failed e) | .execute _ _, .error (.failed e) => e.isStale
  | .ping, .ok answered => !answered
  | .observe e, _ => e.isStale
  | .forceStale, _ => true
  | _, _ => false

/-- Whether a use is there to open a pool in place of the one before. -/
def renews : Usage → Bool
  | .reconnect | .reconnectIfStale => true
  | _ => false

end Usage

/-! ### Histories -/

/-- What happens to a connection. -/
inductive Incident where
  /-- A pool was opened; `marked` if that was on first use and the connection was marked as stale from
  before. -/
  | opened (marked : Bool)
  | alarm
deriving DecidableEq, Repr

namespace Incident

def opens : Incident → Bool
  | .opened _ => true
  | .alarm => false

/-- An alarm was raised after the last pool was opened.  The last incident comes first. -/
def AlarmedSinceOpened (past : List Incident) : Prop :=
  ∃ later pool earlier, past = later ++ pool :: earlier ∧ pool.opens ∧ .alarm ∈ later ∧
    ∀ i ∈ later, ¬ i.opens

/-- What a history says of the mark. -/
def mark : List Incident → Bool
  | [] => false
  | .opened marked :: _ => marked
  | .alarm :: _ => true

end Incident

/-- The incidents of a use, the last first.  A use opens a pool before anything else of it can fail, so
its alarm comes after. -/
def Usage.incidents (u : Usage) (outcome : Except Halt u.Reply) (before after : Monitor) :
    List Incident :=
  (if u.alarms outcome then [.alarm] else []) ++
    if after.generation = before.generation then []
    else [.opened (before.stale && !u.renews)]

/-- **The states of a connection**, each with its history: after it is connected it is used by any
callers in any order, and meanwhile the engine may come to any state by itself. -/
inductive Client.Lived [Engine σ] : List Incident → Client σ → Prop where
  | connected {settings : Settings} {relations : Registry} {s s' : σ} {c : Client σ}
      (h : Client.connect settings relations s = (.ok c, s')) :
      Lived (if c.monitor.pool.isSome then [.opened false] else []) c
  | used {past : List Incident} {c after : Client σ} (h : Lived past c) (caller : Owner) (u : Usage)
      {outcome : Except Halt u.Reply} (hplay : u.play caller c = (outcome, after)) :
      Lived (u.incidents outcome c.monitor after.monitor ++ past) after
  | elsewhere {past : List Incident} {c : Client σ} (h : Lived past c) (s : σ) :
      Lived past { c with engine := s }

/-! ### Parts of uses -/

/-- From one monitor to a later one: the mark is set by an alarm and otherwise stays, and a pool that is
there was there before or was opened. -/
structure Monitor.Noted (alarm : Bool) (m m' : Monitor) : Prop where
  stale : m'.stale = (alarm || m.stale)
  generation : m.generation ≤ m'.generation
  pool : m'.pool.isSome → m.pool.isSome ∨ m.generation < m'.generation

namespace Monitor

variable {m m' m'' : Monitor} {alarm alarm' : Bool}

lemma Noted.refl (m : Monitor) : m.Noted false m :=
  ⟨rfl, le_refl _, .inl⟩

lemma Noted.trans (h : m.Noted alarm m') (h' : m'.Noted alarm' m'') :
    m.Noted (alarm' || alarm) m'' where
  stale := by rw [h'.stale, h.stale, Bool.or_assoc]
  generation := h.generation.trans h'.generation
  pool hpool := by
    rcases h'.pool hpool with hmid | hlt
    · exact (h.pool hmid).imp_right (·.trans_le h'.generation)
    · exact .inr (h.generation.trans_lt hlt)

lemma noted_install (m : Monitor) (pool : Pool) : m.Noted false (m.install pool) :=
  ⟨rfl, Nat.le_succ _, fun _ => .inr (Nat.lt_succ_self _)⟩

lemma noted_marked (e : Error) (m : Monitor) : m.Noted e.isStale (Action.marked e m) := by
  rw [Action.marked]
  cases e.isStale with
  | true => exact ⟨rfl, le_refl _, .inl⟩
  | false => exact .refl m

lemma noted_putBack (m : Monitor) (lease : Lease) : m.Noted false (m.putBack lease).1 := by
  rw [putBack]
  split
  · exact .refl m
  · rename_i pool hpool
    split_ifs
    · exact ⟨rfl, le_refl _, fun _ => .inl (by simp [hpool])⟩
    · exact .refl m

end Monitor

namespace Client

variable [Engine σ] (caller : Owner) (c : Client σ)

lemma ensurePool_noted :
    ∃ r after, ensurePool caller c = (.ok r, after) ∧ c.monitor.Noted false after.monitor ∧
      ∀ pool, r = .ok pool → after.monitor.pool.isSome := by
  rw [ensurePool, Action.bind_apply_ok (Action.monitor_apply caller c)]
  cases hpool : c.monitor.pool with
  | some pool => exact ⟨_, _, rfl, .refl _, fun _ _ => by rw [hpool]; rfl⟩
  | none =>
      dsimp only
      rw [Action.bind_apply_ok (Action.engine_apply _ caller c)]
      generalize Pool.open c.monitor.settings c.engine = r
      obtain ⟨e | pool, s⟩ := r
      · exact ⟨_, _, rfl, .refl _, fun _ h => by cases h⟩
      · exact ⟨_, _, rfl, Monitor.noted_install _ pool, fun _ _ => rfl⟩

lemma checkOut_noted :
    ∃ r after, checkOut caller c = (r, after) ∧ c.monitor.Noted false after.monitor ∧
      ∀ e, r ≠ .error (.failed e) := by
  obtain ⟨r, mid, hensure, hnoted, hsome⟩ := ensurePool_noted caller c
  rw [checkOut, Action.bind_apply_ok hensure]
  cases r with
  | error e => exact ⟨_, _, rfl, hnoted, fun _ => by simp⟩
  | ok pool =>
      have hmid := hsome pool rfl
      dsimp only
      rw [Action.bind_apply_ok (Action.engine_apply _ caller mid)]
      generalize Pool.acquire pool mid.engine = r
      -- the pool goes back to its place with one session more or less in it
      have hreplace (pool : Pool) : c.monitor.Noted false { mid.monitor with pool := some pool } :=
        ⟨hnoted.stale, hnoted.generation, fun _ => hnoted.pool hmid⟩
      obtain ⟨⟨_ | e | _, pool⟩, s⟩ := r <;> exact ⟨_, _, rfl, hreplace pool, fun _ => nofun⟩

lemma acquire_noted :
    ∃ outcome after, acquire caller c = (outcome, after) ∧
      c.monitor.Noted (Usage.acquire.alarms outcome) after.monitor := by
  obtain ⟨r, mid, hcheck, hnoted, hfailed⟩ := checkOut_noted caller c
  rw [acquire]
  obtain (e | _) | e | lease := r
  · exact absurd rfl (hfailed e)
  · exact ⟨_, _, Action.bind_apply_error hcheck, hnoted⟩
  · rw [Action.bind_apply_ok hcheck]
    dsimp only
    rw [Action.bind_apply_ok (Action.observe_apply e caller mid)]
    have hmarked := hnoted.trans (Monitor.noted_marked e mid.monitor)
    rw [Bool.or_false] at hmarked
    exact ⟨_, _, rfl, hmarked⟩
  · rw [Action.bind_apply_ok hcheck]
    exact ⟨_, _, rfl, hnoted⟩

lemma execute_noted (q : Query) (mode : AccessMode) :
    ∃ outcome after, execute q mode caller c = (outcome, after) ∧
      c.monitor.Noted ((Usage.execute q mode).alarms outcome) after.monitor := by
  obtain ⟨r, mid, hacquire, hnoted⟩ := acquire_noted caller c
  rw [execute]
  obtain (e | _) | lease := r
  · exact ⟨_, _, Action.bind_apply_error hacquire, hnoted⟩
  · exact ⟨_, _, Action.bind_apply_error hacquire, hnoted⟩
  · rw [Action.bind_apply_ok hacquire,
      Action.bind_apply_ok (Action.observed_apply _ caller mid)]
    obtain ⟨e | rows, s⟩ := Engine.execute lease.session q mode mid.engine
    · have hput := (hnoted.trans (Monitor.noted_marked e mid.monitor)).trans
        (Monitor.noted_putBack _ lease)
      have halarm : (false || (e.isStale || Usage.acquire.alarms (.ok lease))) =
          (Usage.execute q mode).alarms (.error (.failed e)) := by
        rw [Bool.false_or]
        exact Bool.or_false _
      exact ⟨_, _, rfl, halarm ▸ hput⟩
    · exact ⟨_, _, rfl, hnoted.trans (Monitor.noted_putBack _ lease)⟩

lemma ping_noted :
    ∃ outcome after, ping caller c = (outcome, after) ∧
      c.monitor.Noted (Usage.ping.alarms outcome) after.monitor := by
  obtain ⟨r, mid, hcheck, hnoted, hfailed⟩ := checkOut_noted caller c
  have hforced (m : Monitor) : m.Noted true { m with stale := true } := ⟨rfl, le_refl _, .inl⟩
  rw [ping]
  obtain (e | _) | e | lease := r
  · exact absurd rfl (hfailed e)
  · exact ⟨_, _, Action.bind_apply_error hcheck, hnoted⟩
  · rw [Action.bind_apply_ok hcheck]
    exact ⟨_, _, rfl, hnoted.trans (hforced _)⟩
  · rw [Action.bind_apply_ok hcheck]
    dsimp only
    rw [Action.bind_apply_ok (Action.engine_apply _ caller mid)]
    have hput := hnoted.trans (Monitor.noted_putBack mid.monitor lease)
    obtain ⟨e | rows, s⟩ := Engine.execute lease.session pingQuery .read mid.engine
    · exact ⟨.ok false, _, rfl, hput.trans (hforced _)⟩
    · exact ⟨.ok true, _, rfl, hput⟩

/-- A connection that is closed keeps its mark. -/
lemma disconnect_noted :
    ∃ after, disconnect caller c = (.ok (), after) ∧ c.monitor.Noted false after.monitor ∧
      after.monitor.generation = c.monitor.generation := by
  rw [disconnect, Action.bind_apply_ok (Action.monitor_apply caller c)]
  cases hpool : c.monitor.pool with
  | none => exact ⟨_, rfl, .refl _, rfl⟩
  | some pool => exact ⟨_, rfl, ⟨rfl, le_refl _, fun h => absurd h (by simp)⟩, rfl⟩

end Client

/-! ### Uses -/

/-- What a use changes: an alarm sets the mark, and only a pool that is opened in place of another takes
it away. -/
inductive Usage.Changes (u : Usage) (outcome : Except Halt u.Reply) (m m' : Monitor) : Prop where
  | noted (h : m.Noted (u.alarms outcome) m') (hrenews : u.renews → m'.generation = m.generation)
  | renewed (hrenews : u.renews) (hquiet : u.alarms outcome = false) (hstale : m'.stale = false)
      (hgeneration : m.generation < m'.generation)

namespace Client

variable [Engine σ] (caller : Owner) (c : Client σ)

lemma reconnect_changes :
    ∃ outcome after, reconnect caller c = (outcome, after) ∧
      Usage.reconnect.Changes outcome c.monitor after.monitor := by
  obtain ⟨mid, hdisconnect, hnoted, hgeneration⟩ := disconnect_noted caller c
  rw [reconnect, Action.bind_apply_ok hdisconnect,
    Action.bind_apply_ok (Action.monitor_apply caller mid),
    Action.bind_apply_ok (Action.engine_apply _ caller mid)]
  obtain ⟨e | pool, s⟩ := Pool.open mid.monitor.settings mid.engine
  · exact ⟨.error (.failed e), _, rfl, .noted hnoted fun _ => hgeneration⟩
  · exact ⟨.ok (), _, rfl, .renewed rfl rfl rfl (hgeneration ▸ Nat.lt_succ_self _)⟩

lemma reconnectIfStale_changes :
    ∃ outcome after, reconnectIfStale caller c = (outcome, after) ∧
      Usage.reconnectIfStale.Changes outcome c.monitor after.monitor := by
  rw [reconnectIfStale, Action.bind_apply_ok (Action.monitor_apply caller c)]
  split_ifs
  · obtain ⟨outcome, after, hreconnect, hchanges⟩ := reconnect_changes caller c
    cases outcome with
    | error halt =>
        refine ⟨_, _, Action.bind_apply_error hreconnect, ?_⟩
        rcases hchanges with ⟨hnoted, hrenews⟩ | ⟨hrenews, hquiet, hstale, hgeneration⟩
        · exact .noted hnoted hrenews
        · exact .renewed rfl rfl hstale hgeneration
    | ok =>
        refine ⟨_, _, Action.bind_apply_ok hreconnect, ?_⟩
        rcases hchanges with ⟨hnoted, hrenews⟩ | ⟨hrenews, hquiet, hstale, hgeneration⟩
        · exact .noted hnoted hrenews
        · exact .renewed rfl rfl hstale hgeneration
  · exact ⟨_, _, rfl, .noted (.refl _) fun _ => rfl⟩

end Client

/-- **What one use changes.** -/
theorem Usage.play_spec [Engine σ] (u : Usage) (caller : Owner) (c : Client σ) :
    ∃ outcome after, u.play caller c = (outcome, after) ∧
      u.Changes outcome c.monitor after.monitor := by
  cases u with
  | acquire =>
      obtain ⟨outcome, after, hplay, hnoted⟩ := Client.acquire_noted caller c
      exact ⟨outcome, after, hplay, .noted hnoted nofun⟩
  | release lease => exact ⟨_, _, rfl, .noted (Monitor.noted_putBack _ lease) nofun⟩
  | execute q mode =>
      obtain ⟨outcome, after, hplay, hnoted⟩ := Client.execute_noted caller c q mode
      exact ⟨outcome, after, hplay, .noted hnoted nofun⟩
  | ping =>
      obtain ⟨outcome, after, hplay, hnoted⟩ := Client.ping_noted caller c
      exact ⟨outcome, after, hplay, .noted hnoted nofun⟩
  | observe e =>
      exact ⟨_, _, Action.observe_apply e caller c, .noted (Monitor.noted_marked e _) nofun⟩
  | forceStale => exact ⟨_, _, rfl, .noted ⟨rfl, le_refl _, .inl⟩ nofun⟩
  | setSettings settings => exact ⟨_, _, rfl, .noted ⟨rfl, le_refl _, .inl⟩ nofun⟩
  | reconnect => exact Client.reconnect_changes caller c
  | reconnectIfStale => exact Client.reconnectIfStale_changes caller c
  | disconnect =>
      obtain ⟨after, hplay, hnoted, -⟩ := Client.disconnect_noted caller c
      exact ⟨.ok (), after, hplay, .noted hnoted nofun⟩
  | settle => exact ⟨_, _, rfl, .noted (.refl _) nofun⟩

/-! ### Whole histories -/

/-- What a history tells of a connection: whether it is marked, and that a pool which is there was
opened. -/
structure Monitor.ToldBy (past : List Incident) (m : Monitor) : Prop where
  stale : m.stale = Incident.mark past
  opened : m.pool.isSome → ∃ i ∈ past, i.opens

/-- A use adds its incidents to what is told. -/
lemma Usage.Changes.told {u : Usage} {outcome : Except Halt u.Reply} {m m' : Monitor}
    (h : u.Changes outcome m m') {past : List Incident} (htold : m.ToldBy past) :
    m'.ToldBy (u.incidents outcome m m' ++ past) := by
  rw [incidents]
  rcases h with ⟨hnoted, hrenews⟩ | ⟨hrenews, hquiet, hstale, hgeneration⟩
  · constructor
    · rw [hnoted.stale]
      cases u.alarms outcome with
      | true => rfl
      | false =>
          rw [if_neg Bool.false_ne_true, List.nil_append]
          split_ifs with hsame
          · exact htold.stale
          · -- a pool was opened, but not in place of another
            have hfirst : u.renews = false := by simpa using mt hrenews hsame
            rw [hfirst]
            exact (Bool.and_true _).symm
    · intro hpool
      rcases hnoted.pool hpool with hbefore | hlt
      · obtain ⟨i, hi, hopens⟩ := htold.opened hbefore
        exact ⟨i, List.mem_append_right _ hi, hopens⟩
      · rw [if_neg hlt.ne']
        exact ⟨.opened _, List.mem_append_left _ (List.mem_append_right _ (List.mem_singleton_self _)),
          rfl⟩
  · rw [hquiet, if_neg hgeneration.ne', hrenews]
    exact ⟨hstale.trans (Bool.and_false _).symm, fun _ => ⟨.opened _, List.mem_cons_self, rfl⟩⟩

namespace Client

variable [Engine σ]

lemma connect_told {settings : Settings} {relations : Registry} {s s' : σ} {c : Client σ}
    (h : connect settings relations s = (.ok c, s')) :
    c.monitor.ToldBy (if c.monitor.pool.isSome then [.opened false] else []) := by
  have hstale : c.monitor.stale = false := by
    rw [connect] at h
    split_ifs at h
    · rw [← Except.ok.inj (congrArg Prod.fst h)]
      rfl
    · simp only [bind, StateT.bind] at h
      generalize Pool.open settings s = r at h
      obtain ⟨e | pool, s1⟩ := r
      · cases congrArg Prod.fst h
      · rw [← Except.ok.inj (congrArg Prod.fst h)]
        rfl
  split_ifs with hpool
  · exact ⟨hstale, fun _ => ⟨_, List.mem_singleton_self _, rfl⟩⟩
  · exact ⟨hstale, fun h => absurd h hpool⟩

/-- **What the history tells**: in every state of a connection the mark is what the last incident made
it, and a pool that is there was opened. -/
theorem Lived.told {past : List Incident} {c : Client σ} (h : Lived past c) :
    c.monitor.ToldBy past := by
  induction h with
  | connected h => exact connect_told h
  | @used past c after _ caller u outcome hplay ih =>
      obtain ⟨outcome', after', hplay', hchanges⟩ := u.play_spec caller c
      obtain ⟨rfl, rfl⟩ := Prod.ext_iff.mp (hplay'.symm.trans hplay)
      exact hchanges.told ih
  | elsewhere _ _ ih => exact ih

end Client

namespace Incident

lemma not_alarmed_opened (marked : Bool) (past : List Incident) :
    ¬ AlarmedSinceOpened (.opened marked :: past) := by
  rintro ⟨_ | ⟨i, later⟩, pool, earlier, hpast, -, halarm, hclosed⟩
  · exact absurd halarm List.not_mem_nil
  · obtain ⟨rfl, -⟩ := List.cons.inj hpast
    exact hclosed _ List.mem_cons_self rfl

/-- Where no pool was opened while the connection was marked, and some was opened, the mark is an alarm
since the last. -/
lemma mark_iff {past : List Incident} (hfirst : .opened true ∉ past) (hopened : ∃ i ∈ past, i.opens) :
    mark past = true ↔ AlarmedSinceOpened past := by
  rcases past with _ | ⟨marked | _, rest⟩
  · simp at hopened
  · obtain ⟨rfl, -⟩ : marked = false ∧ Incident.opened true ∉ rest := by simpa using hfirst
    exact iff_of_false Bool.false_ne_true (not_alarmed_opened _ _)
  · refine iff_of_true rfl ?_
    obtain ⟨i, hi, hopens⟩ := hopened
    have hrest : ∃ i ∈ rest, i.opens :=
      ⟨i, (List.mem_cons.mp hi).resolve_left (by rintro rfl; exact Bool.false_ne_true hopens), hopens⟩
    obtain ⟨pool, hfound⟩ := Option.isSome_iff_exists.mp (List.find?_isSome.mpr hrest)
    obtain ⟨hpool, later, earlier, rfl, hlater⟩ := List.find?_eq_some_iff_append.mp hfound
    refine ⟨.alarm :: later, pool, earlier, rfl, hpool, List.mem_cons_self, ?_⟩
    exact List.forall_mem_cons.mpr ⟨Bool.false_ne_true, by simpa using hlater⟩

end Incident

/-- **The mark speaks of the current pool**: in every state of a connection that has a pool, if none was
opened on first use while the connection was marked from before, it is marked as stale just if an alarm
was raised after that pool was opened, and it is connected otherwise. -/
theorem Client.stale_since_opened [Engine σ] {past : List Incident} {c : Client σ} (h : Lived past c)
    (hfirst : .opened true ∉ past) (hpool : c.monitor.pool.isSome) :
    (c.monitor.stale = true ↔ Incident.AlarmedSinceOpened past) ∧
      (c.monitor.isConnected = true ↔ ¬ Incident.AlarmedSinceOpened past) := by
  have htold := h.told
  have hmark := Incident.mark_iff hfirst (htold.opened hpool)
  rw [Monitor.isConnected, hpool, htold.stale, ← hmark]
  simp

namespace Client

/-- A script that breaks off the first statement. -/
def brokenPipe : Script :=
  { failures := [(.execute, .stale "Broken pipe")] }

/-- The client of a script. -/
def connectedTo (s : Script) : Client Script :=
  { engine := (Pool.open {} s).2
    monitor := (Monitor.start {}).install { Pool.empty {} with idle := [1], opened := 1 }
    policy := RetryPolicy.ofSettings {}, relations := [], active := [], nextSerial := 0
    returned := [] }

theorem stale_since_opened_broken :
    ∃ past c, Lived (σ := Script) past c ∧ .opened true ∉ past ∧ c.monitor.pool.isSome ∧
      (c.monitor.stale = true ↔ Incident.AlarmedSinceOpened past) ∧
      (c.monitor.isConnected = true ↔ ¬ Incident.AlarmedSinceOpened past) := by
  have hconnect : connect {} [] brokenPipe = (.ok (connectedTo brokenPipe), _) := rfl
  have hlived := (Lived.connected hconnect).used (.task none) (.execute pingQuery .read) rfl
  exact ⟨_, _, hlived, by decide, rfl, stale_since_opened hlived (by decide) rfl⟩

/-- A connection that is declared stale and closed opens its next pool on first use and is still marked:
the ping is answered, but the connection counts as broken. -/
theorem stale_from_before :
    ¬ ∀ past c, Lived (σ := Script) past c → c.monitor.pool.isSome → c.monitor.stale = true →
      Incident.AlarmedSinceOpened past := by
  intro h
  have hconnect : connect {} [] ({} : Script) = (.ok (connectedTo {}), _) := rfl
  have hlived := (((Lived.connected hconnect).used (.task none) .forceStale rfl).used (.task none)
    .disconnect rfl).used (.task none) .ping rfl
  exact Incident.not_alarmed_opened _ _ (h _ _ hlived rfl rfl)

end Client

end GraphMapper
