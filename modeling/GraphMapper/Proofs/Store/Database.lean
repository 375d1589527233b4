import GraphMapper.Client.Relations
import GraphMapper.Proofs.Graph.Change
import GraphMapper.Proofs.Unit.Action

/-!
A client of an engine that stores a graph.

* `Database`: the stored graph, the graph inside the open transaction, and a clock; as an `Engine` it
  runs the statements that it can read;
* `Client.Idle`: a client between its units of work;
* `Client.Achieves`: what an action inside a transaction does to the graph there, with a rule for each
  way to build an action;
* `Client.write_spec` (**writes are atomic**): a unit of work that succeeds leaves its graph stored, and
  one that fails leaves the graph that was stored.
-/

namespace GraphMapper

open Cypher (Graph Interpretation Statement playAll)

/-! ### The engine -/

/-- An engine with one graph, in which one transaction is open at a time.  The text of a statement is
read by `reading`. -/
structure Database (I : Interpretation) (reading : Query → Option Statement) where
  graph : Graph
  /-- The graph inside the open transaction. -/
  working : Option Graph := none
  /-- The time at each look at the clock. -/
  clock : ℕ → String
  looks : ℕ := 0

namespace Database

variable {I : Interpretation} {reading : Query → Option Statement}

/-- What the engine says to a statement that it cannot read or that it refuses. -/
def refusal : Error := .constraint "unknown" "unknown" "the statement was refused"

/-- Runs a query on a graph. -/
def answer (I : Interpretation) (reading : Query → Option Statement) (q : Query) (g : Graph) :
    Except Error (List Row) × Graph :=
  match (reading q).bind (·.run I g) with
  | none => (.error refusal, g)
  | some st => (.ok ((st.answers.getD []).map (·.row)), st.graph)

instance : Engine (Database I reading) where
  connect _ := return .ok 0
  execute _ q _ := fun db =>
    let (r, g) := answer I reading q db.graph
    (r, { db with graph := g })
  start _ _ := fun db => (.ok 0, { db with working := some db.graph })
  close _ := return ()
  run _ q := fun db =>
    match db.working with
    | none => (.error refusal, db)
    | some working =>
      let (r, g) := answer I reading q working
      (r, { db with working := some g })
  commit _ := fun db => (.ok (), { db with graph := db.working.getD db.graph, working := none })
  rollback _ := fun db => (.ok (), { db with working := none })
  clock := fun db => (db.clock db.looks, { db with looks := db.looks + 1 })

end Database

namespace Client

variable {I : Interpretation} {reading : Query → Option Statement} {α β : Type}

/-- A client between its units of work: no transaction is open, and a session can be had. -/
structure Idle (c : Client (Database I reading)) (g : Graph) : Prop where
  graph : c.engine.graph = g
  active : c.active = []
  pool : ∃ p, c.monitor.pool = some p ∧ p.closed = false ∧ p.permits ≠ 0

/-- A client that has done nothing yet, of an engine whose clock stands still. -/
def resting (I : Interpretation) (reading : Query → Option Statement) (g : Graph) :
    Client (Database I reading) where
  engine := { graph := g, clock := fun _ => "2024-01-01T00:00:00+00:00" }
  monitor :=
    { settings := {}, pool := some (.empty {}), generation := 1, stale := false, reconnects := 0 }
  policy := .ofSettings {}
  relations := []
  active := []
  nextSerial := 0
  returned := []

lemma resting_idle (g : Graph) : (resting I reading g).Idle g :=
  ⟨rfl, rfl, _, rfl, rfl, by decide⟩

/-! ### Inside a transaction -/

/-- A client inside a transaction, with the graph there and the number of looks at the clock. -/
def within (base : Client (Database I reading)) (g : Graph) (looks : ℕ) :
    Client (Database I reading) :=
  { base with engine := { base.engine with working := some g, looks := looks } }

/-- Inside the transaction of an owner an action from a graph on has a result and leaves a graph that
fulfil a condition, or it fails for good, which is only if it may fail. -/
def Achieves (base : Client (Database I reading)) (owner : Owner) (mayFail : Prop)
    (a : Action (Database I reading) α) (g : Graph) (post : α → Graph → Prop) : Prop :=
  ∀ looks, ∃ (r : Except Error α) (g' : Graph) (looks' : ℕ),
    a owner (base.within g looks) = (r.mapError .failed, base.within g' looks') ∧
      match r with
      | .ok x => post x g'
      | .error e => mayFail ∧ e.isRetryable = false

variable {base : Client (Database I reading)} {owner : Owner} {mayFail : Prop} {g : Graph}
  {post : α → Graph → Prop}

namespace Achieves

lemma pure {x : α} (h : post x g) :
    Achieves base owner mayFail (Pure.pure x : Action (Database I reading) α) g post :=
  fun looks => ⟨.ok x, g, looks, rfl, h⟩

lemma bind {a : Action (Database I reading) α} {f : α → Action (Database I reading) β}
    {post' : β → Graph → Prop} (h : Achieves base owner mayFail a g post)
    (hf : ∀ x g', post x g' → Achieves base owner mayFail (f x) g' post') :
    Achieves base owner mayFail (a >>= f) g post' := by
  intro looks
  obtain ⟨r, g', looks', hrun, hr⟩ := h looks
  cases r with
  | error e => exact ⟨.error e, g', looks', Action.bind_apply_error hrun, hr⟩
  | ok x =>
      obtain ⟨r, g'', looks'', hrun', hr'⟩ := hf x g' hr looks'
      exact ⟨r, g'', looks'', (Action.bind_apply_ok hrun).trans hrun', hr'⟩

lemma mono {a : Action (Database I reading) α} {post' : α → Graph → Prop} {mayFail' : Prop}
    (h : Achieves base owner mayFail a g post) (hfail : mayFail → mayFail')
    (hpost : ∀ x g', post x g' → post' x g') : Achieves base owner mayFail' a g post' := by
  intro looks
  obtain ⟨r, g', looks', hrun, hr⟩ := h looks
  refine ⟨r, g', looks', hrun, ?_⟩
  cases r with
  | error e => exact ⟨hfail hr.1, hr.2⟩
  | ok x => exact hpost x g' hr

/-- A result that is passed on is no change. -/
lemma ofExcept_bind {r : Except Error β} {f : β → Action (Database I reading) α}
    (hfail : ∀ e, r = .error e → mayFail ∧ e.isRetryable = false)
    (hf : ∀ x, r = .ok x → Achieves base owner mayFail (f x) g post) :
    Achieves base owner mayFail (Action.ofExcept r >>= f) g post := by
  intro looks
  cases r with
  | error e => exact ⟨.error e, g, looks, rfl, hfail e rfl⟩
  | ok x => exact hf x rfl looks

lemma fail {e : Error} (hfail : mayFail) (he : e.isRetryable = false) :
    Achieves base owner mayFail (Action.fail e : Action (Database I reading) α) g post :=
  fun looks => ⟨.error e, g, looks, rfl, hfail, he⟩

/-- A look at the clock is no change. -/
lemma clock_bind {f : String → Action (Database I reading) α}
    (hf : ∀ now, Achieves base owner mayFail (f now) g post) :
    Achieves base owner mayFail (Action.engine Engine.clock >>= f) g post :=
  fun looks => hf (base.engine.clock looks) (looks + 1)

/-- A statement that the engine reads is run on the graph of the transaction, or refused. -/
lemma run {t : ActiveTransaction} (ht : base.active.lookup owner = some t) {s : Statement}
    (hreads : reading s.query = some s) {post : List Row → Graph → Prop}
    (hfail : s.run I g = none → mayFail)
    (h : ∀ st, s.run I g = some st → post ((st.answers.getD []).map (·.row)) st.graph) :
    Achieves base owner mayFail (Handle.run ⟨owner⟩ s.query) g post := by
  intro looks
  have hactive : activeOf owner owner (base.within g looks) =
      (.ok (some t), base.within g looks) := by
    rw [← ht]
    rfl
  have hanswer : Database.answer I reading s.query g =
      match s.run I g with
      | none => (.error Database.refusal, g)
      | some st => (.ok ((st.answers.getD []).map (·.row)), st.graph) := by
    rw [Database.answer, hreads, Option.bind_some]
  rw [Handle.run, runIn, Action.bind_apply_ok hactive]
  dsimp only
  rw [Action.bind_apply_ok (Action.observed_apply _ owner _)]
  have hrun : Engine.run t.transaction s.query (base.within g looks).engine =
      ((Database.answer I reading s.query g).1,
        (base.within (Database.answer I reading s.query g).2 looks).engine) := rfl
  rw [hrun, hanswer]
  cases hs : s.run I g with
  | none => exact ⟨.error Database.refusal, g, looks, rfl, hfail hs, rfl⟩
  | some st => exact ⟨.ok _, st.graph, looks, rfl, h st hs⟩

/-- What follows a statement goes on from its graph and its rows. -/
lemma run_bind {t : ActiveTransaction} (ht : base.active.lookup owner = some t) {s : Statement}
    (hreads : reading s.query = some s) {f : List Row → Action (Database I reading) α}
    (hfail : s.run I g = none → mayFail)
    (hf : ∀ st, s.run I g = some st →
      Achieves base owner mayFail (f ((st.answers.getD []).map (·.row))) st.graph post) :
    Achieves base owner mayFail (Handle.run ⟨owner⟩ s.query >>= f) g post := by
  have hrun : Achieves base owner mayFail (Handle.run ⟨owner⟩ s.query) g fun rows g' =>
      ∃ st, s.run I g = some st ∧ (st.answers.getD []).map (·.row) = rows ∧ st.graph = g' :=
    run ht hreads hfail fun st hst => ⟨st, hst, rfl, rfl⟩
  refine hrun.bind ?_
  rintro _ _ ⟨st, hst, rfl, rfl⟩
  exact hf st hst

/-- Statements that the engine reads are run one after the other. -/
lemma runAll {t : ActiveTransaction} (ht : base.active.lookup owner = some t)
    {statements : List Statement} (hreads : ∀ s ∈ statements, reading s.query = some s)
    {post : Graph → Prop} (hfail : playAll I statements g = none → mayFail)
    (h : ∀ g', playAll I statements g = some g' → post g') :
    Achieves base owner mayFail (Client.runAll ⟨owner⟩ statements) g fun _ g' => post g' := by
  induction statements generalizing g with
  | nil => exact .pure (h g rfl)
  | cons s rest ih =>
      rw [Client.runAll]
      refine run_bind ht (hreads s List.mem_cons_self) (fun hs => hfail (by rw [playAll, hs]; rfl))
        fun st hs => ?_
      have hplay := Cypher.playAll_cons hs rest
      exact (ih (fun s hs => hreads s (List.mem_cons_of_mem _ hs))
        (fun hnone => hfail (hplay.trans hnone))
        fun g' hg' => h g' (hplay.trans hg')).bind fun _ _ hpost => .pure hpost

/-- What follows statements that are made and read goes on from their graph. -/
lemma runMade {t : ActiveTransaction} (ht : base.active.lookup owner = some t)
    {made : Except Error (List Statement)} {f : List Row → Action (Database I reading) α}
    (hmade : ∀ e, made = .error e → mayFail ∧ e.isRetryable = false)
    (hreads : ∀ ss, made = .ok ss → ∀ s ∈ ss, reading s.query = some s)
    (hplay : ∀ ss, made = .ok ss → playAll I ss g = none → mayFail)
    (hf : ∀ ss g', made = .ok ss → playAll I ss g = some g' →
      ∀ rows, Achieves base owner mayFail (f rows) g' post) :
    Achieves base owner mayFail
      (do let statements ← Action.ofExcept made
          let rows ← Client.runAll ⟨owner⟩ statements
          f rows) g post := by
  refine ofExcept_bind hmade fun ss hss => ?_
  have hrun : Achieves base owner mayFail (Client.runAll ⟨owner⟩ ss) g fun _ g' =>
      playAll I ss g = some g' :=
    runAll ht (hreads ss hss) (hplay ss hss) fun _ hg' => hg'
  exact hrun.bind fun rows g' hg' => hf ss g' hss hg' rows

end Achieves

/-! ### Units of work -/

section Units

variable {c : Client (Database I reading)}

/-- An idle client hands out a session, and no graph is changed by that. -/
lemma Idle.acquire (h : c.Idle g) (caller : Owner) :
    ∃ (session : SessionId) (p : Pool),
      Client.acquire caller c = (.ok ⟨session, c.monitor.generation⟩,
        { c with monitor := { c.monitor with pool := some p } }) ∧ p.closed = false := by
  obtain ⟨p, hp, hopen, hpermits⟩ := h.pool
  have hensure : ensurePool caller c = (.ok (.ok p), c) := by
    rw [ensurePool, Action.bind_apply_ok (Action.monitor_apply caller c), hp]
    rfl
  have hpool : ∃ session q, Pool.acquire p c.engine = ((.session session, q), c.engine) ∧
      q.closed = false := by
    rw [Pool.acquire, hopen, Pool.reserve?, if_neg hpermits]
    dsimp only
    rw [if_neg Bool.false_ne_true, Pool.takeIdle?]
    cases p.idle with
    | nil =>
        exact ⟨0, ({ p with permits := p.permits - 1, idle := [] } : Pool).adopt, rfl, hopen⟩
    | cons session rest =>
        exact ⟨session, { p with permits := p.permits - 1, idle := rest }, rfl, hopen⟩
  obtain ⟨session, q, hacquire, hq⟩ := hpool
  refine ⟨session, q, ?_, hq⟩
  rw [Client.acquire, checkOut, Action.bind_apply, Action.bind_apply_ok hensure]
  dsimp only
  rw [Action.bind_apply_ok (Action.engine_apply _ caller c), hacquire]
  rfl

/-- An idle client that begins a transaction is inside it, with the stored graph. -/
lemma Idle.openFor (h : c.Idle g) (owner : Owner) (serial : ℕ) (mode : AccessMode) (k total : ℕ)
    (caller : Owner) :
    ∃ (t : ActiveTransaction) (base : Client (Database I reading)) (p : Pool),
      Client.openFor owner serial mode k total caller c = (.ok (), base.within g c.engine.looks) ∧
        base.active = [(owner, t)] ∧ base.engine.graph = g ∧ t.rollbackOnly = false ∧
        base.monitor.pool = some p ∧ p.closed = false ∧
        t.lease.generation = base.monitor.generation := by
  obtain ⟨session, p, hacquire, hopen⟩ := h.acquire caller
  set t : ActiveTransaction :=
    { serial, transaction := 0, lease := ⟨session, c.monitor.generation⟩, depth := 1, mode
      attempt := k, maxAttempts := total, rollbackOnly := false } with ht
  refine ⟨t, { c with
    monitor := { c.monitor with pool := some p }, active := [(owner, t)] }, p, ?_, rfl, h.graph, rfl,
    rfl, hopen, rfl⟩
  have hstored : c.engine.graph = g := h.graph
  subst hstored
  set started : Client (Database I reading) := { c with
    engine := { c.engine with working := some c.engine.graph }
    monitor := { c.monitor with pool := some p } } with hstarted
  have hstart : Action.observed (Engine.start session mode) caller
      { c with monitor := { c.monitor with pool := some p } } = (.ok (.ok 0), started) := rfl
  have hnone : activeOf owner caller started = (.ok none, started) := by
    change (Except.ok (c.active.lookup owner), started) = _
    rw [h.active]
    rfl
  rw [Client.openFor, Action.bind_apply_ok hacquire, Action.bind_apply_ok hstart]
  dsimp only
  rw [Action.bind_apply_ok hnone]
  dsimp only
  rw [Action.modify_apply, hstarted, h.active]
  rfl

/-- The transaction of an owner ends, and its session is put back. -/
lemma ended_idle {base : Client (Database I reading)} {owner : Owner} {t : ActiveTransaction}
    {p : Pool} (hactive : base.active = [(owner, t)]) (hpool : base.monitor.pool = some p)
    (hopen : p.closed = false) (hgeneration : t.lease.generation = base.monitor.generation)
    (g' : Graph) (looks : ℕ) (caller : Owner) :
    (∃ c', finishRollback owner caller (base.within g' looks) = (.ok (), c') ∧
      c'.Idle base.engine.graph) ∧
    (t.rollbackOnly = false → ∃ c', finishCommit owner caller (base.within g' looks) =
      (.ok (), c') ∧ c'.Idle g') := by
  have htake : Client.takeActive owner caller (base.within g' looks) =
      (.ok (some t), { base.within g' looks with active := [] }) := by
    change (Except.ok (base.active.lookup owner), { base.within g' looks with
      active := base.active.filter fun p => p.1 ≠ owner }) = _
    rw [hactive]
    simp
  have hputBack : ∃ q, (base.monitor.putBack t.lease).1.pool = some q ∧ q.closed = false ∧
      q.permits ≠ 0 := by
    rw [Monitor.putBack, hpool]
    dsimp only
    rw [if_pos hgeneration, Pool.putBack, hopen]
    exact ⟨_, rfl, hopen, Nat.succ_ne_zero _⟩
  let after (stored : Graph) : Client (Database I reading) :=
    { base with
      active := []
      engine := { base.engine with graph := stored, working := none, looks := looks }
      monitor := (base.monitor.putBack t.lease).1
      returned := base.returned ++ (base.monitor.putBack t.lease).2.toList }
  refine ⟨⟨after base.engine.graph, ?_, rfl, rfl, hputBack⟩,
    fun hdoomed => ⟨after g', ?_, rfl, rfl, hputBack⟩⟩
  · rw [finishRollback, Action.bind_apply_ok htake]
    rfl
  · rw [finishCommit, Action.bind_apply_ok htake]
    dsimp only
    rw [hdoomed, if_neg Bool.false_ne_true]
    rfl

/-- One attempt at a unit of work. -/
lemma attemptUnit_idle (h : c.Idle g) (mode : AccessMode) {work : Handle → Action (Database I reading) α}
    (hwork : ∀ base owner t, base.active.lookup owner = some t →
      Achieves base owner mayFail (work ⟨owner⟩) g post) (k : ℕ) (caller : Owner) :
    ∃ (r : Except Error α) (c' : Client (Database I reading)),
      attemptUnit mode work k caller c = (r.mapError .failed, c') ∧
        match r with
        | .ok x => ∃ g', post x g' ∧ c'.Idle g'
        | .error e => mayFail ∧ e.isRetryable = false ∧ c'.Idle g := by
  have hidle : ({ c with nextSerial := c.nextSerial + 1 } : Client (Database I reading)).Idle g :=
    ⟨h.graph, h.active, h.pool⟩
  obtain ⟨t, base, p, hopen, hactive, hgraph, hdoomed, hpool, hclosed, hgeneration⟩ :=
    hidle.openFor (.unit c.nextSerial) c.nextSerial mode k c.policy.attempts caller
  have hlookup : base.active.lookup (.unit c.nextSerial) = some t := by
    rw [hactive]
    simp
  obtain ⟨r, g', looks, hrun, hr⟩ := hwork base (.unit c.nextSerial) t hlookup c.engine.looks
  have hattempted : Action.attempted (Action.onBehalfOf (.unit c.nextSerial)
      (work ⟨.unit c.nextSerial⟩)) caller (base.within g c.engine.looks) =
        (.ok r, base.within g' looks) :=
    Action.attempted_apply_ok hrun
  obtain ⟨⟨rolled, hrollback, hrolled⟩, hcommit⟩ :=
    ended_idle hactive hpool hclosed hgeneration g' looks caller
  rw [attemptUnit_eq, Action.bind_apply_ok hopen, Action.bind_apply_ok hattempted]
  cases r with
  | ok x =>
      obtain ⟨done, hcommit, hdone⟩ := hcommit hdoomed
      refine ⟨.ok x, done, ?_, g', hr, hdone⟩
      rw [conclude, Action.bind_apply_ok hcommit]
      rfl
  | error e =>
      have hattempted : Action.attempted (finishRollback (.unit c.nextSerial)) caller
          (base.within g' looks) = (.ok (.ok ()), rolled) := Action.attempted_apply_ok hrollback
      refine ⟨.error e, rolled, ?_, hr.1, hr.2, hgraph ▸ hrolled⟩
      rw [conclude, Action.bind_apply_ok hattempted]
      rfl

/-- **Writes are atomic**: a unit of work that succeeds leaves the graph that it made, and one that
fails leaves the graph that was stored. -/
theorem write_spec (h : c.Idle g) {work : Handle → Action (Database I reading) α}
    (hwork : ∀ base owner t, base.active.lookup owner = some t →
      Achieves base owner mayFail (work ⟨owner⟩) g post) (caller : Owner) :
    ∃ (r : Except Error α) (c' : Client (Database I reading)),
      write work caller c = (r.mapError .failed, c') ∧
        match r with
        | .ok x => ∃ g', post x g' ∧ c'.Idle g'
        | .error e => mayFail ∧ e.isRetryable = false ∧ c'.Idle g := by
  have hdepth : depthOf caller caller c = (.ok 0, c) := by
    change (Except.ok (((c.active.lookup caller).map (·.depth)).getD 0), c) = _
    rw [h.active]
    rfl
  rw [write, managed_outside hdepth, retrying_eq]
  obtain ⟨r, c', hattempt, hr⟩ := attemptUnit_idle h .write hwork 1 caller
  refine ⟨r, c', ?_, hr⟩
  cases c.policy.attempts - 1 with
  | zero => exact hattempt
  | succ more =>
      rw [retryFrom, Action.bind_apply_ok (Action.attempted_apply_ok hattempt)]
      cases r with
      | ok x => rfl
      | error e =>
          dsimp only
          rw [hr.2.1, if_neg Bool.false_ne_true]
          rfl

end Units

end Client

end GraphMapper
