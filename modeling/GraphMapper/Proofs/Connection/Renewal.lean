import GraphMapper.Proofs.Connection.Staleness

/-!
Callers that look after one stale connection at the same time.

A caller of `reconnectIfStale` looks at the mark first and takes the lock of the pool later, without
another look.

* `Client.reopen`, `Client.reconnect_eq`: the part of a reconnect that comes after the old pool is
  closed;
* `Renewal.Stage`, `Renewal.Deed`, `Renewal.World`: how far the callers are and what they did;
* `Renewal.Step`, `Renewal.Path`: their steps, one at a time in any order;
  `Path.reconnectIfStale`: a caller that is left alone does what the whole call does;
  `exists_step`: they do not wait for each other without end;
* `Renewal.early`: the callers that look before the first new pool is opened;
* `Sound`, `Sound.step`, `Path.sound`: the invariant of all runs;
* `Renewed`, `renewed_by_early` (**as many reconnects as early looks**): one staleness brings one
  reconnect if just one caller looks early; `reconnected_twice`: two that look at the same time both
  reconnect.
-/

namespace GraphMapper

variable {σ ι : Type}

/-! ### A reconnect in two parts -/

namespace Client

variable [Engine σ]

/-- Opens a pool with the current settings in place of the one that was closed. -/
def reopen : Action σ Unit := do
  let m ← Action.monitor
  match ← Action.engine (Pool.open m.settings) with
  | .error e => Action.fail e
  | .ok pool =>
    Action.modifyMonitor fun m =>
      { m.install pool with stale := false, reconnects := m.reconnects + 1 }

lemma reconnect_eq : (reconnect : Action σ Unit) = (do disconnect; reopen) := rfl

variable {caller : Owner} {c after : Client σ}

lemma disconnect_monitor (h : disconnect caller c = (.ok (), after)) :
    after.monitor = { c.monitor with pool := none } := by
  rw [disconnect, Action.bind_apply_ok (Action.monitor_apply caller c)] at h
  cases hpool : c.monitor.pool with
  | none =>
      rw [hpool] at h
      obtain rfl : c = after := congrArg Prod.snd h
      rw [← hpool]
  | some pool =>
      rw [hpool] at h
      have hafter : _ = after := congrArg Prod.snd h
      rw [← hafter]
      rfl

lemma reopen_apply (caller : Owner) (c : Client σ) :
    reopen caller c =
      match Pool.open c.monitor.settings c.engine with
      | (.error e, s) => (.error (.failed e), { c with engine := s })
      | (.ok pool, s) => (.ok (),
          { c with
            engine := s
            monitor := { c.monitor.install pool with
              stale := false, reconnects := c.monitor.reconnects + 1 } }) := by
  rw [reopen, Action.bind_apply_ok (Action.monitor_apply caller c),
    Action.bind_apply_ok (Action.engine_apply _ caller c)]
  rcases Pool.open c.monitor.settings c.engine with ⟨e | pool, s⟩ <;> rfl

lemma reopen_ok (h : reopen caller c = (.ok (), after)) :
    ∃ pool, after.monitor =
      { c.monitor.install pool with stale := false, reconnects := c.monitor.reconnects + 1 } := by
  rw [reopen_apply] at h
  rcases hopen : Pool.open c.monitor.settings c.engine with ⟨e | pool, s⟩
  · rw [hopen] at h
    cases congrArg Prod.fst h
  · rw [hopen] at h
    have hafter : _ = after := congrArg Prod.snd h
    exact ⟨pool, by rw [← hafter]⟩

lemma reopen_error {halt : Halt} (h : reopen caller c = (.error halt, after)) :
    after.monitor = c.monitor := by
  rw [reopen_apply] at h
  rcases hopen : Pool.open c.monitor.settings c.engine with ⟨e | pool, s⟩
  · rw [hopen] at h
    have hafter : _ = after := congrArg Prod.snd h
    rw [← hafter]
  · rw [hopen] at h
    cases congrArg Prod.fst h

end Client

/-- The number of the pool that is there. -/
def Monitor.current? (m : Monitor) : Option ℕ :=
  m.pool.map fun _ => m.generation

namespace Renewal

/-! ### Runs -/

/-- How far a caller is with looking after the connection. -/
inductive Stage where
  | outside
  /-- It has found the mark and waits for the lock of the pool. -/
  | marked
  /-- It holds the lock, and the pool that was there is closed. -/
  | closed
  | done (renewed : Bool)
  | failed
deriving DecidableEq, Repr

/-- What a caller does to the connection.  Pools are known by their numbers. -/
inductive Deed where
  | looked
  | closed (pool : Option ℕ)
  | opened (pool : ℕ)
  | failed
deriving DecidableEq, Repr

/-- What the callers did, the last first. -/
abbrev Trace (ι : Type) := List (ι × Deed)

/-- A client, with how far each of its callers is. -/
structure World (ι σ : Type) where
  client : Client σ
  stage : ι → Stage

/-- The health of the connection. -/
def World.monitor (S : World ι σ) : Monitor :=
  S.client.monitor

variable [DecidableEq ι]

/-- One caller is further on, and the client has changed. -/
def World.advance (S : World ι σ) (i : ι) (stage : Stage) (after : Client σ) : World ι σ :=
  ⟨after, Function.update S.stage i stage⟩

/-- All callers before they look at the mark. -/
def World.start (c : Client σ) : World ι σ :=
  ⟨c, fun _ => .outside⟩

/-- **The steps of a caller.**  It looks at the mark; if that is set it takes the lock, closes the
pool that is there by then, opens a new one and gives the lock back. -/
inductive Step [Engine σ] (S : World ι σ) (i : ι) : Deed → World ι σ → Prop where
  | rests (hstage : S.stage i = .outside) (hmark : S.monitor.stale = false) :
      Step S i .looked (S.advance i (.done false) S.client)
  | marks (hstage : S.stage i = .outside) (hmark : S.monitor.stale = true) :
      Step S i .looked (S.advance i .marked S.client)
  | closes (caller : Owner) {after : Client σ} (hstage : S.stage i = .marked)
      (hfree : ∀ j, S.stage j ≠ .closed)
      (hplay : Client.disconnect caller S.client = (.ok (), after)) :
      Step S i (.closed S.monitor.current?) (S.advance i .closed after)
  | opens (caller : Owner) {after : Client σ} (hstage : S.stage i = .closed)
      (hplay : Client.reopen caller S.client = (.ok (), after)) :
      Step S i (.opened after.monitor.generation) (S.advance i (.done true) after)
  | fails (caller : Owner) {after : Client σ} {halt : Halt} (hstage : S.stage i = .closed)
      (hplay : Client.reopen caller S.client = (.error halt, after)) :
      Step S i .failed (S.advance i .failed after)

/-- The callers take their steps in any order. -/
inductive Path [Engine σ] (S : World ι σ) : Trace ι → World ι σ → Prop where
  | refl : Path S [] S
  | step {past : Trace ι} {S' S'' : World ι σ} {i : ι} {d : Deed} (h : Path S past S')
      (hstep : Step S' i d S'') : Path S ((i, d) :: past) S''

/-! ### Stages -/

/-- Whether a caller has found the mark. -/
def Stage.found : Stage → Prop
  | .outside | .done false => False
  | .marked | .closed | .done true | .failed => True

/-- Whether a caller has closed a pool. -/
def Stage.hasClosed : Stage → Prop
  | .outside | .marked | .done false => False
  | .closed | .done true | .failed => True

/-- How far a caller is after the whole call. -/
def Stage.after : Except Halt Bool → Stage
  | .ok renewed => .done renewed
  | .error _ => .failed

namespace World

variable {S : World ι σ} {i j : ι} {stage : Stage} {after : Client σ}

@[simp] lemma monitor_advance : (S.advance i stage after).monitor = after.monitor := rfl

lemma stage_advance :
    (S.advance i stage after).stage j = if j = i then stage else S.stage j :=
  Function.update_apply ..

lemma stage_advance_self : (S.advance i stage after).stage i = stage :=
  Function.update_self ..

lemma advance_advance {later : Stage} {c : Client σ} :
    (S.advance i stage c).advance i later after = S.advance i later after := by
  rw [advance, advance, advance, Function.update_idem]

end World

variable [Engine σ]

/-- A caller that nobody interferes with does what the whole call does. -/
lemma Path.reconnectIfStale {S : World ι σ} {i : ι} (hstage : S.stage i = .outside)
    (hfree : ∀ j, S.stage j ≠ .closed) (caller : Owner) :
    ∃ past outcome after, Client.reconnectIfStale caller S.client = (outcome, after) ∧
      Path S past (S.advance i (.after outcome) after) ∧ ∀ deed ∈ past, deed.1 = i := by
  rw [Client.reconnectIfStale, Action.bind_apply_ok (Action.monitor_apply caller S.client)]
  split_ifs with hmark
  · have hmarks : Path S [(i, .looked)] (S.advance i .marked S.client) :=
      .step .refl (.marks hstage hmark)
    obtain ⟨mid, hclose, -⟩ := Client.disconnect_noted caller S.client
    have hcloses := hmarks.step (.closes _ World.stage_advance_self (fun j => by
      rw [World.stage_advance]
      split_ifs
      · simp
      · exact hfree j) hclose)
    rw [World.advance_advance] at hcloses
    have hreconnect : Client.reconnect caller S.client = Client.reopen caller mid := by
      rw [Client.reconnect_eq, Action.bind_apply_ok hclose]
    rcases hopen : Client.reopen caller mid with ⟨halt | _, after⟩
    · have hfails := hcloses.step (.fails _ World.stage_advance_self hopen)
      rw [World.advance_advance] at hfails
      exact ⟨_, _, _, Action.bind_apply_error (hreconnect.trans hopen), hfails, by simp⟩
    · have hopens := hcloses.step (.opens _ World.stage_advance_self hopen)
      rw [World.advance_advance] at hopens
      exact ⟨_, _, _, Action.bind_apply_ok (hreconnect.trans hopen), hopens, by simp⟩
  · have hrests : Path S [(i, .looked)] (S.advance i (.done false) S.client) :=
      .step .refl (.rests hstage ((Bool.not_eq_true _).mp hmark))
    exact ⟨_, _, _, rfl, hrests, by simp⟩

/-- As long as some caller has not ended its call, one of them can take a step. -/
theorem exists_step {S : World ι σ} {i : ι} (hleft : ∀ renewed, S.stage i ≠ .done renewed)
    (hfailed : S.stage i ≠ .failed) : ∃ j d S', Step S j d S' := by
  by_cases hfree : ∀ j, S.stage j ≠ .closed
  · cases hstage : S.stage i with
    | outside =>
        cases hmark : S.monitor.stale with
        | false => exact ⟨i, _, _, .rests hstage hmark⟩
        | true => exact ⟨i, _, _, .marks hstage hmark⟩
    | marked =>
        obtain ⟨mid, hclose, -⟩ := Client.disconnect_noted (.task none) S.client
        exact ⟨i, _, _, .closes _ hstage hfree hclose⟩
    | closed => exact absurd hstage (hfree i)
    | done renewed => exact absurd hstage (hleft renewed)
    | failed => exact absurd hstage hfailed
  · -- the lock is held, and its holder can go on
    obtain ⟨j, hj⟩ := not_forall_not.mp hfree
    rcases hopen : Client.reopen (.task none) S.client with ⟨halt | _, after⟩
    · exact ⟨j, _, _, .fails _ hj hopen⟩
    · exact ⟨j, _, _, .opens _ hj hopen⟩

/-! ### Traces -/

/-- The callers that opened a pool. -/
def openers : Trace ι → Finset ι
  | [] => ∅
  | (i, .opened _) :: past => insert i (openers past)
  | (_, .looked) :: past | (_, .closed _) :: past | (_, .failed) :: past => openers past

/-- The callers that looked at the mark before the first pool was opened. -/
def early : Trace ι → Finset ι
  | [] => ∅
  | (i, .looked) :: past => if openers past = ∅ then insert i (early past) else early past
  | (_, .opened _) :: past | (_, .closed _) :: past | (_, .failed) :: past => early past

/-! ### The invariant -/

/-- The mark and the numbers of a connection are told by the pools that were opened, from a monitor
`start` that is marked. -/
structure Counted (start : Monitor) (past : Trace ι) (m : Monitor) : Prop where
  stale : m.stale = true ↔ openers past = ∅
  reconnects : m.reconnects = start.reconnects + (openers past).card
  generation : m.generation = start.generation + (openers past).card

/-- How far a caller is is told by what it did. -/
structure Told (past : Trace ι) (i : ι) (stage : Stage) : Prop where
  looked : i ∈ early past ↔ stage.found
  rested : stage = .done false → openers past ≠ ∅
  closed : ∀ pool, (i, .closed pool) ∈ past → stage.hasClosed
  opened : i ∈ openers past ↔ stage = .done true

/-- The pools that are closed after the first was opened are those that callers opened. -/
structure Succeeds (start : Monitor) (past : Trace ι) (S : World ι σ) : Prop where
  /-- While nobody holds the lock the pool that was opened last is there. -/
  held : (∀ i, S.stage i ≠ .failed) → (∀ i, S.stage i ≠ .closed) → openers past ≠ ∅ →
    S.monitor.pool.isSome
  newest : openers past ≠ ∅ → ∃ i, (i, .opened S.monitor.generation) ∈ past
  foreign : ∀ i pool, (i, .closed (some pool)) ∈ past → start.generation < pool →
    ∃ j, j ≠ i ∧ (j, .opened pool) ∈ past
  second : (∀ i, S.stage i ≠ .failed) → openers past ≠ ∅ →
    (∃ i, S.stage i = .closed) ∨ 1 < (openers past).card →
    ∃ i pool, (i, .closed (some pool)) ∈ past ∧ start.generation < pool

/-- **The invariant of runs** from a client that is marked. -/
structure Sound (start : Monitor) (past : Trace ι) (S : World ι σ) : Prop where
  counted : Counted start past S.monitor
  told : ∀ i, Told past i (S.stage i)
  /-- One caller holds the lock. -/
  alone : ∀ i j, S.stage i = .closed → S.stage j = .closed → i = j
  succeeds : Succeeds start past S

variable {start : Monitor} {past : Trace ι} {S S' : World ι σ} {i j : ι} {d : Deed}

section

omit [Engine σ]

lemma mem_openers : i ∈ openers past ↔ ∃ pool, (i, .opened pool) ∈ past := by
  induction past with
  | nil => simp [openers]
  | cons deed rest ih =>
      obtain ⟨j, d⟩ := deed
      cases d <;> simp [openers, ih, exists_or]

/-- What others do says nothing of a caller. -/
lemma Told.other {stage : Stage} (h : Told past j stage) (hne : j ≠ i) (d : Deed) :
    Told ((i, d) :: past) j stage := by
  obtain ⟨hlooked, hrested, hclosed, hopened⟩ := h
  cases d with
  | looked =>
      refine ⟨?_, hrested, fun pool hpool => hclosed pool (by simpa using hpool), hopened⟩
      rw [early]
      split_ifs
      · rwa [Finset.mem_insert, or_iff_right hne]
      · exact hlooked
  | closed pool =>
      exact ⟨hlooked, hrested, fun p hp => hclosed p (by simpa [hne] using hp), hopened⟩
  | opened pool =>
      refine ⟨hlooked, fun _ => Finset.insert_ne_empty i _,
        fun p hp => hclosed p (by simpa using hp), ?_⟩
      rwa [openers, Finset.mem_insert, or_iff_right hne]
  | failed => exact ⟨hlooked, hrested, fun p hp => hclosed p (by simpa using hp), hopened⟩

/-- What was opened last is told by the deeds, whatever is done besides. -/
lemma Succeeds.newest_cons (h : Succeeds start past S) (hsome : openers past ≠ ∅) (deed : ι × Deed) :
    ∃ j, (j, .opened S.monitor.generation) ∈ deed :: past := by
  obtain ⟨j, hj⟩ := h.newest hsome
  exact ⟨j, List.mem_cons_of_mem _ hj⟩

lemma Succeeds.foreign_cons (h : Succeeds start past S) {pool : ℕ}
    (hj : (j, .closed (some pool)) ∈ past) (hlt : start.generation < pool) (deed : ι × Deed) :
    ∃ k, k ≠ j ∧ (k, .opened pool) ∈ deed :: past := by
  obtain ⟨k, hne, hk⟩ := h.foreign j pool hj hlt
  exact ⟨k, hne, List.mem_cons_of_mem _ hk⟩

/-- Once a caller has failed, nothing is said of the pool that is there. -/
lemma Succeeds.fail (h : Succeeds start past S) {after : Client σ}
    (hmonitor : after.monitor = S.monitor) :
    Succeeds start ((i, .failed) :: past) (S.advance i .failed after) where
  held hlast _ _ := absurd World.stage_advance_self (hlast i)
  newest hsome := by
    rw [World.monitor_advance, hmonitor]
    exact h.newest_cons hsome _
  foreign j pool hj hlt := h.foreign_cons (by simpa using hj) hlt _
  second hlast _ _ := absurd World.stage_advance_self (hlast i)

end

/-- What a caller does says how far it is. -/
lemma Told.step (h : Told past i (S.stage i)) (hmark : S.monitor.stale = true ↔ openers past = ∅)
    (hstep : Step S i d S') : Told ((i, d) :: past) i (S'.stage i) := by
  obtain ⟨hlooked, hrested, hclosed, hopened⟩ := h
  cases hstep with
  | rests hstage hstale =>
      have hsome : openers past ≠ ∅ := by simp [← hmark, hstale]
      rw [hstage] at hlooked hclosed hopened
      rw [World.stage_advance_self]
      refine ⟨?_, fun _ => hsome, fun pool hpool => hclosed pool (by simpa using hpool), ?_⟩
      · rwa [early, if_neg hsome]
      · simpa [openers] using hopened
  | marks hstage hstale =>
      have hnone : openers past = ∅ := hmark.mp hstale
      rw [hstage] at hclosed hopened
      rw [World.stage_advance_self]
      refine ⟨?_, nofun, fun pool hpool => hclosed pool (by simpa using hpool), ?_⟩
      · simp [early, hnone, Stage.found]
      · simpa [openers] using hopened
  | closes _ hstage hfree hplay =>
      rw [hstage] at hlooked hopened
      rw [World.stage_advance_self]
      exact ⟨hlooked, nofun, fun _ _ => trivial, by simpa [openers] using hopened⟩
  | opens _ hstage hplay =>
      rw [hstage] at hlooked
      rw [World.stage_advance_self]
      exact ⟨hlooked, nofun, fun _ _ => trivial, by simp [openers]⟩
  | fails _ hstage hplay =>
      rw [hstage] at hlooked hopened
      rw [World.stage_advance_self]
      exact ⟨hlooked, nofun, fun _ _ => trivial, by simpa [openers] using hopened⟩

lemma Step.stage_of_ne (hstep : Step S i d S') (hne : j ≠ i) : S'.stage j = S.stage j := by
  cases hstep <;> exact Function.update_of_ne hne ..

lemma Counted.step (h : Counted start past S.monitor) (htold : Told past i (S.stage i))
    (hstep : Step S i d S') : Counted start ((i, d) :: past) S'.monitor := by
  cases hstep with
  | rests => exact ⟨h.stale, h.reconnects, h.generation⟩
  | marks => exact ⟨h.stale, h.reconnects, h.generation⟩
  | closes _ hstage hfree hplay =>
      rw [World.monitor_advance, Client.disconnect_monitor hplay]
      exact ⟨h.stale, h.reconnects, h.generation⟩
  | opens _ hstage hplay =>
      obtain ⟨pool, hm⟩ := Client.reopen_ok hplay
      have hnew : i ∉ openers past := by simp [htold.opened, hstage]
      have hreconnects := h.reconnects
      have hgeneration := h.generation
      rw [World.monitor_advance, hm]
      refine ⟨by simp [openers], ?_, ?_⟩
      · rw [openers, Finset.card_insert_of_notMem hnew]
        change S.monitor.reconnects + 1 = _
        omega
      · rw [openers, Finset.card_insert_of_notMem hnew]
        change S.monitor.generation + 1 = _
        omega
  | fails _ hstage hplay =>
      rw [World.monitor_advance, Client.reopen_error hplay]
      exact ⟨h.stale, h.reconnects, h.generation⟩

/-- Whoever has the lock had it before or has found it free. -/
lemma Step.had_lock (hstep : Step S i d S') (hj : S'.stage j = .closed) :
    S.stage j = .closed ∨ j = i ∧ ∀ k, S.stage k ≠ .closed := by
  by_cases hne : j = i
  · subst hne
    cases hstep with
    | closes _ hstage hfree hplay => exact .inr ⟨rfl, hfree⟩
    | _ => simp [World.stage_advance_self] at hj
  · rw [hstep.stage_of_ne hne] at hj
    exact .inl hj

lemma alone_step (h : ∀ i j, S.stage i = .closed → S.stage j = .closed → i = j)
    (hstep : Step S i d S') (j k : ι) (hj : S'.stage j = .closed) (hk : S'.stage k = .closed) :
    j = k := by
  rcases hstep.had_lock hj with hold | ⟨rfl, hfree⟩
  · rcases hstep.had_lock hk with hold' | ⟨-, hfree⟩
    · exact h j k hold hold'
    · exact absurd hold (hfree j)
  · rcases hstep.had_lock hk with hold | ⟨rfl, -⟩
    · exact absurd hold (hfree k)
    · rfl

/-- Nobody leaves a failure behind. -/
lemma Step.failed (hstep : Step S i d S') (hj : S.stage j = .failed) : S'.stage j = .failed := by
  by_cases hne : j = i
  · subst hne
    cases hstep <;> simp_all
  · rwa [hstep.stage_of_ne hne]

/-- A look changes nothing about the pools. -/
lemma Succeeds.look (h : Succeeds start past S) (hstage : S.stage i = .outside) {stage : Stage}
    (hstep : Step S i .looked (S.advance i stage S.client)) (hnew : stage ≠ .closed) :
    Succeeds start ((i, .looked) :: past) (S.advance i stage S.client) := by
  have hclosed (j : ι) : (S.advance i stage S.client).stage j = .closed ↔ S.stage j = .closed := by
    rw [World.stage_advance]
    split_ifs with hj
    · simp [hj, hstage, hnew]
    · rfl
  constructor
  · intro hfailed hfree hsome
    refine h.held (fun j hj => hfailed j (hstep.failed hj)) (fun j hj => ?_) hsome
    exact hfree j ((hclosed j).mpr hj)
  · exact fun hsome => h.newest_cons hsome _
  · exact fun j pool hj hlt => h.foreign_cons (by simpa using hj) hlt _
  · intro hfailed hsome hmore
    simp only [hclosed] at hmore
    obtain ⟨j, pool, hj, hlt⟩ := h.second (fun j hj => hfailed j (hstep.failed hj)) hsome hmore
    exact ⟨j, pool, List.mem_cons_of_mem _ hj, hlt⟩

/-- The pool that is closed was opened by another caller, once one was opened. -/
lemma Succeeds.close (h : Succeeds start past S)
    (hlater : start.generation < S.monitor.generation ↔ openers past ≠ ∅)
    (htold : Told past i (S.stage i)) (hstage : S.stage i = .marked)
    (hfree : ∀ j, S.stage j ≠ .closed) {after : Client σ}
    (hmonitor : after.monitor = { S.monitor with pool := none })
    (hstep : Step S i (.closed S.monitor.current?) (S.advance i .closed after)) :
    Succeeds start ((i, .closed S.monitor.current?) :: past) (S.advance i .closed after) := by
  constructor
  · exact fun _ hfree' _ => absurd World.stage_advance_self (hfree' i)
  · intro hsome
    rw [World.monitor_advance, hmonitor]
    exact h.newest_cons hsome _
  · intro j pool hj hlt
    rcases List.mem_cons.mp hj with hj | hj
    · obtain ⟨rfl, hpool⟩ := Prod.mk.inj hj
      obtain ⟨_, -, rfl⟩ := Option.map_eq_some_iff.mp (Deed.closed.inj hpool).symm
      -- it has not opened a pool itself, and the pool that is there was opened by a caller
      obtain ⟨k, hk⟩ := h.newest (hlater.mp hlt)
      refine ⟨k, fun hkj => ?_, List.mem_cons_of_mem _ hk⟩
      have hopened : j ∈ openers past := mem_openers.mpr ⟨_, hkj ▸ hk⟩
      simp [htold.opened, hstage] at hopened
    · exact h.foreign_cons hj hlt _
  · intro hlast hsome _
    have hpool := h.held (fun j hj => hlast j (hstep.failed hj)) hfree hsome
    refine ⟨i, S.monitor.generation, ?_, hlater.mpr hsome⟩
    obtain ⟨pool, hpool⟩ := Option.isSome_iff_exists.mp hpool
    rw [Monitor.current?, hpool]
    exact List.mem_cons_self

/-- A second pool is opened only after the first was closed. -/
lemma Succeeds.open (h : Succeeds start past S)
    (halone : ∀ j, S.stage i = .closed → S.stage j = .closed → i = j)
    (hstage : S.stage i = .closed) {after : Client σ} (hpool : after.monitor.pool.isSome)
    (hstep : Step S i (.opened after.monitor.generation) (S.advance i (.done true) after)) :
    Succeeds start ((i, .opened after.monitor.generation) :: past)
      (S.advance i (.done true) after) := by
  constructor
  · intro _ _ _
    rwa [World.monitor_advance]
  · exact fun _ => ⟨i, List.mem_cons_self⟩
  · exact fun j pool hj hlt => h.foreign_cons (by simpa using hj) hlt _
  · intro hlast _ hmore
    have hsome : openers past ≠ ∅ := by
      intro hnone
      rcases hmore with ⟨j, hj⟩ | hlt
      · rw [World.stage_advance] at hj
        split_ifs at hj with hne
        exact hne (halone j hstage hj).symm
      · simp [openers, hnone] at hlt
    obtain ⟨j, pool, hj, hlt⟩ :=
      h.second (fun j hj => hlast j (hstep.failed hj)) hsome (.inl ⟨i, hstage⟩)
    exact ⟨j, pool, List.mem_cons_of_mem _ hj, hlt⟩

lemma Succeeds.step (h : Succeeds start past S) (hcounted : Counted start past S.monitor)
    (htold : Told past i (S.stage i))
    (halone : ∀ j, S.stage i = .closed → S.stage j = .closed → i = j)
    (hstep : Step S i d S') : Succeeds start ((i, d) :: past) S' := by
  have hlater : start.generation < S.monitor.generation ↔ openers past ≠ ∅ := by
    rw [hcounted.generation, ne_eq, ← Finset.card_eq_zero]
    omega
  cases hstep with
  | rests hstage hmark => exact h.look hstage (.rests hstage hmark) (by simp)
  | marks hstage hmark => exact h.look hstage (.marks hstage hmark) (by simp)
  | closes caller hstage hfree hplay =>
      exact h.close hlater htold hstage hfree (Client.disconnect_monitor hplay)
        (.closes caller hstage hfree hplay)
  | opens caller hstage hplay =>
      obtain ⟨pool, hm⟩ := Client.reopen_ok hplay
      exact h.open halone hstage (hm ▸ rfl) (.opens caller hstage hplay)
  | fails _ hstage hplay => exact h.fail (Client.reopen_error hplay)

/-- **Every step keeps the invariant.** -/
lemma Sound.step (h : Sound start past S) (hstep : Step S i d S') :
    Sound start ((i, d) :: past) S' where
  counted := h.counted.step (h.told i) hstep
  told j := by
    by_cases hj : j = i
    · rw [hj]
      exact (h.told i).step h.counted.stale hstep
    · rw [hstep.stage_of_ne hj]
      exact (h.told j).other hj d
  alone := alone_step h.alone hstep
  succeeds := h.succeeds.step h.counted (h.told i) (h.alone i) hstep

/-- All runs from a client that is marked keep the invariant. -/
lemma Path.sound {c : Client σ} (hstale : c.monitor.stale = true)
    (h : Path (World.start c) past S) : Sound c.monitor past S := by
  induction h with
  | refl =>
      refine ⟨⟨?_, rfl, rfl⟩, fun i => ⟨?_, nofun, nofun, ?_⟩, nofun, ⟨?_, ?_, nofun, ?_⟩⟩
      · exact iff_of_true hstale rfl
      · simp [early, World.start, Stage.found]
      · simp [openers, World.start]
      · exact fun _ _ hne => absurd rfl hne
      · exact fun hne => absurd rfl hne
      · exact fun _ hne => absurd rfl hne
  | step _ hstep ih => exact ih.step hstep

/-! ### One staleness -/

/-- **One reconnect**: just one caller reconnects, the count of reconnects rises by one, and no pool
that a caller opened is closed by another. -/
structure Once (start : Monitor) (past : Trace ι) (S : World ι σ) : Prop where
  single : ∃! i, S.stage i = .done true
  reconnects : S.monitor.reconnects = start.reconnects + 1
  own : ∀ i j pool, (i, .closed (some pool)) ∈ past → (j, .opened pool) ∈ past → i = j

/-- What comes of one staleness. -/
structure Renewed (start : Monitor) (past : Trace ι) (S : World ι σ) : Prop where
  connected : S.monitor.isConnected
  /-- Just the callers that looked before the first new pool was opened reconnect, and there are
  some. -/
  renewed : ∀ i, S.stage i = .done true ↔ i ∈ early past
  early_pos : 0 < (early past).card
  reconnects : S.monitor.reconnects = start.reconnects + (early past).card
  /-- If there are several of them, one closes the pool of another. -/
  own_iff : (∀ i j pool, (i, .closed (some pool)) ∈ past → (j, .opened pool) ∈ past → i = j) ↔
    (early past).card = 1
  once_iff : Once start past S ↔ (early past).card = 1

section

omit [Engine σ]

variable (hsound : Sound start past S) (hdone : ∀ i, ∃ renewed, S.stage i = .done renewed)

include hsound hdone

/-- When all have ended, those that looked early are those that opened a pool. -/
lemma Sound.early_eq : early past = openers past := by
  ext i
  rw [(hsound.told i).looked, (hsound.told i).opened]
  obtain ⟨_ | _, hi⟩ := hdone i
  · simp [hi, Stage.found]
  · simp [hi, Stage.found]

lemma Sound.openers_ne_empty [Nonempty ι] : openers past ≠ ∅ := by
  obtain ⟨i⟩ := ‹Nonempty ι›
  obtain ⟨_ | _, hi⟩ := hdone i
  · exact (hsound.told i).rested hi
  · exact Finset.ne_empty_of_mem ((hsound.told i).opened.mpr hi)

/-- Whoever closed a pool has opened one. -/
lemma Sound.opened_of_closed {pool : Option ℕ} (hi : (i, .closed pool) ∈ past) :
    i ∈ openers past := by
  have hclosed := (hsound.told i).closed _ hi
  rw [(hsound.told i).opened]
  obtain ⟨_ | _, hstage⟩ := hdone i
  · simp [hstage, Stage.hasClosed] at hclosed
  · exact hstage

/-- No pool of one caller is closed by another just if one caller opened a pool. -/
lemma Sound.own_iff [Nonempty ι] :
    (∀ i j pool, (i, .closed (some pool)) ∈ past → (j, .opened pool) ∈ past → i = j) ↔
      (openers past).card = 1 := by
  have hsome := hsound.openers_ne_empty hdone
  constructor
  · intro hown
    by_contra hne
    have hpos : 0 < (openers past).card :=
      Finset.card_pos.mpr (Finset.nonempty_iff_ne_empty.mpr hsome)
    have hfailed (i : ι) : S.stage i ≠ .failed := by
      obtain ⟨renewed, hi⟩ := hdone i
      simp [hi]
    obtain ⟨i, pool, hi, hlt⟩ := hsound.succeeds.second hfailed hsome (.inr (by omega))
    obtain ⟨j, hji, hj⟩ := hsound.succeeds.foreign i pool hi hlt
    exact hji (hown i j pool hi hj).symm
  · intro hone i j pool hi hj
    obtain ⟨k, hk⟩ := Finset.card_eq_one.mp hone
    have hik : i = k := by simpa [hk] using hsound.opened_of_closed hdone hi
    have hjk : j = k := by simpa [hk] using (mem_openers (i := j)).mpr ⟨pool, hj⟩
    rw [hik, hjk]

end

/-- **As many reconnects as early looks**: in whatever order any number of callers take their steps
after the connection became stale, once all of them have ended without a failure the connection is
there again, and it was opened as often as callers looked at the mark before the first new pool was
opened.  So one staleness brings one reconnect just if one caller looks that early. -/
theorem renewed_by_early [Nonempty ι] {c : Client σ} (hstale : c.monitor.stale = true)
    (h : Path (World.start c) past S) (hdone : ∀ i, ∃ renewed, S.stage i = .done renewed) :
    Renewed c.monitor past S := by
  have hsound := h.sound hstale
  have hsome := hsound.openers_ne_empty hdone
  have hrenewed (i : ι) : S.stage i = .done true ↔ i ∈ early past := by
    rw [hsound.early_eq hdone, (hsound.told i).opened]
  have hcount : S.monitor.reconnects = c.monitor.reconnects + (early past).card := by
    rw [hsound.early_eq hdone]
    exact hsound.counted.reconnects
  have hown := hsound.own_iff hdone
  rw [← hsound.early_eq hdone] at hown
  refine ⟨?_, hrenewed, ?_, hcount, hown, fun honce => ?_, fun hone => ?_⟩
  · have hended (i : ι) : S.stage i ≠ .failed ∧ S.stage i ≠ .closed := by
      obtain ⟨renewed, hi⟩ := hdone i
      simp [hi]
    have hpool := hsound.succeeds.held (fun i => (hended i).1) (fun i => (hended i).2) hsome
    have hmark : S.monitor.stale = false :=
      (Bool.not_eq_true _).mp (mt hsound.counted.stale.mp hsome)
    rw [Monitor.isConnected, hpool, hmark]
    rfl
  · rw [hsound.early_eq hdone]
    exact Finset.card_pos.mpr (Finset.nonempty_iff_ne_empty.mpr hsome)
  · have hone := honce.reconnects
    omega
  · obtain ⟨k, hk⟩ := Finset.card_eq_one.mp hone
    refine ⟨⟨k, ?_, fun i hi => ?_⟩, by omega, hown.mpr hone⟩
    · simp [hrenewed, hk]
    · simpa [hrenewed, hk] using hi

/-- A client that is connected and was told that it is stale. -/
def marked : Client Script :=
  { Client.connectedTo {} with
    monitor := { (Client.connectedTo {}).monitor with stale := true } }

/-- One caller has reconnected when the other looks: the other rests. -/
theorem renewed_by_early_later :
    ∃ past S, Path (World.start marked : World (Fin 2) Script) past S ∧
      (∀ i, ∃ renewed, S.stage i = .done renewed) ∧ Once marked.monitor past S := by
  have hpath : Path (World.start marked : World (Fin 2) Script) _ _ :=
    (((Path.refl.step (.marks (i := 0) rfl rfl)).step
      (.closes (i := 0) (.task none) rfl (by decide) rfl)).step
      (.opens (i := 0) (.task none) rfl rfl)).step (.rests (i := 1) rfl rfl)
  have hrenewed := renewed_by_early rfl hpath (Fin.forall_fin_two.mpr ⟨⟨true, rfl⟩, ⟨false, rfl⟩⟩)
  exact ⟨_, _, hpath, Fin.forall_fin_two.mpr ⟨⟨true, rfl⟩, ⟨false, rfl⟩⟩, hrenewed.once_iff.mpr rfl⟩

/-- **Two callers reconnect after one staleness**: both find the mark before either has the lock.
The second closes the pool that the first has opened. -/
theorem reconnected_twice :
    ¬ ∀ (c : Client Script) (past : Trace (Fin 2)) (S : World (Fin 2) Script),
      c.monitor.stale = true → Path (World.start c) past S →
      (∀ i, ∃ renewed, S.stage i = .done renewed) → Once c.monitor past S := by
  intro h
  have hpath : Path (World.start marked : World (Fin 2) Script) _ _ :=
    (((((Path.refl.step (.marks (i := 0) rfl rfl)).step (.marks (i := 1) rfl rfl)).step
      (.closes (i := 0) (.task none) rfl (by decide) rfl)).step
      (.opens (i := 0) (.task none) rfl rfl)).step
      (.closes (i := 1) (.task none) rfl (by decide) rfl)).step
      (.opens (i := 1) (.task none) rfl rfl)
  have honce := h marked _ _ rfl hpath (Fin.forall_fin_two.mpr ⟨⟨true, rfl⟩, ⟨true, rfl⟩⟩)
  exact absurd honce.reconnects (by decide)

end Renewal

end GraphMapper
