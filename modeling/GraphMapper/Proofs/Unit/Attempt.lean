import GraphMapper.Proofs.Unit.Work

/-!
One attempt at a unit of work.

* `Attempt`, `Attempt.events`, `Attempt.Commits`: what may come of an attempt, what the engine is
  asked in it, and whether that is for good;
* `Attempt.Sound`: an attempt that is a run of the unit of work, committed if nothing failed;
* `Client.Leaves`: a client after attempts;
* `Client.openFor_spec`, `Client.finishCommit_spec`, `Client.finishRollback_spec`: how a transaction
  is begun and ended;
* `Client.attemptUnit_spec`: the whole of it.
-/

namespace GraphMapper

/-! ### Attempts -/

/-- What came of an attempt at a unit of work. -/
inductive Attempt (α : Type) where
  /-- No transaction was begun. -/
  | refused
  /-- The unit had a transaction already, so that the new one was rolled back at once. -/
  | turnedAway (session : SessionId) (transaction : TransactionId) (failure : Option Error)
  /-- The work was run, and then the engine was called to commit it or to roll it back. -/
  | made (session : SessionId) (transaction : TransactionId) (statements : List Answered)
      (doomed : Bool) (result : Except Error α) (committing : Bool) (failure : Option Error)

namespace Attempt

variable {α : Type}

/-- The end of a transaction. -/
def closing (transaction : TransactionId) (committing : Bool) (failure : Option Error) :
    Script.Event :=
  if committing then .commit transaction failure else .rollback transaction failure

/-- What the engine was asked in an attempt. -/
def events (mode : AccessMode) : Attempt α → List Script.Event
  | .refused => []
  | .turnedAway session t failure => [.start session mode t none, .rollback t failure]
  | .made session t statements _ _ committing failure =>
    .start session mode t none :: statements.map (Client.ran t) ++ [closing t committing failure]

/-- The statements run in an attempt. -/
def statements : Attempt α → List Answered
  | .made _ _ statements _ _ _ _ => statements
  | _ => []

/-- Whether a nested unit failed in an attempt. -/
def doomed : Attempt α → Bool
  | .made _ _ _ doomed _ _ _ => doomed
  | _ => false

/-- The work came to the result, and was committed. -/
inductive Commits : Attempt α → α → Prop where
  | intro (session : SessionId) (transaction : TransactionId) (statements : List Answered)
      (doomed : Bool) (x : α) :
      Commits (.made session transaction statements doomed (.ok x) true none) x

/-- **An attempt is sound** if it is a run of the work, and the engine is called to commit it just
if the work succeeded and no nested unit failed. -/
inductive Sound (work : Work α) (context : Context) : Attempt α → Prop where
  | refused : Sound work context .refused
  | turnedAway (session : SessionId) (transaction : TransactionId) (failure : Option Error) :
      Sound work context (.turnedAway session transaction failure)
  | made {statements : List Answered} {doomed : Bool} {result : Except Error α}
      (h : Runs work context statements doomed result) (session : SessionId)
      (transaction : TransactionId) (failure : Option Error) :
      Sound work context
        (.made session transaction statements doomed result (result.isOk && !doomed) failure)

end Attempt

namespace Attempt

variable {α : Type}

/-- The transaction begun in an attempt, if one was. -/
def transactions : Attempt α → List TransactionId
  | .refused => []
  | .turnedAway _ t _ => [t]
  | .made _ t _ _ _ _ _ => [t]

/-- Work that succeeds is committed if the engine is called to commit it and the commit does not
fail. -/
lemma commits_made_iff {session : SessionId} {t : TransactionId} {statements : List Answered}
    {doomed committing : Bool} {result : Except Error α} {failure : Option Error} {x : α} :
    (made session t statements doomed result committing failure).Commits x ↔
      result = .ok x ∧ committing = true ∧ failure = none := by
  constructor
  · rintro ⟨⟩
    exact ⟨rfl, rfl, rfl⟩
  · rintro ⟨rfl, rfl, rfl⟩
    exact .intro session t statements doomed x

lemma filterMap_ran {β : Type} {f : Script.Event → Option β} (t : TransactionId)
    (h : ∀ q failure, f (.run t q failure) = none) (statements : List Answered) :
    (statements.map (Client.ran t)).filterMap f = [] := by
  rw [List.filterMap_map, List.filterMap_eq_nil_iff]
  intro s _
  exact h s.1 (Script.failureOf s.2)

/-- At most one transaction is begun in an attempt. -/
lemma begun_events (mode : AccessMode) (a : Attempt α) :
    Script.begun (a.events mode) = a.transactions := by
  cases a with
  | refused => rfl
  | turnedAway => rfl
  | made session t statements doomed result committing failure =>
      have hclosing : Script.begun [closing t committing failure] = [] := by
        cases committing <;> rfl
      rw [events, Script.begun_append, hclosing, List.append_nil, transactions]
      exact congrArg (t :: ·) (filterMap_ran t (fun _ _ => rfl) statements)

/-- It is ended once. -/
lemma ended_events (mode : AccessMode) (a : Attempt α) :
    Script.ended (a.events mode) = a.transactions := by
  cases a with
  | refused => rfl
  | turnedAway => rfl
  | made session t statements doomed result committing failure =>
      have hclosing : Script.ended [closing t committing failure] = [t] := by
        cases committing <;> rfl
      have hran : Script.ended (.start session mode t none :: statements.map (Client.ran t)) = [] :=
        filterMap_ran t (fun _ _ => rfl) statements
      rw [events, Script.ended_append, hclosing, hran, List.nil_append, transactions]

end Attempt

/-! ### Before and after -/

namespace Client

/-- **A client after attempts**: the engine was asked the given events, every transaction begun in
them is a new one and ended once, and the client holds no session and no transaction more than
before. -/
structure Leaves (c : Client Script) (events : List Script.Event) (after : Client Script) :
    Prop where
  log : after.engine.log = c.engine.log ++ events
  next : c.engine.nextTransaction ≤ after.engine.nextTransaction
  fresh : ∀ t ∈ Script.begun events,
    c.engine.nextTransaction ≤ t ∧ t < after.engine.nextTransaction
  distinct : (Script.begun events).Nodup
  finished : Script.ended events = Script.begun events
  active : after.active = c.active
  policy : after.policy = c.policy
  sessions : c.monitor.NoneHeld after.monitor

lemma Aside.leaves {c after : Client Script} (h : c.Aside after)
    (hnone : c.monitor.NoneHeld after.monitor) : c.Leaves [] after where
  log := by rw [h.quiet.log, List.append_nil]
  next := h.quiet.next.ge
  fresh := by simp [Script.begun]
  distinct := List.nodup_nil
  finished := rfl
  active := h.active
  policy := h.policy
  sessions := hnone

lemma Leaves.append {c mid after : Client Script} {first second : List Script.Event}
    (h : c.Leaves first mid) (h' : mid.Leaves second after) : c.Leaves (first ++ second) after where
  log := by rw [h'.log, h.log, List.append_assoc]
  next := h.next.trans h'.next
  fresh := Script.begun_append_fresh h.next h'.next h.fresh h'.fresh
  distinct := Script.begun_append_nodup h.fresh h'.fresh h.distinct h'.distinct
  finished := by rw [Script.ended_append, Script.begun_append, h.finished, h'.finished]
  active := h'.active.trans h.active
  policy := h'.policy.trans h.policy
  sessions := h.sessions.trans h'.sessions

/-- An attempt that begins the next transaction leaves what an attempt should. -/
lemma Leaves.attempt {α : Type} {c after : Client Script} (mode : AccessMode) {a : Attempt α}
    (ha : a.transactions = [c.engine.nextTransaction])
    (log : after.engine.log = c.engine.log ++ a.events mode)
    (next : after.engine.nextTransaction = c.engine.nextTransaction + 1)
    (active : after.active = c.active) (policy : after.policy = c.policy)
    (sessions : c.monitor.NoneHeld after.monitor) : c.Leaves (a.events mode) after where
  log := log
  next := next.symm ▸ Nat.le_succ _
  fresh t ht := by
    rw [Attempt.begun_events, ha, List.mem_singleton] at ht
    rw [ht, next]
    exact ⟨le_refl _, Nat.lt_succ_self _⟩
  distinct := by
    rw [Attempt.begun_events, ha]
    exact List.nodup_singleton _
  finished := by rw [Attempt.ended_events, Attempt.begun_events]
  active := active
  policy := policy
  sessions := sessions

/-- Meanwhile a transaction was ended and its session given back.  The others given are open. -/
structure Closed (m : Monitor) (c : Client Script) (event : Script.Event)
    (others : List (Owner × ActiveTransaction)) (after : Client Script) : Prop where
  log : after.engine.log = c.engine.log ++ [event]
  next : after.engine.nextTransaction = c.engine.nextTransaction
  active : after.active = others
  policy : after.policy = c.policy
  sessions : m.NoneHeld after.monitor

/-! ### Beginnings -/

/-- A transaction is begun on a session, or nothing is done. -/
lemma start_spec (session : SessionId) (mode : AccessMode) (caller : Owner) (c : Client Script) :
    ∃ (r : Except Error TransactionId) (after : Client Script),
      Action.observed (Engine.start session mode) caller c = (.ok r, after) ∧ c.Keeps after ∧
        ((∃ e, r = .error e ∧ Script.Quiet c.engine after.engine) ∨
          (r = .ok c.engine.nextTransaction ∧
            after.engine.log = c.engine.log ++ [.start session mode c.engine.nextTransaction none] ∧
            after.engine.nextTransaction = c.engine.nextTransaction + 1)) := by
  obtain ⟨after, hobserved, hengine, hkeeps⟩ := observed_spec caller c (Engine.start session mode)
  refine ⟨_, after, hobserved, hkeeps, ?_⟩
  rw [hengine]
  exact Script.start_log session mode c.engine

/-- A transaction that was begun for an owner who has one is rolled back at once. -/
lemma turnAway_spec {m : Monitor} {lease : Lease} (transaction : TransactionId) (caller : Owner)
    (c : Client Script) (h : m.OneHeld lease c.monitor) :
    ∃ (failure : Option Error) (after : Client Script),
      (do
        let _ ← Action.engine (Engine.rollback transaction)
        release lease
        Action.fail (.transaction .alreadyActive) : Action Script Unit) caller c =
          (.error (.failed (.transaction .alreadyActive)), after) ∧
        Closed m c (.rollback transaction failure) c.active after := by
  obtain ⟨hlog, hnext⟩ := Script.rollback_log transaction c.engine
  obtain ⟨after, hrelease, hengine, hactive, hpolicy, hnone⟩ :=
    release_spec caller { c with engine := (Script.rollback transaction c.engine).2 } h
  refine ⟨_, after, ?_, by rw [hengine, hlog], by rw [hengine, hnext], hactive, hpolicy, hnone⟩
  rw [Action.bind_apply_ok (Action.engine_apply _ caller c)]
  exact (Action.bind_apply_ok hrelease).trans (Action.fail_apply _ caller after)

/-- Either the owner is inside a new transaction, or there is none and no session is out.  An owner
who had no transaction is never turned away. -/
lemma openFor_spec (α : Type) (owner : Owner) (serial : ℕ) (mode : AccessMode) (k total : ℕ)
    (caller : Owner) (c : Client Script) :
    ∃ (r : Except Halt Unit) (after : Client Script),
      openFor owner serial mode k total caller c = (r, after) ∧
        match r with
        | .ok _ => ∃ session t, t.context = ⟨1, mode, k, total⟩ ∧ t.rollbackOnly = false ∧
            t.transaction = c.engine.nextTransaction ∧ after.Inside owner t c.active ∧
            after.engine.log = c.engine.log ++ [.start session mode t.transaction none] ∧
            after.engine.nextTransaction = c.engine.nextTransaction + 1 ∧
            after.policy = c.policy ∧ c.monitor.OneHeld t.lease after.monitor
        | .error _ => ∃ a : Attempt α, (∀ work context, a.Sound work context) ∧
            (∀ x, ¬ a.Commits x) ∧ (c.active.lookup owner = none → a = .refused) ∧
            c.Leaves (a.events mode) after := by
  obtain ⟨r, mid, hacquire, haside, hheld⟩ := acquire_spec caller c
  rw [openFor]
  cases r with
  | error halt =>
      refine ⟨_, _, Action.bind_apply_error hacquire, .refused, fun _ _ => .refused, ?_, fun _ => rfl,
        ?_⟩
      · rintro x ⟨⟩
      · exact haside.leaves hheld
  | ok lease =>
      obtain ⟨r, started, hstart, hkeeps, hended⟩ := start_spec lease.session mode caller mid
      have hactive : started.active = c.active := hkeeps.active.trans haside.active
      have hpolicy : started.policy = c.policy := hkeeps.policy.trans haside.policy
      have hheld' : c.monitor.OneHeld lease started.monitor :=
        hheld.congr hkeeps.pool hkeeps.generation
      have hfound : activeOf owner caller started = (.ok (c.active.lookup owner), started) := by
        rw [← hactive]
        rfl
      rw [Action.bind_apply_ok hacquire, Action.bind_apply_ok hstart]
      obtain ⟨e, rfl, hquiet⟩ | ⟨rfl, hlog, hnext⟩ := hended
      · obtain ⟨after, hrelease, hengine, hactive', hpolicy', hnone⟩ :=
          release_spec caller started hheld'
        refine ⟨_, _, (Action.bind_apply_ok hrelease).trans (Action.fail_apply e caller after),
          .refused, fun _ _ => .refused, ?_, fun _ => rfl, ?_⟩
        · rintro x ⟨⟩
        · refine Aside.leaves ⟨?_, hactive'.trans hactive, hpolicy'.trans hpolicy⟩ hnone
          rw [hengine]
          exact haside.quiet.trans hquiet
      · dsimp only
        rw [Action.bind_apply_ok hfound]
        rw [haside.quiet.next] at hlog hnext ⊢
        rw [haside.quiet.log] at hlog
        cases hlookup : c.active.lookup owner with
        | some t =>
            obtain ⟨failure, after, hrun, hclosed⟩ :=
              turnAway_spec c.engine.nextTransaction caller started hheld'
            refine ⟨_, after, hrun, .turnedAway lease.session c.engine.nextTransaction failure,
              fun _ _ => .turnedAway _ _ _, ?_, fun hnone => ?_, ?_⟩
            · rintro x ⟨⟩
            · cases hnone
            · refine Leaves.attempt mode rfl ?_ (hclosed.next.trans hnext)
                (hclosed.active.trans hactive) (hclosed.policy.trans hpolicy) hclosed.sessions
              rw [hclosed.log, hlog, List.append_assoc]
              rfl
        | none =>
            refine ⟨_, _, Action.modify_apply _ caller started, lease.session,
              { serial, transaction := c.engine.nextTransaction, lease, depth := 1, mode
                attempt := k, maxAttempts := total, rollbackOnly := false },
              rfl, rfl, rfl, ⟨?_, hlookup, Nat.one_pos⟩, hlog, hnext, hpolicy, hheld'⟩
            rw [hactive]

/-! ### Ends -/

/-- The call that ends a transaction. -/
def ending (transaction : TransactionId) (committing : Bool) : StateM Script (Except Error Unit) :=
  if committing then Script.commit transaction else Script.rollback transaction

lemma ending_log (transaction : TransactionId) (committing : Bool) (s : Script) :
    (ending transaction committing s).2.log =
        s.log ++ [Attempt.closing transaction committing
          (Script.failureOf (ending transaction committing s).1)] ∧
      (ending transaction committing s).2.nextTransaction = s.nextTransaction := by
  cases committing with
  | true => exact Script.commit_log transaction s
  | false => exact Script.rollback_log transaction s

variable {owner : Owner} {t : ActiveTransaction} {others : List (Owner × ActiveTransaction)}
  {c : Client Script}

/-- The transaction of an owner is taken out, and the others stay. -/
lemma Inside.takeActive (h : c.Inside owner t others) (caller : Owner) :
    Client.takeActive owner caller c = (.ok (some t), { c with active := others }) := by
  have hothers : c.active.filter (fun p => p.1 ≠ owner) = others := by
    rw [h.active, List.filter_append, List.filter_eq_self.mpr fun p hp => by simpa using h.ne hp,
      List.filter_cons_of_neg (by simp), List.filter_nil, List.append_nil]
  rw [Client.takeActive, Action.bind_apply_ok h.activeOf, ← hothers]
  rfl

/-- The engine is called to end a transaction that was taken out, and its session is given back. -/
lemma ending_spec {m : Monitor} {lease : Lease} (transaction : TransactionId) (committing : Bool)
    (caller : Owner) (h : m.OneHeld lease c.monitor) :
    ∃ (r : Except Error Unit) (after : Client Script),
      (∀ f : Except Error Unit → Action Script Unit,
        (do
          let result ← Action.observed (ending transaction committing)
          release lease
          f result) caller { c with active := others } = f r caller after) ∧
        Closed m c (Attempt.closing transaction committing (Script.failureOf r)) others after := by
  obtain ⟨hlog, hnext⟩ := ending_log transaction committing c.engine
  obtain ⟨mid, hobserved, hengine, hkeeps⟩ :=
    observed_spec caller { c with active := others } (ending transaction committing)
  obtain ⟨after, hrelease, hengine', hactive, hpolicy, hnone⟩ :=
    release_spec caller mid (Monitor.OneHeld.congr h hkeeps.pool hkeeps.generation)
  refine ⟨_, after, fun f => ?_, by rw [hengine', hengine, hlog], by rw [hengine', hengine, hnext],
    hactive.trans hkeeps.active, hpolicy.trans hkeeps.policy, hnone⟩
  rw [Action.bind_apply_ok hobserved, Action.bind_apply_ok hrelease]

/-- A transaction that nothing dooms is committed, and any other rolled back without a result. -/
lemma finishCommit_spec {m : Monitor} (h : c.Inside owner t others)
    (hheld : m.OneHeld t.lease c.monitor) (caller : Owner) :
    ∃ (failure : Option Error) (r : Except Error Unit) (after : Client Script),
      finishCommit owner caller c = (r.mapError .failed, after) ∧
        r.isOk = (!t.rollbackOnly && failure.isNone) ∧
        Closed m c (Attempt.closing t.transaction (!t.rollbackOnly) failure) others after := by
  obtain ⟨r, after, hrun, hclosed⟩ := ending_spec t.transaction (!t.rollbackOnly) caller hheld
  rw [finishCommit, Action.bind_apply_ok (h.takeActive caller)]
  dsimp only
  split_ifs with hdoomed
  · rw [hdoomed] at hrun hclosed ⊢
    cases r with
    | ok =>
        exact ⟨_, .error (.transaction .rolledBackWithin), after, hrun _, rfl, hclosed⟩
    | error e => exact ⟨_, .error e, after, hrun _, rfl, hclosed⟩
  · rw [Bool.not_eq_true] at hdoomed
    rw [hdoomed] at hrun hclosed ⊢
    refine ⟨_, r, after, (hrun _).trans (Action.ofExcept_apply r caller after), ?_, hclosed⟩
    cases r <;> rfl

/-- A transaction that is rolled back. -/
lemma finishRollback_spec {m : Monitor} (h : c.Inside owner t others)
    (hheld : m.OneHeld t.lease c.monitor) (caller : Owner) :
    ∃ (failure : Option Error) (r : Except Error Unit) (after : Client Script),
      finishRollback owner caller c = (r.mapError .failed, after) ∧ r.isOk = failure.isNone ∧
        Closed m c (.rollback t.transaction failure) others after := by
  obtain ⟨r, after, hrun, hclosed⟩ := ending_spec t.transaction false caller hheld
  refine ⟨Script.failureOf r, r, after, ?_, ?_, hclosed⟩
  · rw [finishRollback, Action.bind_apply_ok (h.takeActive caller)]
    exact (hrun _).trans (Action.ofExcept_apply r caller after)
  · cases r <;> rfl

/-- What the work of an attempt came to is followed by the one end of its transaction. -/
lemma conclude_spec {α : Type} {m : Monitor} (h : c.Inside owner t others)
    (hheld : m.OneHeld t.lease c.monitor) (caller : Owner) (result : Except Error α) :
    ∃ (failure : Option Error) (r : Except Halt α) (after : Client Script),
      conclude owner result caller c = (r, after) ∧
        (∀ x, r = .ok x ↔ result = .ok x ∧ t.rollbackOnly = false ∧ failure = none) ∧
        Closed m c (Attempt.closing t.transaction (result.isOk && !t.rollbackOnly) failure) others
          after := by
  cases result with
  | ok x =>
      obtain ⟨failure, r, after, hfinish, hok, hclosed⟩ := finishCommit_spec h hheld caller
      obtain e | ⟨⟨⟩⟩ := r
      · refine ⟨failure, .error (.failed e), after, Action.bind_apply_error hfinish,
          fun y => ⟨fun hr => ?_, fun ⟨_, hdoomed, hfailure⟩ => ?_⟩, hclosed⟩
        · cases hr
        · rw [hdoomed, hfailure] at hok
          cases hok
      · refine ⟨failure, .ok x, after,
          (Action.bind_apply_ok hfinish).trans (Action.pure_apply x caller after), fun y => ?_,
          hclosed⟩
        have hcommitted : t.rollbackOnly = false ∧ failure = none := by
          simpa [Except.isOk, Except.toBool] using hok.symm
        rw [and_iff_left hcommitted, Except.ok.injEq, Except.ok.injEq]
  | error e =>
      obtain ⟨failure, r, after, hfinish, -, hclosed⟩ := finishRollback_spec h hheld caller
      refine ⟨failure, .error (.failed e), after, ?_, by simp, hclosed⟩
      rw [conclude, Action.bind_apply_ok (Action.attempted_apply_ok hfinish), Action.fail_apply]

/-! ### The attempt -/

section Whole

variable {α : Type} {mode : AccessMode} {session : SessionId} {opened mid after : Client Script}
  {statements : List Answered} {doomed committing : Bool} {result : Except Error α}
  {failure : Option Error}

/-- What is begun, worked in and closed leaves what an attempt should. -/
lemma Leaves.made
    (hopened : opened.engine.log = c.engine.log ++ [.start session mode t.transaction none])
    (hnext : opened.engine.nextTransaction = c.engine.nextTransaction + 1)
    (htransaction : t.transaction = c.engine.nextTransaction) (hpolicy : opened.policy = c.policy)
    (hworked : opened.Worked t.transaction statements mid)
    (hclosed : Closed c.monitor mid (Attempt.closing t.transaction committing failure) c.active
      after) :
    c.Leaves
      ((Attempt.made session t.transaction statements doomed result committing failure).events mode)
      after := by
  refine Leaves.attempt mode (congrArg (fun t => [t]) htransaction) ?_
    (hclosed.next.trans (hworked.next.trans hnext)) hclosed.active
    (hclosed.policy.trans (hworked.policy.trans hpolicy)) hclosed.sessions
  rw [hclosed.log, hworked.log, hopened, Attempt.events]
  simp only [List.append_assoc, List.cons_append, List.nil_append]

end Whole

/-- **One attempt** is a sound one, its result is that of the work if it was committed, and it
leaves nothing behind. -/
theorem attemptUnit_spec {α : Type} (mode : AccessMode) (work : Work α) (k : ℕ) (caller : Owner)
    (c : Client Script) :
    ∃ (r : Except Halt α) (after : Client Script),
      attemptUnit mode work.play k caller c = (r, after) ∧ ∃ a : Attempt α,
        a.Sound work ⟨1, mode, k, c.policy.attempts⟩ ∧ (∀ x, r = .ok x ↔ a.Commits x) ∧
        c.Leaves (a.events mode) after := by
  rw [attemptUnit_eq]
  obtain ⟨r, opened, hopen, hopened⟩ := openFor_spec α (.unit c.nextSerial) c.nextSerial mode k
    c.policy.attempts caller { c with nextSerial := c.nextSerial + 1 }
  obtain halt | ⟨⟨⟩⟩ := r
  · obtain ⟨a, hsound, hcommits, -, hleaves⟩ := hopened
    have haside : c.Aside { c with nextSerial := c.nextSerial + 1 } := ⟨.refl _, rfl, rfl⟩
    have hleaves' := (haside.leaves (.refl _)).append hleaves
    rw [List.nil_append] at hleaves'
    refine ⟨.error halt, opened, Action.bind_apply_error hopen, a, hsound _ _,
      fun x => ⟨fun h => ?_, fun h => absurd h (hcommits x)⟩, hleaves'⟩
    cases h
  · obtain ⟨session, t, hcontext, hundoomed, htransaction, hinside, hlog, hnext, hpolicy, hheld⟩ :=
      hopened
    obtain ⟨statements, doomed, result, mid, hrun, hruns, hworked, hinside'⟩ :=
      work.play_spec hinside
    have hheld' : c.monitor.OneHeld t.lease mid.monitor :=
      hheld.congr hworked.pool hworked.generation
    have hdoomed : (t.doom doomed).rollbackOnly = doomed := by
      rw [ActiveTransaction.doom, hundoomed, Bool.false_or]
    have hattempted : Action.attempted (Action.onBehalfOf (.unit c.nextSerial)
        (work.play ⟨.unit c.nextSerial⟩)) caller opened = (.ok result, mid) :=
      Action.attempted_apply_ok hrun
    rw [hcontext] at hruns
    rw [Action.bind_apply_ok hopen, Action.bind_apply_ok hattempted]
    obtain ⟨failure, r, after, hconclude, hr, hclosed⟩ :=
      conclude_spec hinside' hheld' caller result
    rw [hdoomed] at hr hclosed
    refine ⟨r, after, hconclude, _, .made hruns session t.transaction failure, fun x => ?_,
      Leaves.made hlog hnext htransaction hpolicy hworked hclosed⟩
    rw [hr, Attempt.commits_made_iff]
    refine and_congr_right fun hx => and_congr_left' ?_
    rw [hx, Bool.and_eq_true, Bool.not_eq_true']
    exact (and_iff_right rfl).symm

end Client

end GraphMapper
