import GraphMapper.Proofs.Unit.Managed

/-!
A caller that begins and ends transactions by hand.

* `Turn`, `Turn.play`: what a caller may do next, and how a client does it;
* `Client.Advances`: what may come of a turn, by the transaction that the caller is in;
* `Client.Course`: turns one after the other, whatever comes of each;
* `Client.Passes`, `Client.Owns`: a caller that has no transaction of the engine but the one it is in;
* `Client.turn_spec`, `Client.course_owned`: single turns, and every sequence of turns.
-/

namespace GraphMapper

/-! ### Turns -/

/-- What a caller may do next: a transaction is begun or ended by hand, or a statement or a unit of
work is run. -/
inductive Turn : Type 1 where
  | begin (mode : AccessMode)
  | commit
  | rollback
  | statement (q : Query) (mode : AccessMode)
  | unit {α : Type} (mode : AccessMode) (work : Work α)

/-- Takes a turn with a client. -/
def Turn.play : Turn → Action Script Unit
  | .begin mode => Client.begin mode
  | .commit => Client.commit
  | .rollback => Client.rollback
  | .statement q mode => do
    let _ ← Client.statement q mode
  | .unit mode work => do
    let _ ← Client.managed mode work.play

/-! ### The open transactions of a log -/

namespace Client

/-- **What may come of a turn**: its result, whether an inner level failed in it, what the engine was
asked, and the transaction that the caller is in afterwards, by the one that it was in before. -/
inductive Advances (before : Client Script) :
    Option ActiveTransaction → Turn → Except Halt Unit → Bool → List Script.Event → Client Script →
      Option ActiveTransaction → Prop where
  /-- The outermost begin starts a transaction of the engine, in which nothing has failed. -/
  | opened {t : ActiveTransaction} {mode : AccessMode} {after : Client Script} (session : SessionId)
      (hcontext : t.context = ⟨1, mode, 1, 1⟩) (hsound : t.rollbackOnly = false) :
      Advances before none (.begin mode) (.ok ()) false [.start session mode t.transaction none]
        after (some t)
  /-- An outermost begin that fails leaves the caller outside. -/
  | refused (mode : AccessMode) (halt : Halt) (after : Client Script) :
      Advances before none (.begin mode) (.error halt) false [] after none
  /-- Inside a transaction begin goes one level deeper, and the engine is not asked. -/
  | deeper {t : ActiveTransaction} {after : Client Script} (mode : AccessMode)
      (hengine : after.engine = before.engine) :
      Advances before (some t) (.begin mode) (.ok ()) false [] after (some t.enter)
  | commitOutside :
      Advances before none .commit (.error (.failed (.transaction .commitOutside))) false [] before
        none
  | rollbackOutside :
      Advances before none .rollback (.error (.failed (.transaction .rollbackOutside))) false []
        before none
  /-- An inner commit goes one level up, and the engine is not asked. -/
  | innerCommit {t : ActiveTransaction} {after : Client Script} (hinner : 1 < t.depth)
      (hengine : after.engine = before.engine) :
      Advances before (some t) .commit (.ok ()) false [] after (some (t.leave false))
  /-- An inner rollback goes one level up and dooms the transaction. -/
  | innerRollback {t : ActiveTransaction} {after : Client Script} (hinner : 1 < t.depth)
      (hengine : after.engine = before.engine) :
      Advances before (some t) .rollback (.ok ()) true [] after (some (t.leave true))
  /-- The outermost commit asks the engine for a commit just if nothing dooms the transaction.  It
  succeeds just if that commit does. -/
  | outerCommit {t : ActiveTransaction} {after : Client Script} {result : Except Error Unit}
      {failure : Option Error} (houter : t.depth = 1)
      (hresult : result.isOk = (!t.rollbackOnly && failure.isNone)) :
      Advances before (some t) .commit (result.mapError .failed) false
        [Attempt.closing t.transaction (!t.rollbackOnly) failure] after none
  | outerRollback {t : ActiveTransaction} {after : Client Script} {result : Except Error Unit}
      {failure : Option Error} (houter : t.depth = 1) (hresult : result.isOk = failure.isNone) :
      Advances before (some t) .rollback (result.mapError .failed) false
        [.rollback t.transaction failure] after none
  /-- A statement inside the transaction runs there. -/
  | inside {t : ActiveTransaction} {after : Client Script} (q : Query) (mode : AccessMode)
      (answer : Except Error (List Row)) :
      Advances before (some t) (.statement q mode) ((answer.mapError .failed).map fun _ => ()) false
        [ran t.transaction (q, answer)] after (some t)
  /-- A unit of work inside the transaction is nested there.  It dooms the transaction if it fails
  or something inside it did. -/
  | nested {α : Type} {t : ActiveTransaction} {after : Client Script} {work : Work α}
      {statements : List Answered} {doomed : Bool} {result : Except Error α} (mode : AccessMode)
      (hruns : Runs work t.enter.context statements doomed result) :
      Advances before (some t) (.unit mode work) ((result.mapError .failed).map fun _ => ())
        (doomed || !result.isOk) (statements.map (ran t.transaction)) after
        (some (t.doom (doomed || !result.isOk)))
  /-- Outside of transactions a statement ends all that it begins. -/
  | statementOutside {after : Client Script} {events : List Script.Event} (q : Query)
      (mode : AccessMode) (result : Except Halt Unit) (hleaves : before.Leaves events after) :
      Advances before none (.statement q mode) result false events after none
  | unitOutside {α : Type} {after : Client Script} {events : List Script.Event} (mode : AccessMode)
      (work : Work α) (result : Except Halt Unit) (hleaves : before.Leaves events after) :
      Advances before none (.unit mode work) result false events after none

/-- **Turns one after the other**, with their results, the inner failures in them and all that the
engine was asked.  A turn that fails does not keep the caller from the next. -/
inductive Course (caller : Owner) :
    Client Script → Option ActiveTransaction → List Turn → List (Except Halt Unit) → List Bool →
      List Script.Event → Client Script → Option ActiveTransaction → Prop where
  | done (c : Client Script) (s : Option ActiveTransaction) : Course caller c s [] [] [] [] c s
  | turn {c mid after : Client Script} {s s' s'' : Option ActiveTransaction} {turn : Turn}
      {turns : List Turn} {result : Except Halt Unit} {results : List (Except Halt Unit)}
      {dooms : Bool} {doomed : List Bool} {first rest : List Script.Event}
      (hrun : turn.play caller c = (result, mid))
      (hadvances : Advances c s turn result dooms first mid s')
      (hrest : Course caller mid s' turns results doomed rest after s'') :
      Course caller c s (turn :: turns) (result :: results) (dooms :: doomed) (first ++ rest) after
        s''

/-- **Since the outermost begin**: the transaction was begun by a turn at which the caller was
outside, and is marked to be rolled back just if an inner level failed in the turns since then. -/
def BegunSince (caller : Owner) (c : Client Script) (s : Option ActiveTransaction)
    (turns : List Turn) (doomed : List Bool) (after : Client Script) (t : ActiveTransaction) :
    Prop :=
  ∃ (earlier since : List Turn) (mode : AccessMode) (past marks : List Bool)
    (results results' : List (Except Halt Unit)) (events begun events' : List Script.Event)
    (outside opened : Client Script) (t₀ : ActiveTransaction),
    turns = earlier ++ .begin mode :: since ∧ doomed = past ++ false :: marks ∧
      Course caller c s earlier results past events outside none ∧
      (Turn.begin mode).play caller outside = (.ok (), opened) ∧
      Advances outside none (.begin mode) (.ok ()) false begun opened (some t₀) ∧
      Course caller opened (some t₀) since results' marks events' after (some t) ∧
      t.transaction = t₀.transaction ∧ t.rollbackOnly = marks.any id

/-! ### What a caller owns -/

/-- The transaction of the engine that a caller is in. -/
def held (s : Option ActiveTransaction) : List TransactionId :=
  s.toList.map (·.transaction)

/-- Meanwhile the engine was asked the given events, and of the transactions begun and of the one
the caller was in before, just the one that it is in afterwards was not ended. -/
structure Passes (c : Client Script) (s : Option ActiveTransaction) (events : List Script.Event)
    (after : Client Script) (s' : Option ActiveTransaction) : Prop where
  log : after.engine.log = c.engine.log ++ events
  next : c.engine.nextTransaction ≤ after.engine.nextTransaction
  fresh : ∀ t ∈ Script.begun events,
    c.engine.nextTransaction ≤ t ∧ t < after.engine.nextTransaction
  distinct : (Script.begun events).Nodup
  balance : (held s ++ Script.begun events).Perm (Script.ended events ++ held s')

/-- Only the session of the transaction that the caller is in is out. -/
def Holding (m : Monitor) (s : Option ActiveTransaction) (m' : Monitor) : Prop :=
  match s with
  | none => m.NoneHeld m'
  | some t => m.OneHeld t.lease m'

/-- **A caller owns just the transaction that it is in.**  After the given events, counted from
when it was outside, all other transactions begun in them were ended, and the other owners have
theirs as before. -/
structure Owns (caller : Owner) (start : Client Script) (events : List Script.Event)
    (c : Client Script) (s : Option ActiveTransaction) : Prop where
  passes : start.Passes none events c s
  active : c.active = start.active ++ s.toList.map (caller, ·)
  deep : ∀ t ∈ s, 0 < t.depth
  sessions : Holding start.monitor s c.monitor

section Owns

variable {caller : Owner} {start c mid after : Client Script} {past events : List Script.Event}
  {s s' s'' : Option ActiveTransaction} {t t' : ActiveTransaction}

lemma Passes.refl (c : Client Script) (s : Option ActiveTransaction) : c.Passes s [] c s where
  log := (List.append_nil _).symm
  next := le_refl _
  fresh t ht := absurd ht List.not_mem_nil
  distinct := List.nodup_nil
  balance := by
    rw [show Script.begun [] = [] from rfl, show Script.ended [] = [] from rfl, List.append_nil,
      List.nil_append]

lemma Passes.append (h : c.Passes s past mid s') (h' : mid.Passes s' events after s'') :
    c.Passes s (past ++ events) after s'' where
  log := by rw [h'.log, h.log, List.append_assoc]
  next := h.next.trans h'.next
  fresh := Script.begun_append_fresh h.next h'.next h.fresh h'.fresh
  distinct := Script.begun_append_nodup h.fresh h'.fresh h.distinct h'.distinct
  balance := by
    rw [Script.begun_append, Script.ended_append]
    have hfirst := h.balance.append_right (Script.begun events)
    have hsecond := h'.balance.append_left (Script.ended past)
    rw [List.append_assoc, List.append_assoc] at hfirst
    rw [List.append_assoc]
    exact hfirst.trans hsecond

/-- What is done in the transaction neither begins nor ends one. -/
lemma Worked.passes {statements : List Answered} (h : c.Worked t.transaction statements after)
    (ht : t'.transaction = t.transaction) :
    c.Passes (some t) (statements.map (ran t.transaction)) after (some t') := by
  have hbegun : Script.begun (statements.map (ran t.transaction)) = [] :=
    Attempt.filterMap_ran t.transaction (fun _ _ => rfl) statements
  have hended : Script.ended (statements.map (ran t.transaction)) = [] :=
    Attempt.filterMap_ran t.transaction (fun _ _ => rfl) statements
  refine ⟨h.log, h.next.ge, ?_, ?_, ?_⟩
  · simp [hbegun]
  · simp [hbegun]
  · rw [hbegun, hended, held, held, Option.toList_some, Option.toList_some, List.map_singleton,
      List.map_singleton, ht, List.append_nil, List.nil_append]

lemma Leaves.passes (h : c.Leaves events after) : c.Passes none events after none where
  log := h.log
  next := h.next
  fresh := h.fresh
  distinct := h.distinct
  balance := by
    rw [h.finished]
    exact List.perm_append_comm

lemma Closed.passes {m : Monitor} {event : Script.Event} {others : List (Owner × ActiveTransaction)}
    (h : Closed m c event others after) (hbegun : Script.begun [event] = [])
    (hended : Script.ended [event] = [t.transaction]) : c.Passes (some t) [event] after none where
  log := h.log
  next := h.next.ge
  fresh := by simp [hbegun]
  distinct := by simp [hbegun]
  balance := by
    rw [hbegun, hended]
    exact .refl _

/-- A caller outside is free to begin. -/
lemma Owns.free (h : Owns caller start past c none) (hfree : start.active.lookup caller = none) :
    c.active.lookup caller = none := by
  rw [h.active, Option.toList_none, List.map_nil, List.append_nil, hfree]

lemma Owns.inside (h : Owns caller start past c (some t))
    (hfree : start.active.lookup caller = none) : c.Inside caller t start.active :=
  ⟨h.active, hfree, h.deep t rfl⟩

/-- What a caller inside does there keeps it inside. -/
lemma Owns.worked {statements : List Answered} (h : Owns caller start past c (some t))
    (hworked : c.Worked t.transaction statements after) (hinside : after.Inside caller t' start.active)
    (htransaction : t'.transaction = t.transaction) (hlease : t'.lease = t.lease) :
    Owns caller start (past ++ statements.map (ran t.transaction)) after (some t') where
  passes := h.passes.append (hworked.passes htransaction)
  active := hinside.active
  deep := by
    rintro _ ⟨rfl⟩
    exact hinside.deep
  sessions := by
    have hheld : start.monitor.OneHeld t.lease c.monitor := h.sessions
    rw [← hlease] at hheld
    exact hheld.congr hworked.pool hworked.generation

/-- What a caller outside does that ends all that it begins keeps it outside. -/
lemma Owns.leaves (h : Owns caller start past c none) (hleaves : c.Leaves events after) :
    Owns caller start (past ++ events) after none where
  passes := h.passes.append hleaves.passes
  active := hleaves.active.trans h.active
  deep t ht := by cases ht
  sessions := Monitor.NoneHeld.trans h.sessions hleaves.sessions

lemma Owns.closed {event : Script.Event} (h : Owns caller start past c (some t))
    (hclosed : Closed start.monitor c event start.active after)
    (hbegun : Script.begun [event] = []) (hended : Script.ended [event] = [t.transaction]) :
    Owns caller start (past ++ [event]) after none where
  passes := h.passes.append (hclosed.passes hbegun hended)
  active := hclosed.active.trans (List.append_nil _).symm
  deep t ht := by cases ht
  sessions := hclosed.sessions

/-- The depth that the caller sees is that of its transaction. -/
lemma Owns.depth (h : Owns caller start past c s) (hfree : start.active.lookup caller = none) :
    (depth caller c).1 = .ok ((s.map (·.depth)).getD 0) := by
  rw [depth_apply]
  cases s with
  | none => rw [h.free hfree]
  | some t =>
      rw [h.active, List.lookup_append, hfree, Option.toList_some, List.map_singleton,
        List.lookup_cons_self]
      rfl

end Owns

/-! ### Turns outside of transactions -/

/-- Attempts that each end what they begin do so together. -/
lemma Tries.leaves {α : Type} {caller : Owner} {more k : ℕ} {c after : Client Script}
    {r : Except Halt α}
    (h : Tries caller (fun _ c _ after => ∃ events, c.Leaves events after) more k c r after) :
    ∃ events, c.Leaves events after := by
  induction h with
  | last h => exact h
  | again h _ _ haside hnone _ ih =>
      obtain ⟨events, hleaves⟩ := h
      obtain ⟨rest, hrest⟩ := ih
      exact ⟨_, (hleaves.append (haside.leaves hnone)).append hrest⟩

/-- A statement that is run on its own begins no transaction. -/
lemma execute_leaves (q : Query) (mode : AccessMode) (caller : Owner) (c : Client Script) :
    ∃ (r : Except Halt (List Row)) (after : Client Script), execute q mode caller c = (r, after) ∧
      ∃ events, c.Leaves events after := by
  obtain ⟨r, mid, hacquire, haside, hheld⟩ := acquire_spec caller c
  rw [execute]
  cases r with
  | error halt => exact ⟨_, mid, Action.bind_apply_error hacquire, [], haside.leaves hheld⟩
  | ok lease =>
      obtain ⟨ran, hobserved, hengine, hkeeps⟩ :=
        observed_spec caller mid (Engine.execute lease.session q mode)
      obtain ⟨after, hrelease, hengine', hactive, hpolicy, hnone⟩ := release_spec caller ran
        (Monitor.OneHeld.congr hheld hkeeps.pool hkeeps.generation)
      have hrun : (do
          let result ← Action.observed (Engine.execute lease.session q mode)
          release lease
          Action.ofExcept result : Action Script (List Row)) caller mid =
            ((Engine.execute lease.session q mode mid.engine).1.mapError .failed, after) := by
        rw [Action.bind_apply_ok hobserved, Action.bind_apply_ok hrelease, Action.ofExcept_apply]
      obtain ⟨events, hlog, hnext, hbegun, hwithin⟩ :=
        Script.execute_log lease.session q mode mid.engine
      refine ⟨_, after, (Action.bind_apply_ok hacquire).trans hrun, events, ?_⟩
      refine ⟨?_, ?_, ?_, ?_, (Script.ended_of_within hwithin).trans hbegun.symm, ?_, ?_, hnone⟩
      · rw [hengine', hengine, ← haside.quiet.log]
        exact hlog
      · rw [hengine', hengine, ← haside.quiet.next]
        exact hnext.ge
      · simp [hbegun]
      · simp [hbegun]
      · exact (hactive.trans hkeeps.active).trans haside.active
      · exact (hpolicy.trans hkeeps.policy).trans haside.policy

/-- What is done again after failures that allow it ends what it begins if each time does. -/
lemma retrying_leaves {α : Type} {attempt : ℕ → Action Script α} {caller : Owner}
    (hattempt : ∀ (k : ℕ) (c : Client Script), ∃ (r : Except Halt α) (after : Client Script),
      attempt k caller c = (r, after) ∧ ∃ events, c.Leaves events after) (c : Client Script) :
    ∃ (r : Except Halt α) (after : Client Script), retrying attempt caller c = (r, after) ∧
      ∃ events, c.Leaves events after := by
  obtain ⟨r, after, hrun, htries⟩ := retryFrom_tries hattempt (c.policy.attempts - 1) 1 c
  exact ⟨r, after, (retrying_eq attempt caller c).trans hrun, htries.leaves⟩

section Outside

variable {caller : Owner} {c : Client Script} (hfree : c.active.lookup caller = none)
include hfree

lemma activeOf_outside : activeOf caller caller c = (.ok none, c) := by
  rw [← hfree]
  rfl

lemma depthOf_outside : depthOf caller caller c = (.ok 0, c) := by
  rw [depthOf, Action.bind_apply_ok (activeOf_outside hfree)]
  rfl

/-- A unit of work of a caller outside ends the transactions of its attempts. -/
lemma managed_leaves {α : Type} (mode : AccessMode) (work : Work α) :
    ∃ (r : Except Halt α) (after : Client Script), managed mode work.play caller c = (r, after) ∧
      ∃ events, c.Leaves events after := by
  rw [managed_outside (depthOf_outside hfree)]
  refine retrying_leaves (fun k mid => ?_) c
  obtain ⟨r, after, hrun, a, -, -, hleaves⟩ := attemptUnit_spec mode work k caller mid
  exact ⟨r, after, hrun, a.events mode, hleaves⟩

/-- A statement of a caller outside is run on its own, or in a transaction that is ended. -/
lemma statement_leaves (q : Query) (mode : AccessMode) :
    ∃ (r : Except Halt (List Row)) (after : Client Script),
      statement q mode caller c = (r, after) ∧ ∃ events, c.Leaves events after := by
  rw [statement.eq_def, Action.bind_apply_ok (Action.read_apply caller c),
    Action.bind_apply_ok (depthOf_outside hfree), if_neg (lt_irrefl 0)]
  cases mode with
  | read => exact retrying_leaves (fun _ mid => execute_leaves q .read caller mid) c
  | write =>
      have hplay : (fun handle : Handle => handle.run q) =
          (Work.run q .finish : Work (List Row)).play := by
        funext handle
        rw [Work.play]
        exact (Action.attempted_bind_ofExcept _).symm
      dsimp only
      rw [write, hplay]
      exact managed_leaves hfree .write _

end Outside

/-! ### Single turns -/

/-- An action of which only the end counts. -/
lemma ignored_apply {α : Type} {a : Action Script α} {caller : Owner} {c after : Client Script}
    {r : Except Halt α} (h : a caller c = (r, after)) :
    (do let _ ← a : Action Script Unit) caller c = (r.map fun _ => (), after) := by
  rw [Action.bind_apply, h]
  cases r <;> rfl

/-- A turn that advances the caller, who keeps to what it owns. -/
def Takes (caller : Owner) (start : Client Script) (past : List Script.Event) (c : Client Script)
    (s : Option ActiveTransaction) (turn : Turn) : Prop :=
  ∃ (result : Except Halt Unit) (dooms : Bool) (events : List Script.Event)
    (after : Client Script) (s' : Option ActiveTransaction),
    turn.play caller c = (result, after) ∧ Advances c s turn result dooms events after s' ∧
      Owns caller start (past ++ events) after s'

section Turns

variable {caller : Owner} {start c : Client Script} {past : List Script.Event}
  {t : ActiveTransaction} (hfree : start.active.lookup caller = none)
include hfree

lemma begin_outside (mode : AccessMode) (h : Owns caller start past c none) :
    Takes caller start past c none (.begin mode) := by
  have hserial : (freshSerial : Action Script ℕ) caller c =
      (.ok c.nextSerial, { c with nextSerial := c.nextSerial + 1 }) := rfl
  have hrun : begin mode caller c = openFor caller c.nextSerial mode 1 1 caller
      { c with nextSerial := c.nextSerial + 1 } := by
    rw [begin, Action.bind_apply_ok (Action.read_apply caller c),
      Action.bind_apply_ok (activeOf_outside (h.free hfree))]
    exact Action.bind_apply_ok hserial
  obtain ⟨r, after, hopen, hopened⟩ := openFor_spec Unit caller c.nextSerial mode 1 1 caller
    { c with nextSerial := c.nextSerial + 1 }
  obtain halt | ⟨⟨⟩⟩ := r
  · obtain ⟨a, -, -, hrefused, hleaves⟩ := hopened
    obtain rfl := hrefused (h.free hfree)
    have haside : c.Aside { c with nextSerial := c.nextSerial + 1 } := ⟨.refl _, rfl, rfl⟩
    exact ⟨_, _, _, after, none, hrun.trans hopen, .refused mode halt after,
      h.leaves ((haside.leaves (.refl _)).append hleaves)⟩
  · obtain ⟨session, t, hcontext, hsound, htransaction, hinside, hlog, hnext, -, hheld⟩ := hopened
    have hactive : c.active = start.active := h.active.trans (List.append_nil _)
    refine ⟨_, _, _, after, some t, hrun.trans hopen, .opened session hcontext hsound,
      h.passes.append ⟨hlog, hnext.symm ▸ Nat.le_succ _, fun t' ht' => ?_, ?_, ?_⟩, ?_, ?_, ?_⟩
    · obtain rfl : t' = t.transaction := List.mem_singleton.mp ht'
      rw [htransaction, hnext]
      exact ⟨le_refl _, Nat.lt_succ_self _⟩
    · exact List.nodup_singleton _
    · exact .refl _
    · rw [← hactive]
      exact hinside.active
    · rintro _ ⟨rfl⟩
      exact hinside.deep
    · obtain ⟨hgeneration, p, hp, hnone⟩ := hheld
      exact ⟨hgeneration, p, hp, Monitor.NoneHeld.trans h.sessions hnone⟩

/-- The transaction of a caller inside is changed without asking the engine. -/
lemma modifyActive_owned (h : Owns caller start past c (some t))
    (f : ActiveTransaction → ActiveTransaction) (hdeep : 0 < (f t).depth)
    (htransaction : (f t).transaction = t.transaction) (hlease : (f t).lease = t.lease) :
    ∃ after : Client Script, modifyActive caller t.serial f caller c = (.ok (), after) ∧
      after.engine = c.engine ∧ Owns caller start (past ++ []) after (some (f t)) := by
  obtain ⟨after, hrun, hworked, hinside⟩ :=
    Inside.modifyActive (h.inside hfree) f hdeep
  have hengine : c.engine = after.engine := congrArg (·.2.engine) hrun
  exact ⟨after, hrun, hengine.symm, h.worked (hworked _) hinside htransaction hlease⟩

lemma begin_inside (mode : AccessMode) (h : Owns caller start past c (some t)) :
    Takes caller start past c (some t) (.begin mode) := by
  obtain ⟨after, hrun, hengine, howns⟩ :=
    modifyActive_owned hfree h .enter (Nat.succ_pos _) rfl rfl
  refine ⟨_, _, [], after, some t.enter, ?_, .deeper mode hengine, howns⟩
  rw [Turn.play, begin, Action.bind_apply_ok (Action.read_apply caller c),
    Action.bind_apply_ok (h.inside hfree).activeOf]
  dsimp only
  rw [if_pos (h.inside hfree).deep]
  exact hrun

lemma commit_outside (h : Owns caller start past c none) :
    Takes caller start past c none .commit := by
  refine ⟨_, _, [], c, none, ?_, .commitOutside, by rwa [List.append_nil]⟩
  rw [Turn.play, commit, Action.bind_apply_ok (Action.read_apply caller c),
    Action.bind_apply_ok (activeOf_outside (h.free hfree))]
  rfl

lemma rollback_outside (h : Owns caller start past c none) :
    Takes caller start past c none .rollback := by
  refine ⟨_, _, [], c, none, ?_, .rollbackOutside, by rwa [List.append_nil]⟩
  rw [Turn.play, rollback, Action.bind_apply_ok (Action.read_apply caller c),
    Action.bind_apply_ok (activeOf_outside (h.free hfree))]
  rfl

/-- A commit goes one level up, and ends the transaction at the outermost. -/
lemma commit_inside (h : Owns caller start past c (some t)) :
    Takes caller start past c (some t) .commit := by
  have hdeep := (h.inside hfree).deep
  have hcommit : commit caller c = (if 1 < t.depth then
      modifyActive caller t.serial fun t => { t with depth := t.depth - 1 }
      else finishCommit caller : Action Script Unit) caller c := by
    rw [commit, Action.bind_apply_ok (Action.read_apply caller c),
      Action.bind_apply_ok (h.inside hfree).activeOf]
  by_cases hinner : 1 < t.depth
  · obtain ⟨after, hrun, hengine, howns⟩ := modifyActive_owned hfree h
      (fun t => { t with depth := t.depth - 1 }) (Nat.sub_pos_of_lt hinner) rfl rfl
    refine ⟨_, _, [], after, some (t.leave false), ?_, .innerCommit hinner hengine, ?_⟩
    · rw [Turn.play, hcommit, if_pos hinner]
      exact hrun
    · rw [ActiveTransaction.leave, Bool.or_false]
      exact howns
  · obtain ⟨failure, r, after, hrun, hok, hclosed⟩ :=
      finishCommit_spec (h.inside hfree) h.sessions caller
    refine ⟨_, _, _, after, none, ?_, .outerCommit (by omega) hok, h.closed hclosed ?_ ?_⟩
    · rw [Turn.play, hcommit, if_neg hinner]
      exact hrun
    · cases t.rollbackOnly <;> rfl
    · cases t.rollbackOnly <;> rfl

/-- A rollback goes one level up, and ends the transaction at the outermost. -/
lemma rollback_inside (h : Owns caller start past c (some t)) :
    Takes caller start past c (some t) .rollback := by
  have hdeep := (h.inside hfree).deep
  have hrollback : rollback caller c = (if 1 < t.depth then
      modifyActive caller t.serial fun t => { t with depth := t.depth - 1, rollbackOnly := true }
      else finishRollback caller : Action Script Unit) caller c := by
    rw [rollback, Action.bind_apply_ok (Action.read_apply caller c),
      Action.bind_apply_ok (h.inside hfree).activeOf]
  by_cases hinner : 1 < t.depth
  · obtain ⟨after, hrun, hengine, howns⟩ := modifyActive_owned hfree h
      (fun t => { t with depth := t.depth - 1, rollbackOnly := true }) (Nat.sub_pos_of_lt hinner)
      rfl rfl
    refine ⟨_, _, [], after, some (t.leave true), ?_, .innerRollback hinner hengine, ?_⟩
    · rw [Turn.play, hrollback, if_pos hinner]
      exact hrun
    · rw [ActiveTransaction.leave, Bool.or_true]
      exact howns
  · obtain ⟨failure, r, after, hrun, hok, hclosed⟩ :=
      finishRollback_spec (h.inside hfree) h.sessions caller
    refine ⟨_, _, _, after, none, ?_, .outerRollback (by omega) hok, h.closed hclosed rfl rfl⟩
    rw [Turn.play, hrollback, if_neg hinner]
    exact hrun

/-- A statement inside the transaction runs there. -/
lemma statement_inside (q : Query) (mode : AccessMode) (h : Owns caller start past c (some t)) :
    Takes caller start past c (some t) (.statement q mode) := by
  obtain ⟨_, _, answer, after, hrun, ⟨rfl, rfl⟩, hworked, hinside⟩ :=
    statement_spec q mode (h.inside hfree)
  rw [ActiveTransaction.doom_false] at hinside
  exact ⟨_, _, _, after, some t, ignored_apply hrun, .inside q mode answer,
    h.worked hworked hinside rfl rfl⟩

/-- A unit of work inside the transaction is nested there. -/
lemma unit_inside {α : Type} (mode : AccessMode) (work : Work α)
    (h : Owns caller start past c (some t)) :
    Takes caller start past c (some t) (.unit mode work) := by
  obtain ⟨statements, _, result, after, hrun, ⟨doomed, hruns, rfl⟩, hworked, hinside⟩ :=
    managed_spec mode (h.inside hfree) fun _ hdeep => work.play_spec hdeep
  exact ⟨_, _, _, after, _, ignored_apply hrun, .nested mode hruns,
    h.worked hworked hinside rfl rfl⟩

/-- **Every turn** advances the caller, who then owns just the transaction that it is in. -/
theorem turn_spec (turn : Turn) {s : Option ActiveTransaction} (h : Owns caller start past c s) :
    Takes caller start past c s turn := by
  cases s with
  | none =>
      cases turn with
      | begin mode => exact begin_outside hfree mode h
      | commit => exact commit_outside hfree h
      | rollback => exact rollback_outside hfree h
      | statement q mode =>
          obtain ⟨r, after, hrun, events, hleaves⟩ := statement_leaves (h.free hfree) q mode
          exact ⟨_, _, events, after, none, ignored_apply hrun, .statementOutside q mode _ hleaves,
            h.leaves hleaves⟩
      | unit mode work =>
          obtain ⟨r, after, hrun, events, hleaves⟩ := managed_leaves (h.free hfree) mode work
          exact ⟨_, _, events, after, none, ignored_apply hrun, .unitOutside mode work _ hleaves,
            h.leaves hleaves⟩
  | some t =>
      cases turn with
      | begin mode => exact begin_inside hfree mode h
      | commit => exact commit_inside hfree h
      | rollback => exact rollback_inside hfree h
      | statement q mode => exact statement_inside hfree q mode h
      | unit mode work => exact unit_inside hfree mode work h

end Turns

/-! ### Sequences of turns -/

section Courses

variable {caller : Owner} {start c after : Client Script} {turns : List Turn}
  {results : List (Except Halt Unit)} {doomed : List Bool} {events : List Script.Event}

/-- One turn that leaves the caller in a transaction began it, or dooms it if it fails. -/
lemma Advances.stays {before : Client Script} {s : Option ActiveTransaction} {t : ActiveTransaction}
    {turn : Turn} {result : Except Halt Unit} {dooms : Bool}
    (h : Advances before s turn result dooms events after (some t)) :
    (∃ t₀, s = some t₀ ∧ t.transaction = t₀.transaction ∧
        t.rollbackOnly = (t₀.rollbackOnly || dooms)) ∨
      (s = none ∧ dooms = false ∧ t.rollbackOnly = false ∧ result = .ok () ∧
        ∃ mode, turn = .begin mode) := by
  cases h with
  | opened session hcontext hsound => exact .inr ⟨rfl, rfl, hsound, rfl, _, rfl⟩
  | deeper => exact .inl ⟨_, rfl, rfl, (Bool.or_false _).symm⟩
  | innerCommit => exact .inl ⟨_, rfl, rfl, rfl⟩
  | innerRollback => exact .inl ⟨_, rfl, rfl, rfl⟩
  | inside => exact .inl ⟨_, rfl, rfl, (Bool.or_false _).symm⟩
  | nested => exact .inl ⟨_, rfl, rfl, rfl⟩

/-- The transaction that a caller is in after turns is the one it was in before, doomed by what
failed in them, or was begun in them. -/
lemma Course.since {s s' : Option ActiveTransaction} {t : ActiveTransaction}
    (h : Course caller c s turns results doomed events after s') (hs' : s' = some t) :
    (∃ t₀, s = some t₀ ∧ t.transaction = t₀.transaction ∧
        t.rollbackOnly = (t₀.rollbackOnly || doomed.any id)) ∨
      BegunSince caller c s turns doomed after t := by
  induction h with
  | done c s => exact .inl ⟨t, hs', rfl, (Bool.or_false _).symm⟩
  | turn hrun hadvances hrest ih =>
      obtain ⟨t₁, rfl, htransaction, hmark⟩ | hbegun := ih hs'
      · obtain ⟨t₀, rfl, htransaction', hmark'⟩ | ⟨rfl, rfl, hsound, rfl, mode, rfl⟩ :=
          hadvances.stays
        · refine .inl ⟨t₀, rfl, htransaction.trans htransaction', ?_⟩
          rw [hmark, hmark', List.any_cons, Bool.or_assoc]
          rfl
        · refine .inr ⟨[], _, mode, [], _, [], _, [], _, _, _, _, t₁, rfl, rfl, .done _ _, hrun,
            hadvances, hs' ▸ hrest, htransaction, ?_⟩
          rw [hmark, hsound, Bool.false_or]
      · obtain ⟨earlier, since, mode, past, marks, results, results', events, begun, events',
          outside, opened, t₀, rfl, rfl, hearlier, hbegin⟩ := hbegun
        exact .inr ⟨_ :: earlier, since, mode, _ :: past, marks, _ :: results, results', _, begun,
          events', outside, opened, t₀, rfl, rfl, .turn hrun hadvances hearlier, hbegin⟩

/-- Turns one after the other keep what the caller owns. -/
lemma course_spec (hfree : start.active.lookup caller = none) (turns : List Turn)
    {c : Client Script} {past : List Script.Event} {s : Option ActiveTransaction}
    (h : Owns caller start past c s) :
    ∃ (results : List (Except Halt Unit)) (doomed : List Bool) (events : List Script.Event)
      (after : Client Script) (s' : Option ActiveTransaction),
      Course caller c s turns results doomed events after s' ∧
        Owns caller start (past ++ events) after s' := by
  induction turns generalizing c past s with
  | nil => exact ⟨[], [], [], c, s, .done c s, by rwa [List.append_nil]⟩
  | cons turn turns ih =>
      obtain ⟨result, dooms, first, mid, s', hrun, hadvances, howns⟩ := turn_spec hfree turn h
      obtain ⟨results, doomed, rest, after, s'', hcourse, howns'⟩ := ih howns
      rw [List.append_assoc] at howns'
      exact ⟨_, _, _, after, s'', .turn hrun hadvances hcourse, howns'⟩

end Courses

/-- The outermost commit after an inner rollback fails, and the engine rolls back. -/
example :
    ((do begin .write; begin .write; rollback; commit : Action Script Unit) (.task none)
      (unlucky [])).1 = .error (.failed (.transaction .rolledBackWithin)) := by
  decide +kernel

end Client

end GraphMapper
