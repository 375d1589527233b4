import GraphMapper.Proofs.Unit.Callers

/-!
What a client does for a caller is done in steps.

* `Proceeds`: a caller gets from one stage to another by steps of its own;
* `Client.openFor_proceeds`, `Client.finishCommit_proceeds`, `Client.execute_proceeds` and their neighbours:
  transactions are opened and ended, and statements run, in steps;
* `Client.begin_proceeds`, `Client.commit_proceeds`, `Client.rollback_proceeds`: by hand;
* `Work.play_stays`: a unit of work inside a transaction;
* `Action.Blind`: actions that are the same for all callers;
* `Client.attemptUnit_goes`: an attempt at a unit of work is made in steps of its caller and of the
  unit.
-/

namespace GraphMapper

open Client

/-- The caller gets from one stage to another by steps of its own. -/
inductive Proceeds (owner : Owner) : Stage → Client Script → Stage → Client Script → Prop where
  | stay (stage : Stage) (c : Client Script) : Proceeds owner stage c stage c
  | step {stage stage' stage'' : Stage} {c mid after : Client Script} (move : Move)
      (hplay : move.play owner stage c = some (stage', mid)) (h : Proceeds owner stage' mid stage'' after) :
      Proceeds owner stage c stage'' after

variable {owner caller : Owner} {stage stage' stage'' : Stage} {c mid after : Client Script}
  {t : ActiveTransaction}

lemma Proceeds.one (move : Move) (hplay : move.play owner stage c = some (stage', after)) :
    Proceeds owner stage c stage' after :=
  .step move hplay (.stay _ _)

lemma Proceeds.trans (h : Proceeds owner stage c stage' mid) (h' : Proceeds owner stage' mid stage'' after) :
    Proceeds owner stage c stage'' after := by
  induction h with
  | stay => exact h'
  | step move hplay _ ih => exact .step move hplay (ih h')

namespace Client

/-! ### Transactions -/

/-- A transaction is opened in steps, after which the caller is inside, or outside again. -/
lemma openFor_proceeds (serial : ℕ) (mode : AccessMode) (k total : ℕ)
    (hfree : c.active.lookup owner = none) :
    ∃ (r : Except Halt Unit) (after : Client Script),
      openFor owner serial mode k total owner c = (r, after) ∧
        Proceeds owner .outside c (if r.isOk then .inside else .outside) after := by
  obtain ⟨r, mid, hacquire, haside, -⟩ := acquire_spec owner c
  rw [openFor]
  cases r with
  | error halt =>
      refine ⟨_, mid, Action.bind_apply_error hacquire, .one .acquire ?_⟩
      rw [Move.play, hacquire]
      rfl
  | ok lease =>
      have hfirst : Move.acquire.play owner .outside c = some (.leased lease, mid) := by
        rw [Move.play, hacquire]
      obtain ⟨r, started, hstart, hkeeps, -⟩ := start_spec lease.session mode owner mid
      rw [Action.bind_apply_ok hacquire, Action.bind_apply_ok hstart]
      cases r with
      | error e =>
          have hsecond : (Move.start mode).play owner (.leased lease) mid =
              some (.returning lease, started) := by
            rw [Move.play, hstart]
          exact ⟨_, _, rfl, .step _ hfirst (.step _ hsecond (.one .release rfl))⟩
      | ok transaction =>
          have hsecond : (Move.start mode).play owner (.leased lease) mid =
              some (.begun lease transaction, started) := by
            rw [Move.play, hstart]
          have hnone : started.active.lookup owner = none := by
            rw [hkeeps.active, haside.active, hfree]
          dsimp only
          rw [Action.bind_apply_ok (activeOf_outside hnone)]
          refine ⟨_, _, rfl, .step _ hfirst (.step _ hsecond
            (.one (.enlist serial mode k total) ?_))⟩
          rw [Move.play, hnone]
          rfl

section Inside

variable (hentry : c.active.lookup owner = some t)
include hentry

lemma activeOf_entry : activeOf owner owner c = (.ok (some t), c) := by
  rw [← hentry]
  rfl

lemma takeActive_entry :
    takeActive owner owner c = (.ok (some t), (takeActive owner owner c).2) := by
  rw [takeActive, Action.bind_apply_ok (activeOf_entry hentry)]
  rfl

/-- A transaction is taken from its owner, ended at the engine, and its session given back. -/
lemma ending_proceeds (committing : Bool) (f : Except Error Unit → Action Script Unit)
    (hf : ∀ (r : Except Error Unit) (c : Client Script),
      ∃ r' : Except Error Unit, f r owner c = (r'.mapError .failed, c)) :
    ∃ (r : Except Error Unit) (after : Client Script),
      (do
        let result ← Action.observed (ending t.transaction (committing && !t.rollbackOnly))
        release t.lease
        f result) owner (takeActive owner owner c).2 = (r.mapError .failed, after) ∧
        Proceeds owner .inside c .outside after := by
  have hfirst : (Move.take committing).play owner .inside c =
      some (.ending t.lease t.transaction (committing && !t.rollbackOnly),
        (takeActive owner owner c).2) := by
    rw [Move.play, hentry]
    rfl
  obtain ⟨mid, hobserved, -, -⟩ := observed_spec owner (takeActive owner owner c).2
    (ending t.transaction (committing && !t.rollbackOnly))
  have hsecond : Move.finish.play owner
      (.ending t.lease t.transaction (committing && !t.rollbackOnly))
      (takeActive owner owner c).2 = some (.returning t.lease, mid) := by
    rw [Move.play, hobserved]
  rw [Action.bind_apply_ok hobserved]
  obtain ⟨r, hr⟩ := hf (ending t.transaction (committing && !t.rollbackOnly)
    (takeActive owner owner c).2.engine).1 (release t.lease owner mid).2
  exact ⟨r, _, hr, .step _ hfirst (.step _ hsecond (.one .release rfl))⟩

/-- A transaction is committed in steps, or rolled back if it is doomed. -/
lemma finishCommit_proceeds :
    ∃ (r : Except Error Unit) (after : Client Script),
      finishCommit owner owner c = (r.mapError .failed, after) ∧
        Proceeds owner .inside c .outside after := by
  rw [finishCommit, Action.bind_apply_ok (takeActive_entry hentry)]
  dsimp only
  split_ifs with hdoomed
  · obtain ⟨r, after, hrun, hproceeds⟩ := ending_proceeds hentry true
      (fun result => do
        Action.ofExcept result
        Action.fail (.transaction .rolledBackWithin))
      fun r c => by
        cases r with
        | ok => exact ⟨.error _, rfl⟩
        | error e => exact ⟨.error e, rfl⟩
    rw [hdoomed] at hrun
    exact ⟨r, after, hrun, hproceeds⟩
  · obtain ⟨r, after, hrun, hproceeds⟩ := ending_proceeds hentry true Action.ofExcept
      fun r c => ⟨r, Action.ofExcept_apply r owner c⟩
    rw [Bool.not_eq_true] at hdoomed
    rw [hdoomed] at hrun
    exact ⟨r, after, hrun, hproceeds⟩

/-- A transaction is rolled back in steps. -/
lemma finishRollback_proceeds :
    ∃ (r : Except Error Unit) (after : Client Script),
      finishRollback owner owner c = (r.mapError .failed, after) ∧
        Proceeds owner .inside c .outside after := by
  obtain ⟨r, after, hrun, hproceeds⟩ := ending_proceeds hentry false Action.ofExcept
    fun r c => ⟨r, Action.ofExcept_apply r owner c⟩
  refine ⟨r, after, ?_, hproceeds⟩
  rw [finishRollback, Action.bind_apply_ok (takeActive_entry hentry)]
  exact hrun

end Inside

/-- A statement on its own is run in steps. -/
lemma execute_proceeds (q : Query) (mode : AccessMode) :
    ∃ (r : Except Halt (List Row)) (after : Client Script),
      execute q mode owner c = (r, after) ∧ Proceeds owner .outside c .outside after := by
  obtain ⟨r, mid, hacquire, -, -⟩ := acquire_spec owner c
  rw [execute]
  cases r with
  | error halt =>
      refine ⟨_, mid, Action.bind_apply_error hacquire, .one .acquire ?_⟩
      rw [Move.play, hacquire]
  | ok lease =>
      have hfirst : Move.acquire.play owner .outside c = some (.leased lease, mid) := by
        rw [Move.play, hacquire]
      obtain ⟨ran, hobserved, -, -⟩ :=
        observed_spec owner mid (Engine.execute lease.session q mode)
      have hsecond : (Move.execute q mode).play owner (.leased lease) mid =
          some (.returning lease, ran) := by
        rw [Move.play, hobserved]
      rw [Action.bind_apply_ok hacquire, Action.bind_apply_ok hobserved]
      exact ⟨_, _, Action.ofExcept_apply _ owner (release lease owner ran).2,
        .step _ hfirst (.step _ hsecond (.one .release rfl))⟩

/-! ### By hand -/

/-- A caller outside begins a transaction in steps. -/
lemma begin_proceeds (mode : AccessMode) (hfree : c.active.lookup owner = none) :
    ∃ (r : Except Halt Unit) (after : Client Script), begin mode owner c = (r, after) ∧
      Proceeds owner .outside c (if r.isOk then .inside else .outside) after := by
  have hserial : (freshSerial : Action Script ℕ) owner c =
      (.ok c.nextSerial, { c with nextSerial := c.nextSerial + 1 }) := rfl
  have hfree' : ({ c with nextSerial := c.nextSerial + 1 } : Client Script).active.lookup owner =
      none := hfree
  obtain ⟨r, after, hopen, hproceeds⟩ := openFor_proceeds c.nextSerial mode 1 1 hfree'
  refine ⟨r, after, ?_, .step .number rfl hproceeds⟩
  rw [begin, Action.bind_apply_ok (Action.read_apply owner c),
    Action.bind_apply_ok (activeOf_outside hfree)]
  exact (Action.bind_apply_ok hserial).trans hopen

section Inside

variable (hentry : c.active.lookup owner = some t) (hdeep : 0 < t.depth)
include hentry

include hdeep in
/-- A caller inside goes deeper in one step. -/
lemma begin_inside_proceeds (mode : AccessMode) :
    ∃ after : Client Script, begin mode owner c = (.ok (), after) ∧
      Proceeds owner .inside c .inside after := by
  refine ⟨(modifyActive owner t.serial .enter owner c).2, ?_, .one .enter ?_⟩
  · rw [begin, Action.bind_apply_ok (Action.read_apply owner c),
      Action.bind_apply_ok (activeOf_entry hentry)]
    dsimp only
    rw [if_pos hdeep]
    rfl
  · rw [Move.play, hentry]
    rfl

/-- A caller inside goes one level up in one step, or commits in steps. -/
lemma commit_proceeds :
    ∃ (r : Except Error Unit) (after : Client Script), commit owner c = (r.mapError .failed, after) ∧
      Proceeds owner .inside c (if 1 < t.depth then .inside else .outside) after := by
  rw [commit, Action.bind_apply_ok (Action.read_apply owner c),
    Action.bind_apply_ok (activeOf_entry hentry)]
  dsimp only
  split_ifs with hinner
  · have hleave : (fun t : ActiveTransaction => { t with depth := t.depth - 1 }) = .leave false := by
      funext t
      rw [ActiveTransaction.leave, Bool.or_false]
    refine ⟨.ok (), _, rfl, .one (.leave false) ?_⟩
    rw [Move.play, hentry, Option.bind_some, if_pos hinner, ← hleave]
    rfl
  · exact finishCommit_proceeds hentry

lemma rollback_proceeds :
    ∃ (r : Except Error Unit) (after : Client Script),
      rollback owner c = (r.mapError .failed, after) ∧
        Proceeds owner .inside c (if 1 < t.depth then .inside else .outside) after := by
  rw [rollback, Action.bind_apply_ok (Action.read_apply owner c),
    Action.bind_apply_ok (activeOf_entry hentry)]
  dsimp only
  split_ifs with hinner
  · have hleave : (fun t : ActiveTransaction =>
        { t with depth := t.depth - 1, rollbackOnly := true }) = .leave true := by
      funext t
      rw [ActiveTransaction.leave, Bool.or_true]
    refine ⟨.ok (), _, rfl, .one (.leave true) ?_⟩
    rw [Move.play, hentry, Option.bind_some, if_pos hinner, ← hleave]
    rfl
  · exact finishRollback_proceeds hentry

end Inside

/-! ### Units of work -/

/-- An action of a caller inside that is done in steps, and leaves it as deep as it was. -/
def Stays {α : Type} (a : Action Script α) (owner : Owner) (t : ActiveTransaction) (c : Client Script) :
    Prop :=
  ∃ (r : Except Error α) (after : Client Script) (t' : ActiveTransaction),
    a owner c = (r.mapError .failed, after) ∧ Proceeds owner .inside c .inside after ∧
      after.active.lookup owner = some t' ∧ t'.depth = t.depth ∧ t'.serial = t.serial

section Stays

variable {α β : Type}

lemma Stays.andThen {a : Action Script β} {f : Except Error β → Action Script α}
    (ha : Stays a owner t c)
    (hf : ∀ r mid t', mid.active.lookup owner = some t' → t'.depth = t.depth →
      Stays (f r) owner t' mid) : Stays (Action.attempted a >>= f) owner t c := by
  obtain ⟨r, mid, t', hrun, hproceeds, hentry, hdepth, hserial⟩ := ha
  obtain ⟨r', after, t'', hrun', hproceeds', hentry', hdepth', hserial'⟩ := hf r mid t' hentry hdepth
  refine ⟨r', after, t'', ?_, hproceeds.trans hproceeds', hentry', hdepth'.trans hdepth,
    hserial'.trans hserial⟩
  rw [Action.bind_apply_ok (Action.attempted_apply_ok hrun), hrun']

variable (hentry : c.active.lookup owner = some t)
include hentry

lemma stays_of_result (r : Except Error α) : Stays (Action.ofExcept r) owner t c :=
  ⟨r, c, t, Action.ofExcept_apply r owner c, .stay _ _, hentry, rfl, rfl⟩

/-- A statement is run in the transaction that the client has for the caller. -/
lemma runIn_entry (q : Query) :
    ∃ after : Client Script,
      Action.observed (Engine.run t.transaction q) owner c =
        (.ok (Engine.run t.transaction q c.engine).1, after) ∧
      runIn owner q owner c =
        ((Engine.run t.transaction q c.engine).1.mapError .failed, after) ∧
      after.engine = (Engine.run t.transaction q c.engine).2 ∧ after.active = c.active := by
  obtain ⟨after, hobserved, hengine, hkeeps⟩ :=
    observed_spec owner c (Engine.run t.transaction q)
  refine ⟨after, hobserved, ?_, hengine, hkeeps.active⟩
  rw [runIn, Action.bind_apply_ok (activeOf_entry hentry)]
  dsimp only
  rw [Action.bind_apply_ok hobserved, Action.ofExcept_apply]

/-- A statement in the transaction is run in steps. -/
lemma runIn_stays (q : Query) : Stays (runIn owner q) owner t c := by
  obtain ⟨after, hobserved, hrun, -, hactive⟩ := runIn_entry hentry q
  have hfirst : (Move.ask q).play owner .inside c = some (.asking t.transaction q, c) := by
    rw [Move.play, hentry]
    rfl
  have hsecond : Move.run.play owner (.asking t.transaction q) c = some (.inside, after) := by
    rw [Move.play, hobserved]
  exact ⟨_, after, t, hrun, .step _ hfirst (.one _ hsecond), hactive ▸ hentry, rfl, rfl⟩

lemma depthOf_entry : depthOf owner owner c = (.ok t.depth, c) := by
  rw [depthOf, Action.bind_apply_ok (activeOf_entry hentry)]
  rfl

/-- A managed unit of a caller inside is nested. -/
lemma managed_entry (hdeep : 0 < t.depth) (mode : AccessMode) (work : Handle → Action Script β) :
    managed mode work owner c = nestedUnit owner work owner c := by
  rw [managed, Action.bind_apply_ok (Action.read_apply owner c),
    Action.bind_apply_ok (depthOf_entry hentry), if_pos hdeep]

/-- The transaction that the client has for the caller, one level deeper. -/
lemma lookup_enter :
    (modifyActive owner t.serial .enter owner c).2.active.lookup owner = some t.enter := by
  rw [modifyActive_lookup, hentry, Option.map_some, if_pos ⟨rfl, rfl⟩]

/-- A nested unit of work is entered, run and left. -/
lemma nestedUnit_entry {work : Handle → Action Script β} {r : Except Error β}
    (hrun : work ⟨owner⟩ owner (modifyActive owner t.serial .enter owner c).2 =
      (r.mapError .failed, mid)) :
    nestedUnit owner work owner c =
      (r.mapError .failed, (modifyActive owner t.serial (.leave !r.isOk) owner mid).2) := by
  rw [nestedUnit, Action.bind_apply_ok (activeOf_entry hentry)]
  have henter : modifyActive owner t.serial (fun t => { t with depth := t.depth + 1 }) owner c =
      (.ok (), (modifyActive owner t.serial .enter owner c).2) := rfl
  dsimp only
  rw [Action.bind_apply_ok henter, Action.bind_apply_ok (Action.attempted_apply_ok hrun)]
  exact Action.ofExcept_apply r owner _

/-- A nested unit of work is entered and left in one step each. -/
lemma nestedUnit_stays {work : Handle → Action Script β} (hdeep : 0 < t.depth)
    (hwork : ∀ mid t', mid.active.lookup owner = some t' → 0 < t'.depth →
      Stays (work ⟨owner⟩) owner t' mid) : Stays (nestedUnit owner work) owner t c := by
  obtain ⟨r, mid, t', hrun, hproceeds, hentry', hdepth, hserial⟩ :=
    hwork _ t.enter (lookup_enter hentry) (Nat.succ_pos _)
  have hinner : 1 < t'.depth := by
    rw [hdepth]
    exact Nat.succ_lt_succ hdeep
  have hserial' : t'.serial = t.serial := hserial
  refine ⟨r, (modifyActive owner t.serial (.leave !r.isOk) owner mid).2, t'.leave !r.isOk,
    nestedUnit_entry hentry hrun, .step .enter ?_ (hproceeds.trans (.one (.leave !r.isOk) ?_)),
    ?_, ?_, hserial⟩
  · rw [Move.play, hentry]
    rfl
  · rw [Move.play, hentry', Option.bind_some, if_pos hinner, hserial']
  · rw [modifyActive_lookup, hentry', Option.map_some, if_pos ⟨rfl, hserial'⟩]
  · change t'.depth - 1 = t.depth
    rw [hdepth]
    rfl

end Stays

end Client

/-- **A unit of work inside a transaction** is done in steps of its owner. -/
lemma Work.play_stays {α : Type} (work : Work α) (hentry : c.active.lookup owner = some t)
    (hdeep : 0 < t.depth) : Stays (work.play ⟨owner⟩) owner t c := by
  induction work generalizing c t with
  | finish result => exact stays_of_result hentry result
  | run q next ih =>
      rw [Work.play]
      exact (runIn_stays hentry q).andThen fun r mid t' hentry' hdepth =>
        ih r hentry' (hdepth.symm ▸ hdeep)
  | statement q mode next ih =>
      have hrun : Client.statement q mode owner c = runIn owner q owner c := by
        rw [statement.eq_def, Action.bind_apply_ok (Action.read_apply owner c),
          Action.bind_apply_ok (depthOf_entry hentry), if_pos hdeep]
      have hstays : Stays (Client.statement q mode) owner t c := by
        rw [Stays, hrun]
        exact runIn_stays hentry q
      rw [Work.play]
      exact hstays.andThen fun r mid t' hentry' hdepth => ih r hentry' (hdepth.symm ▸ hdeep)
  | nested mode inner next ihinner ih =>
      have hstays : Stays (managed mode inner.play) owner t c := by
        rw [Stays, managed_entry hentry hdeep mode]
        exact nestedUnit_stays hentry hdeep fun mid t' hentry' hdeep' => ihinner hentry' hdeep'
      rw [Work.play]
      exact hstays.andThen fun r mid t' hentry' hdepth => ih r hentry' (hdepth.symm ▸ hdeep)
  | context next ih =>
      have hseen : contextOf owner owner c = (.ok (some t.context), c) := by
        rw [contextOf, Action.bind_apply_ok (activeOf_entry hentry)]
        simp only [Option.bind_some, if_pos hdeep]
        rfl
      obtain ⟨r, after, t', hrun, hrest⟩ := ih (some t.context) hentry hdeep
      exact ⟨r, after, t', (Action.bind_apply_ok hseen).trans hrun, hrest⟩

/-! ### Attempts -/

namespace Action

variable {α β : Type}

/-- An action that is the same whoever calls. -/
def Blind (a : Action Script α) : Prop :=
  ∀ caller caller' c, a caller c = a caller' c

lemma Blind.bind {a : Action Script α} {f : α → Action Script β} (ha : Blind a)
    (hf : ∀ x, Blind (f x)) : Blind (a >>= f) := fun caller caller' c => by
  rw [bind_apply, bind_apply, ha caller caller' c]
  obtain ⟨h | x, after⟩ := a caller' c
  · rfl
  · exact hf x caller caller' after

lemma blind_observed (m : StateM Script (Except Error α)) : Blind (observed m) :=
  fun caller caller' c => by rw [observed_apply, observed_apply]

lemma blind_ofExcept (r : Except Error α) : Blind (ofExcept r : Action Script α) :=
  fun caller caller' c => by rw [ofExcept_apply, ofExcept_apply]

end Action

namespace Client

open Action

lemma blind_ensurePool : Blind ensurePool := by
  refine Blind.bind (fun _ _ _ => rfl) fun m => ?_
  cases m.pool with
  | some p => exact fun _ _ _ => rfl
  | none =>
      refine Blind.bind (fun _ _ _ => rfl) fun r => ?_
      cases r <;> exact fun _ _ _ => rfl

lemma blind_acquire : Blind acquire := by
  have hcheck : Blind checkOut := by
    refine blind_ensurePool.bind fun r => ?_
    cases r with
    | error e => exact fun _ _ _ => rfl
    | ok p =>
        refine Blind.bind (fun _ _ _ => rfl) fun r => ?_
        obtain ⟨_ | e | _, q⟩ := r <;> exact fun _ _ _ => rfl
  refine hcheck.bind fun r => ?_
  cases r with
  | error e =>
      refine Blind.bind (fun caller caller' c => ?_) fun _ _ _ _ => rfl
      rw [observe_apply, observe_apply]
  | ok lease => exact fun _ _ _ => rfl

lemma blind_openFor (owner : Owner) (serial : ℕ) (mode : AccessMode) (k total : ℕ) :
    Blind (openFor owner serial mode k total) := by
  refine blind_acquire.bind fun lease => (blind_observed _).bind fun r => ?_
  cases r with
  | error e => exact fun _ _ _ => rfl
  | ok transaction =>
      refine Blind.bind (fun _ _ _ => rfl) fun found => ?_
      cases found <;> exact fun _ _ _ => rfl

lemma blind_finishCommit (owner : Owner) : Blind (finishCommit owner) := by
  refine Blind.bind (fun _ _ _ => rfl) fun found => ?_
  cases found with
  | none => exact fun _ _ _ => rfl
  | some t =>
      dsimp only
      split_ifs
      · exact (blind_observed _).bind fun r => Blind.bind (fun _ _ _ => rfl) fun _ =>
          (blind_ofExcept r).bind fun _ _ _ _ => rfl
      · exact (blind_observed _).bind fun r => Blind.bind (fun _ _ _ => rfl) fun _ =>
          blind_ofExcept r

lemma blind_finishRollback (owner : Owner) : Blind (finishRollback owner) := by
  refine Blind.bind (fun _ _ _ => rfl) fun found => ?_
  cases found with
  | none => exact fun _ _ _ => rfl
  | some t =>
      exact (blind_observed _).bind fun r => Blind.bind (fun _ _ _ => rfl) fun _ =>
        blind_ofExcept r

/-- **An attempt at a unit of work** is made in steps: its caller draws a number, and the unit of that
number opens a transaction, does its work inside and ends the transaction. -/
theorem attemptUnit_proceeds {α : Type} (mode : AccessMode) (work : Work α) (k : ℕ) (caller : Owner)
    (c : Client Script) (hfree : c.active.lookup (.unit c.nextSerial) = none) :
    ∃ numbered, Move.number.play caller .outside c = some (.outside, numbered) ∧
      Proceeds (.unit c.nextSerial) .outside numbered .outside
        (attemptUnit mode work.play k caller c).2 := by
  refine ⟨{ c with nextSerial := c.nextSerial + 1 }, rfl, ?_⟩
  have hfree' : ({ c with nextSerial := c.nextSerial + 1 } : Client Script).active.lookup
      (.unit c.nextSerial) = none := hfree
  obtain ⟨r, opened, hopen, hproceeds⟩ := openFor_proceeds c.nextSerial mode k
    c.policy.attempts hfree'
  rw [← blind_openFor _ _ _ _ _ caller] at hopen
  obtain ⟨r', opened', hopen', hopened⟩ := openFor_spec α (.unit c.nextSerial) c.nextSerial mode k
    c.policy.attempts caller { c with nextSerial := c.nextSerial + 1 }
  obtain ⟨rfl, rfl⟩ := Prod.mk.inj (hopen.symm.trans hopen')
  rw [attemptUnit_eq]
  obtain halt | ⟨⟨⟩⟩ := r
  · rw [Action.bind_apply_error hopen]
    exact hproceeds
  · obtain ⟨-, t, -, -, -, hinside, -⟩ := hopened
    have hentry : opened.active.lookup (.unit c.nextSerial) = some t := by
      rw [hinside.active, List.lookup_append, hinside.single, List.lookup_cons_self]
      rfl
    obtain ⟨result, mid, t', hrun, hworked, hentry', -, -⟩ := work.play_stays hentry hinside.deep
    have hattempted : Action.attempted (Action.onBehalfOf (.unit c.nextSerial)
        (work.play ⟨.unit c.nextSerial⟩)) caller opened = (.ok result, mid) :=
      Action.attempted_apply_ok hrun
    rw [Action.bind_apply_ok hopen, Action.bind_apply_ok hattempted]
    cases result with
    | ok x =>
        obtain ⟨r, after, hfinish, hended⟩ := finishCommit_proceeds hentry'
        rw [← blind_finishCommit _ caller] at hfinish
        have hafter : (conclude (.unit c.nextSerial) (.ok x) caller mid).2 = after := by
          rw [conclude, Action.bind_apply, hfinish]
          cases r <;> rfl
        exact hafter ▸ hproceeds.trans (hworked.trans hended)
    | error e =>
        obtain ⟨r, after, hfinish, hended⟩ := finishRollback_proceeds hentry'
        rw [← blind_finishRollback _ caller] at hfinish
        rw [conclude, Action.bind_apply_ok (Action.attempted_apply_ok hfinish), Action.fail_apply]
        exact hproceeds.trans (hworked.trans hended)

end Client

end GraphMapper
