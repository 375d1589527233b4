import GraphMapper.Client.Relations
import GraphMapper.Engine.Script
import GraphMapper.Proofs.Scope.Operation
import GraphMapper.Proofs.Unit.Action

/-!
What a client asks an engine for.

* `Script.Minds`: an engine that was asked for statements of a kind only, and whose failures to come are
  not for want of a pivot;
* `Script.Answers`: calls that keep it so;
* `Asks`: actions that keep it so, with what they come to;
* `Asks.managed`: a unit of work asks for what its work asks for.
-/

namespace GraphMapper

/-! ### The engine -/

namespace Script

/-- The statement that an event is about. -/
def Event.statement? : Event → Option Query
  | .execute _ _ q _ | .run _ q _ => some q
  | .connect _ _ _ _ | .start _ _ _ _ | .close _ | .commit _ _ | .rollback _ _ => none

/-- **An engine that minds statements**: it was asked for such statements only, and none of its failures
to come is for want of a pivot. -/
structure Minds (P : Query → Prop) (s : Script) : Prop where
  asked : ∀ event ∈ s.events, ∀ q, event.statement? = some q → P q
  failures : ∀ f ∈ s.failures, ¬ f.2.WantsPivot

variable {α β : Type} {P : Query → Prop} {Q : α → Prop} {R : β → Prop}

/-- A call that asks for such statements only, and comes to a result as stated. -/
def Answers (P : Query → Prop) (m : StateM Script α) (Q : α → Prop) : Prop :=
  ∀ s, s.Minds P → (m s).2.Minds P ∧ Q (m s).1

lemma answers_pure {a : α} (h : Q a) : Answers P (pure a) Q :=
  fun _ hs => ⟨hs, h⟩

lemma Answers.bind {m : StateM Script α} {f : α → StateM Script β} (h : Answers P m Q)
    (hf : ∀ a, Q a → Answers P (f a) R) : Answers P (m >>= f) R := fun s hs =>
  hf _ (h s hs).2 _ (h s hs).1

lemma answers_get : Answers P get fun _ => True :=
  fun _ hs => ⟨hs, trivial⟩

/-- A change of neither the events nor the failures. -/
lemma answers_modify {f : Script → Script}
    (h : ∀ s, (f s).events = s.events ∧ (f s).failures = s.failures) :
    Answers P (modify f) fun _ => True := fun s hs =>
  ⟨⟨fun event he => hs.asked event ((h s).1 ▸ he), fun e he => hs.failures e ((h s).2 ▸ he)⟩,
    trivial⟩

lemma answers_note {event : Event} (h : ∀ q, event.statement? = some q → P q) :
    Answers P (note event) fun _ => True := fun _ hs =>
  ⟨⟨List.forall_mem_cons.mpr ⟨h, hs.asked⟩, hs.failures⟩, trivial⟩

/-- A failure that is taken, and those that are left, were prepared. -/
lemma takeFailure_subset (point : Point) (failures : List (Point × Error)) :
    (∀ e, (takeFailure point failures).1 = some e → ∃ p, (p, e) ∈ failures) ∧
      (takeFailure point failures).2 ⊆ failures := by
  induction failures with
  | nil => simp [takeFailure]
  | cons f rest ih =>
      obtain ⟨other, e⟩ := f
      rw [takeFailure]
      split_ifs
      · exact ⟨fun e' he => ⟨other, by simp_all⟩, List.subset_cons_self _ _⟩
      · refine ⟨fun e' he => ?_, List.cons_subset_cons _ ih.2⟩
        obtain ⟨p, hp⟩ := ih.1 e' he
        exact ⟨p, List.mem_cons_of_mem _ hp⟩

lemma answers_failure (point : Point) :
    Answers P (failure point) fun failed => ∀ e, failed = some e → ¬ e.WantsPivot := by
  intro s hs
  obtain ⟨htaken, hleft⟩ := takeFailure_subset point s.failures
  refine ⟨⟨hs.asked, fun f hf => hs.failures f (hleft hf)⟩, fun e he => ?_⟩
  obtain ⟨p, hp⟩ := htaken e he
  exact hs.failures _ hp

/-- The result of a call that fails as it was prepared to. -/
lemma answers_answer {failed : Option Error} (h : ∀ e, failed = some e → ¬ e.WantsPivot)
    (q : Query) : Answers P (answer q failed) (Yields · fun _ => True) := by
  cases failed with
  | some e => exact answers_pure (h e rfl)
  | none => exact fun _ hs => ⟨⟨hs.asked, hs.failures⟩, trivial⟩

lemma yields_outcome {failed : Option Error} (h : ∀ e, failed = some e → ¬ e.WantsPivot) :
    Yields (outcome failed) fun _ => True := by
  cases failed with
  | some e => exact h e rfl
  | none => trivial

/-! ### Calls -/

/-- A failure that is not about a relation. -/
lemma not_wantsPivot_stale (text : String) : ¬ (Error.stale text).WantsPivot := by
  simp [Error.WantsPivot]

lemma answers_connect (settings : Settings) :
    Answers P (connect settings) (Yields · fun _ => True) := by
  refine (answers_failure .connect).bind fun failed hfailed => answers_get.bind fun s _ => ?_
  refine (answers_note (by simp [Event.statement?])).bind fun _ _ => ?_
  cases failed with
  | some e => exact answers_pure (hfailed e rfl)
  | none =>
      dsimp only
      split_ifs
      · exact answers_pure (by simp [Yields, Error.WantsPivot])
      · refine Answers.bind (answers_modify (by simp)) fun _ _ => ?_
        exact answers_pure trivial

lemma answers_start (session : SessionId) (mode : AccessMode) :
    Answers P (start session mode) (Yields · fun _ => True) := by
  refine answers_get.bind fun s _ => ?_
  split_ifs
  · exact answers_pure (not_wantsPivot_stale _)
  · refine (answers_failure .start).bind fun failed hfailed => ?_
    refine (answers_note (by simp [Event.statement?])).bind fun _ _ => ?_
    cases failed with
    | some e => exact answers_pure (hfailed e rfl)
    | none =>
        refine Answers.bind (answers_modify (by simp)) fun _ _ => ?_
        exact answers_pure trivial

lemma answers_close (session : SessionId) : Answers P (close session) fun _ => True :=
  (answers_note (by simp [Event.statement?])).bind fun _ _ => answers_modify fun _ => ⟨rfl, rfl⟩

lemma answers_run (transaction : TransactionId) {q : Query} (hq : P q) :
    Answers P (run transaction q) (Yields · fun _ => True) := by
  refine (answers_failure .execute).bind fun failed hfailed => ?_
  refine (answers_note fun q' hq' => ?_).bind fun _ _ => answers_answer hfailed q
  exact Option.some.inj hq' ▸ hq

lemma answers_commit (transaction : TransactionId) :
    Answers P (commit transaction) (Yields · fun _ => True) :=
  (answers_failure .commit).bind fun _ hfailed =>
    (answers_note (by simp [Event.statement?])).bind fun _ _ =>
      answers_pure (yields_outcome hfailed)

lemma answers_rollback (transaction : TransactionId) :
    Answers P (rollback transaction) (Yields · fun _ => True) :=
  (answers_failure .rollback).bind fun _ hfailed =>
    (answers_note (by simp [Event.statement?])).bind fun _ _ =>
      answers_pure (yields_outcome hfailed)

lemma answers_clock : Answers P (Engine.clock : StateM Script String) fun _ => True :=
  answers_get.bind fun _ _ => answers_pure trivial

end Script

/-! ### Pools -/

namespace Pool

open Script (Answers answers_pure answers_connect answers_close)

variable {P : Query → Prop}

lemma answers_warmUp (n : ℕ) (p : Pool) :
    Answers P (warmUp n p : StateM Script (Except Error Pool)) (Yields · fun _ => True) := by
  induction n generalizing p with
  | zero => exact answers_pure trivial
  | succ n ih =>
      refine (answers_connect p.settings).bind fun r hr => ?_
      cases r with
      | error e => exact answers_pure hr
      | ok session => exact ih _

lemma answers_acquire (p : Pool) :
    Answers P (acquire p : StateM Script (Checkout × Pool))
      fun r => ∀ e, r.1 = .refused e → ¬ e.WantsPivot := by
  rw [acquire]
  split_ifs
  · refine answers_pure fun e he => ?_
    obtain rfl := Checkout.refused.inj he
    exact Script.not_wantsPivot_stale _
  · cases p.reserve? with
    | none => exact answers_pure nofun
    | some reserved =>
        dsimp only
        cases reserved.takeIdle? with
        | some found => exact answers_pure nofun
        | none =>
            refine (answers_connect p.settings).bind fun r hr => ?_
            cases r with
            | error e =>
                refine answers_pure fun e' he => ?_
                obtain rfl := Checkout.refused.inj he
                exact hr
            | ok session => exact answers_pure nofun

/-- Sessions that are closed one after the other. -/
lemma answers_closeAll (sessions : List SessionId) :
    Answers P (sessions.forM Engine.close : StateM Script PUnit) fun _ => True := by
  induction sessions with
  | nil => exact answers_pure trivial
  | cons session rest ih => exact (answers_close session).bind fun _ _ => ih

lemma answers_shut (p : Pool) :
    Answers P (close p : StateM Script Pool) fun _ => True :=
  (answers_closeAll _).bind fun _ _ => answers_pure trivial

end Pool

/-! ### Actions -/

variable {α β : Type} {P : Query → Prop} {Q : α → Prop} {R : β → Prop}

/-- What an action comes to: a result as stated, or a failure that is not for want of a pivot. -/
def Ends (r : Except Halt α) (Q : α → Prop) : Prop :=
  match r with
  | .ok a => Q a
  | .error (.failed e) => ¬ e.WantsPivot
  | .error .waiting => True

/-- **An action that asks for statements of a kind only**, and never fails for want of a pivot. -/
def Asks (P : Query → Prop) (a : Action Script α) (Q : α → Prop) : Prop :=
  ∀ caller c, c.engine.Minds P → (a caller c).2.engine.Minds P ∧ Ends (a caller c).1 Q

namespace Asks

variable {a : Action Script α}

lemma result {x : α} (h : Q x) : Asks P (pure x) Q :=
  fun _ _ hc => ⟨hc, h⟩

lemma bind {f : α → Action Script β} (h : Asks P a Q) (hf : ∀ x, Q x → Asks P (f x) R) :
    Asks P (a >>= f) R := fun caller c hc => by
  obtain ⟨hafter, hends⟩ := h caller c hc
  rw [Action.bind_apply]
  rcases hr : a caller c with ⟨(e | _) | x, after⟩
  · rw [hr] at hafter hends
    exact ⟨hafter, hends⟩
  · rw [hr] at hafter
    exact ⟨hafter, trivial⟩
  · rw [hr] at hafter hends
    exact hf x hends caller after hafter

lemma fail {e : Error} (h : ¬ e.WantsPivot) : Asks P (Action.fail e : Action Script α) Q :=
  fun _ _ hc => ⟨hc, h⟩

lemma ofExcept {r : Except Error α} (h : Yields r Q) : Asks P (Action.ofExcept r) Q := by
  cases r with
  | error e => exact fail h
  | ok x => exact result h

lemma getting : Asks P (get : Action Script (Client Script)) fun _ => True :=
  fun _ _ hc => ⟨hc, trivial⟩

lemma caller : Asks P (read : Action Script Owner) fun _ => True :=
  fun _ _ hc => ⟨hc, trivial⟩

/-- A change of all but the engine. -/
lemma changing {f : Client Script → Client Script} (h : ∀ c, (f c).engine = c.engine) :
    Asks P (modify f : Action Script PUnit) fun _ => True := fun _ c hc =>
  ⟨by rw [Action.modify_apply, h]; exact hc, trivial⟩

/-- The failure of an action as its result. -/
lemma attempted (h : Asks P a Q) : Asks P (Action.attempted a) (Yields · Q) := fun caller c hc => by
  obtain ⟨hafter, hends⟩ := h caller c hc
  rw [Action.attempted]
  rcases hr : a caller c with ⟨(e | _) | x, after⟩ <;> rw [hr] at hafter hends
  · exact ⟨hafter, hends⟩
  · exact ⟨hafter, trivial⟩
  · exact ⟨hafter, hends⟩

lemma onBehalfOf (h : Asks P a Q) (owner : Owner) : Asks P (Action.onBehalfOf owner a) Q :=
  fun _ c hc => h owner c hc

lemma engine {m : StateM Script α} (h : Script.Answers P m Q) : Asks P (Action.engine m) Q :=
  fun _ c hc => h c.engine hc

lemma observe (e : Error) : Asks P (Action.observe e : Action Script Unit) fun _ => True :=
  changing fun c => by split_ifs <;> rfl

lemma observed {m : StateM Script (Except Error α)} (h : Script.Answers P m (Yields · Q)) :
    Asks P (Action.observed m) (Yields · Q) := by
  refine (engine h).bind fun r hr => ?_
  cases r with
  | ok x => exact result hr
  | error e => exact (observe e).bind fun _ _ => result hr

lemma monitor : Asks P (Action.monitor : Action Script Monitor) fun _ => True :=
  getting.bind fun _ _ => result trivial

lemma modifyMonitor (f : Monitor → Monitor) :
    Asks P (Action.modifyMonitor f : Action Script Unit) fun _ => True :=
  changing fun _ => rfl

lemma settle : Asks P (Action.settle : Action Script Unit) fun _ => True := fun _ c hc =>
  Pool.answers_closeAll c.returned c.engine hc

end Asks

/-! ### Sessions -/

namespace Client

variable {a : Action Script α}

lemma asks_ensurePool :
    Asks P (ensurePool : Action Script (Except Error Pool)) (Yields · fun _ => True) := by
  refine Asks.monitor.bind fun m _ => ?_
  cases m.pool with
  | some p => exact .result trivial
  | none =>
      refine (Asks.engine (Pool.answers_warmUp _ _)).bind fun r hr => ?_
      cases r with
      | error e => exact .result hr
      | ok p => exact (Asks.modifyMonitor _).bind fun _ _ => .result trivial

lemma asks_checkOut :
    Asks P (checkOut : Action Script (Except Error Lease)) (Yields · fun _ => True) := by
  refine asks_ensurePool.bind fun r hr => ?_
  cases r with
  | error e => exact .result hr
  | ok p =>
      refine (Asks.engine (Pool.answers_acquire p)).bind fun r hr => ?_
      obtain ⟨checkout, pool⟩ := r
      refine (Asks.modifyMonitor _).bind fun _ _ => ?_
      cases checkout with
      | session session => exact Asks.monitor.bind fun _ _ => .result trivial
      | refused e => exact .result (hr e rfl)
      | busy => exact fun _ _ hc => ⟨hc, trivial⟩

lemma asks_acquire : Asks P (acquire : Action Script Lease) fun _ => True := by
  refine asks_checkOut.bind fun r hr => ?_
  cases r with
  | error e => exact (Asks.observe e).bind fun _ _ => .fail hr
  | ok lease => exact .result trivial

lemma asks_release (lease : Lease) : Asks P (release lease : Action Script Unit) fun _ => True :=
  .changing fun _ => rfl

lemma asks_disconnect : Asks P (disconnect : Action Script Unit) fun _ => True := by
  refine Asks.monitor.bind fun m _ => ?_
  cases m.pool with
  | none => exact .result trivial
  | some p =>
      refine (Asks.modifyMonitor _).bind fun _ _ => ?_
      exact (Asks.engine (Pool.answers_shut p)).bind fun _ _ => .result trivial

lemma asks_reconnect : Asks P (reconnect : Action Script Unit) fun _ => True := by
  refine asks_disconnect.bind fun _ _ => Asks.monitor.bind fun m _ => ?_
  refine (Asks.engine (Pool.answers_warmUp _ _)).bind fun r hr => ?_
  cases r with
  | error e => exact .fail hr
  | ok p => exact Asks.modifyMonitor _

lemma asks_reconnectIfStale : Asks P (reconnectIfStale : Action Script Bool) fun _ => True := by
  refine Asks.monitor.bind fun m _ => ?_
  split_ifs
  · exact asks_reconnect.bind fun _ _ => .result trivial
  · exact .result trivial

/-! ### Transactions -/

/-- Misuse of transactions is not about relations. -/
lemma not_wantsPivot_transaction (cause : TransactionError) :
    ¬ (Error.transaction cause).WantsPivot := by
  simp [Error.WantsPivot]

lemma asks_activeOf (owner : Owner) :
    Asks P (activeOf owner : Action Script (Option ActiveTransaction)) fun _ => True :=
  Asks.getting.bind fun _ _ => .result trivial

lemma asks_depthOf (owner : Owner) : Asks P (depthOf owner : Action Script ℕ) fun _ => True :=
  (asks_activeOf owner).bind fun _ _ => .result trivial

lemma asks_takeActive (owner : Owner) :
    Asks P (takeActive owner : Action Script (Option ActiveTransaction)) fun _ => True :=
  (asks_activeOf owner).bind fun _ _ => (Asks.changing fun _ => rfl).bind fun _ _ => .result trivial

lemma asks_modifyActive (owner : Owner) (serial : ℕ) (f : ActiveTransaction → ActiveTransaction) :
    Asks P (modifyActive owner serial f : Action Script Unit) fun _ => True :=
  .changing fun _ => rfl

lemma asks_freshSerial : Asks P (freshSerial : Action Script ℕ) fun _ => True :=
  fun _ _ hc => ⟨hc, trivial⟩

lemma asks_openFor (owner : Owner) (serial : ℕ) (mode : AccessMode) (attempt total : ℕ) :
    Asks P (openFor owner serial mode attempt total : Action Script Unit) fun _ => True := by
  refine asks_acquire.bind fun lease _ => ?_
  refine (Asks.observed (Script.answers_start _ mode)).bind fun r hr => ?_
  cases r with
  | error e => exact (asks_release lease).bind fun _ _ => .fail hr
  | ok transaction =>
      refine (asks_activeOf owner).bind fun found _ => ?_
      cases found with
      | none => exact Asks.getting.bind fun _ _ => .changing fun _ => rfl
      | some t =>
          refine (Asks.engine (Script.answers_rollback transaction)).bind fun _ _ => ?_
          exact (asks_release lease).bind fun _ _ => .fail (not_wantsPivot_transaction _)

lemma asks_finishRollback (owner : Owner) :
    Asks P (finishRollback owner : Action Script Unit) fun _ => True := by
  refine (asks_takeActive owner).bind fun found _ => ?_
  cases found with
  | none => exact .fail (not_wantsPivot_transaction _)
  | some t =>
      refine (Asks.observed (Script.answers_rollback _)).bind fun r hr => ?_
      exact (asks_release t.lease).bind fun _ _ => .ofExcept hr

lemma asks_finishCommit (owner : Owner) :
    Asks P (finishCommit owner : Action Script Unit) fun _ => True := by
  refine (asks_takeActive owner).bind fun found _ => ?_
  cases found with
  | none => exact .fail (not_wantsPivot_transaction _)
  | some t =>
      dsimp only
      split_ifs
      · refine (Asks.observed (Script.answers_rollback _)).bind fun r hr => ?_
        refine (asks_release t.lease).bind fun _ _ => (Asks.ofExcept hr).bind fun _ _ => ?_
        exact .fail (not_wantsPivot_transaction _)
      · refine (Asks.observed (Script.answers_commit _)).bind fun r hr => ?_
        exact (asks_release t.lease).bind fun _ _ => .ofExcept hr

/-- A statement in a transaction. -/
lemma asks_runIn (owner : Owner) {q : Query} (hq : P q) :
    Asks P (runIn owner q : Action Script (List Row)) fun _ => True := by
  refine (asks_activeOf owner).bind fun found _ => ?_
  cases found with
  | none => exact .fail (not_wantsPivot_transaction _)
  | some t => exact (Asks.observed (Script.answers_run _ hq)).bind fun r hr => .ofExcept hr

/-! ### Units of work -/

lemma asks_betweenAttempts (e : Error) (k : ℕ) :
    Asks P (betweenAttempts e k : Action Script Unit) fun _ => True := by
  have hrest : Asks P (do
      if 0 < (← (MonadState.get : Action Script (Client Script))).policy.exponential k then
        Action.settle) fun _ => True := by
    refine Asks.getting.bind fun c _ => ?_
    split_ifs
    · exact Asks.settle
    · exact .result trivial
  rw [betweenAttempts]
  split_ifs
  · exact asks_reconnectIfStale.attempted.bind fun _ _ => hrest
  · exact hrest

lemma asks_retryFrom {attempt : ℕ → Action Script α} (h : ∀ k, Asks P (attempt k) Q) (more k : ℕ) :
    Asks P (retryFrom attempt more k) Q := by
  induction more generalizing k with
  | zero => exact h k
  | succ more ih =>
      refine (h k).attempted.bind fun r hr => ?_
      cases r with
      | ok x => exact .result hr
      | error e =>
          dsimp only
          split_ifs
          · exact (asks_betweenAttempts e k).bind fun _ _ => ih (k + 1)
          · exact .fail hr

lemma asks_retrying {attempt : ℕ → Action Script α} (h : ∀ k, Asks P (attempt k) Q) :
    Asks P (retrying attempt) Q :=
  Asks.getting.bind fun _ _ => asks_retryFrom h _ 1

variable {work : Handle → Action Script α}

lemma asks_attemptUnit (mode : AccessMode) (h : ∀ handle, Asks P (work handle) Q) (k : ℕ) :
    Asks P (attemptUnit mode work k) Q := by
  refine Asks.getting.bind fun c _ => asks_freshSerial.bind fun serial _ => ?_
  refine (asks_openFor _ serial mode k _).bind fun _ _ => ?_
  refine ((h _).onBehalfOf _).attempted.bind fun r hr => ?_
  cases r with
  | ok x => exact (asks_finishCommit _).bind fun _ _ => .result hr
  | error e => exact (asks_finishRollback _).attempted.bind fun _ _ => .fail hr

lemma asks_nestedUnit (owner : Owner) (h : ∀ handle, Asks P (work handle) Q) :
    Asks P (nestedUnit owner work) Q := by
  refine (asks_activeOf owner).bind fun found _ => ?_
  cases found with
  | none => exact .fail (not_wantsPivot_transaction _)
  | some t =>
      refine (asks_modifyActive owner t.serial _).bind fun _ _ => ?_
      refine (h ⟨owner⟩).attempted.bind fun r hr => ?_
      exact (asks_modifyActive owner t.serial _).bind fun _ _ => .ofExcept hr

/-- A unit of work asks for what its work asks for. -/
lemma asks_managed (mode : AccessMode) (h : ∀ handle, Asks P (work handle) Q) :
    Asks P (managed mode work) Q := by
  refine Asks.caller.bind fun caller _ => (asks_depthOf caller).bind fun depth _ => ?_
  split_ifs
  · exact asks_nestedUnit caller h
  · exact asks_retrying (asks_attemptUnit mode h)

lemma asks_write (h : ∀ handle, Asks P (work handle) Q) : Asks P (write work) Q :=
  asks_managed .write h

end Client

end GraphMapper
