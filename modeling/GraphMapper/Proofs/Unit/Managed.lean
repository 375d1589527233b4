import GraphMapper.Proofs.Unit.Attempt
import GraphMapper.Proofs.Unit.Retry

/-!
Managed units of work from outside.

* `Attempt.history`: what the engine is asked in several attempts;
* `Attempt.committed_history`, `Attempt.kept_history`: what they leave at the engine;
* `Client.Tried`, `Client.retryFrom_spec`: attempts that follow each other until one is committed or
  they are given up;
* `Client.Atomic`: a unit of work that is committed once or not at all, with nothing left behind;
* `Client.managed_atomic`: every managed unit of work is one.
-/

namespace GraphMapper

namespace Attempt

variable {α : Type}

/-! ### Several attempts -/

/-- What the engine was asked in attempts, one after the other. -/
def history (mode : AccessMode) (attempts : List (Attempt α)) : List Script.Event :=
  attempts.flatMap (events mode)

lemma begun_history (mode : AccessMode) (attempts : List (Attempt α)) :
    Script.begun (history mode attempts) = attempts.flatMap transactions := by
  rw [Script.begun, history, List.filterMap_flatMap]
  exact List.flatMap_congr fun a _ => begun_events mode a

/-- The statements of an attempt as the engine sees them. -/
def effects (a : Attempt α) : List (Query × Option Error) :=
  a.statements.map fun s => (s.1, Script.failureOf s.2)

lemma counted_closing (among : List TransactionId) (t : TransactionId) (committing : Bool)
    (failure : Option Error) :
    [closing t committing failure].filterMap (Script.Event.counted among) = [] := by
  cases committing <;> rfl

/-- What happens in a transaction that does not count does not either. -/
lemma counted_events_of_not_mem (mode : AccessMode) (a : Attempt α) {among : List TransactionId}
    (h : ∀ t ∈ a.transactions, t ∉ among) :
    (a.events mode).filterMap (Script.Event.counted among) = [] := by
  cases a with
  | refused => rfl
  | turnedAway => rfl
  | made session t statements doomed result committing failure =>
      have ht : t ∉ among := h t List.mem_cons_self
      rw [events, List.filterMap_append, counted_closing, List.append_nil]
      exact filterMap_ran t (fun q failure => if_neg ht) statements

/-- Statements in a transaction that counts do as well. -/
lemma counted_ran {t : TransactionId} {among : List TransactionId} (ht : t ∈ among)
    (statements : List Answered) :
    (statements.map (Client.ran t)).filterMap (Script.Event.counted among) =
      statements.map fun s => (s.1, Script.failureOf s.2) := by
  rw [List.filterMap_map, ← List.filterMap_eq_map]
  exact List.filterMap_congr fun s _ => if_pos ht

/-- In a transaction that counts all statements do. -/
lemma counted_events_of_mem (mode : AccessMode) (a : Attempt α) {among : List TransactionId}
    (h : ∀ t ∈ a.transactions, t ∈ among) :
    (a.events mode).filterMap (Script.Event.counted among) = a.effects := by
  cases a with
  | refused => rfl
  | turnedAway => rfl
  | made session t statements doomed result committing failure =>
      have ht : t ∈ among := h t List.mem_cons_self
      rw [events, List.filterMap_append, counted_closing, List.append_nil]
      exact counted_ran ht statements

lemma committed_events_made (mode : AccessMode) (session : SessionId) (t : TransactionId)
    (statements : List Answered) (doomed : Bool) (result : Except Error α) (committing : Bool)
    (failure : Option Error) :
    Script.committed ((made session t statements doomed result committing failure).events mode) =
      if committing && failure.isNone then [t] else [] := by
  have hran : Script.committed (.start session mode t none :: statements.map (Client.ran t)) = [] :=
    filterMap_ran t (fun _ _ => rfl) statements
  rw [events, Script.committed_append, hran, List.nil_append]
  cases committing <;> cases failure <;> rfl

/-- What is committed in the words of the attempt is committed at the engine. -/
lemma Commits.committed_events {a : Attempt α} {x : α} (h : a.Commits x) (mode : AccessMode) :
    Script.committed (a.events mode) = a.transactions := by
  cases h with
  | intro session t statements doomed => exact committed_events_made _ _ _ _ _ _ _ _

/-- What is not is not. -/
lemma Sound.committed_events {work : Work α} {context : Context} {a : Attempt α}
    (h : a.Sound work context) (hnot : ∀ x, ¬ a.Commits x) (mode : AccessMode) :
    Script.committed (a.events mode) = [] := by
  cases h with
  | refused => rfl
  | turnedAway => rfl
  | @made statements doomed result _ session t failure =>
      rw [committed_events_made]
      cases result with
      | error e => rfl
      | ok x =>
          refine if_neg fun hcommitted => hnot x ?_
          rw [Bool.and_eq_true, Option.isNone_iff_eq_none] at hcommitted
          exact commits_made_iff.mpr ⟨rfl, hcommitted⟩

/-- Attempts of which none commits leave nothing. -/
lemma committed_history {attempts : List (Attempt α)} {mode : AccessMode}
    (h : ∀ a ∈ attempts, Script.committed (a.events mode) = []) :
    Script.committed (history mode attempts) = [] := by
  rw [Script.committed, history, List.filterMap_flatMap]
  exact List.flatMap_eq_nil_iff.mpr h

/-- The statements that count among attempts of which none counts. -/
lemma counted_history {attempts : List (Attempt α)} (mode : AccessMode) {among : List TransactionId}
    (h : ∀ a ∈ attempts, ∀ t ∈ a.transactions, t ∉ among) :
    (history mode attempts).filterMap (Script.Event.counted among) = [] := by
  rw [history, List.filterMap_flatMap]
  exact List.flatMap_eq_nil_iff.mpr fun a ha => counted_events_of_not_mem mode a (h a ha)

/-- Attempts of which the last alone commits leave its statements, and nothing else. -/
lemma kept_history {earlier : List (Attempt α)} {last : Attempt α} {mode : AccessMode}
    (hearlier : ∀ a ∈ earlier, Script.committed (a.events mode) = [])
    (hlast : Script.committed (last.events mode) = last.transactions)
    (hdistinct : (Script.begun (history mode (earlier ++ [last]))).Nodup) :
    Script.committed (history mode (earlier ++ [last])) = last.transactions ∧
      Script.kept (history mode (earlier ++ [last])) = last.effects := by
  have happend : history mode (earlier ++ [last]) = history mode earlier ++ last.events mode := by
    rw [history, List.flatMap_append, List.flatMap_singleton]
    rfl
  have hcommitted : Script.committed (history mode (earlier ++ [last])) = last.transactions := by
    rw [happend, Script.committed_append, committed_history hearlier, hlast, List.nil_append]
  refine ⟨hcommitted, ?_⟩
  rw [begun_history, List.flatMap_append, List.flatMap_singleton] at hdistinct
  have hother : ∀ a ∈ earlier, ∀ t ∈ a.transactions, t ∉ last.transactions := fun a ha t ht ht' =>
    (List.nodup_append.mp hdistinct).2.2 t (List.mem_flatMap.mpr ⟨a, ha, ht⟩) t ht' rfl
  rw [Script.kept, hcommitted, happend, List.filterMap_append, counted_history mode hother,
    counted_events_of_mem mode last fun t ht => ht, List.nil_append]

end Attempt

namespace Client

variable {α : Type}

/-! ### Retries -/

/-- **Attempts that follow each other**, counted from the given number, as long as none is
committed.  The result is that of the last. -/
structure Tried (mode : AccessMode) (work : Work α) (k : ℕ) (c : Client Script)
    (earlier : List (Attempt α)) (last : Attempt α) (r : Except Halt α) (after : Client Script) :
    Prop where
  sound : ∀ (i : ℕ) (a : Attempt α), (earlier ++ [last])[i]? = some a →
    a.Sound work ⟨1, mode, k + i, c.policy.attempts⟩
  uncommitted : ∀ a ∈ earlier, ∀ x, ¬ a.Commits x
  result : ∀ x, r = .ok x ↔ last.Commits x
  leaves : c.Leaves (Attempt.history mode (earlier ++ [last])) after

variable {mode : AccessMode} {work : Work α} {k : ℕ} {c mid next after : Client Script}
  {r r' : Except Halt α} {a last : Attempt α} {earlier : List (Attempt α)}

lemma Tried.one (hsound : a.Sound work ⟨1, mode, k, c.policy.attempts⟩)
    (hresult : ∀ x, r = .ok x ↔ a.Commits x) (hleaves : c.Leaves (a.events mode) after) :
    Tried mode work k c [] a r after where
  sound i b hb := by
    cases i with
    | zero =>
        obtain rfl : a = b := Option.some.inj hb
        exact hsound
    | succ i => cases hb
  uncommitted b hb := absurd hb List.not_mem_nil
  result := hresult
  leaves := by
    rw [Attempt.history, List.nil_append, List.flatMap_singleton]
    exact hleaves

/-- An attempt that is not committed comes before others. -/
lemma Tried.cons (h : Tried mode work (k + 1) next earlier last r after)
    (hsound : a.Sound work ⟨1, mode, k, c.policy.attempts⟩) (hnot : ∀ x, ¬ a.Commits x)
    (hleaves : c.Leaves (a.events mode) mid) (haside : mid.Aside next)
    (hnone : mid.monitor.NoneHeld next.monitor) :
    Tried mode work k c (a :: earlier) last r after where
  sound i b hb := by
    cases i with
    | zero =>
        obtain rfl : a = b := Option.some.inj hb
        exact hsound
    | succ i =>
        have hb' := h.sound i b hb
        rw [haside.policy, hleaves.policy, Nat.add_right_comm] at hb'
        exact hb'
  uncommitted b hb := by
    rcases List.mem_cons.mp hb with rfl | hb
    · exact hnot
    · exact h.uncommitted b hb
  result := h.result
  leaves := by
    have hbetween := hleaves.append (haside.leaves hnone)
    rw [List.append_nil] at hbetween
    exact hbetween.append h.leaves

/-- What is known of each attempt is known of attempts that follow each other. -/
lemma Tries.tried {caller : Owner} {more : ℕ}
    (h : Tries caller (fun k c r after => ∃ a : Attempt α,
      a.Sound work ⟨1, mode, k, c.policy.attempts⟩ ∧ (∀ x, r = .ok x ↔ a.Commits x) ∧
        c.Leaves (a.events mode) after) more k c r after) :
    ∃ earlier last, earlier.length ≤ more ∧ Tried mode work k c earlier last r after := by
  induction h with
  | last h =>
      obtain ⟨a, hsound, hresult, hleaves⟩ := h
      exact ⟨[], a, Nat.zero_le _, .one hsound hresult hleaves⟩
  | again h _ _ haside hnone _ ih =>
      obtain ⟨a, hsound, hresult, hleaves⟩ := h
      obtain ⟨earlier, last, hlength, htried⟩ := ih
      refine ⟨a :: earlier, last, Nat.succ_le_succ hlength,
        htried.cons hsound (fun x hx => ?_) hleaves haside hnone⟩
      cases (hresult x).mpr hx

/-- **A unit of work is attempted** until an attempt is committed or the attempts are used up. -/
lemma retryFrom_spec (mode : AccessMode) (work : Work α) (caller : Owner) (more k : ℕ)
    (c : Client Script) :
    ∃ (earlier : List (Attempt α)) (last : Attempt α) (r : Except Halt α) (after : Client Script),
      retryFrom (attemptUnit mode work.play) more k caller c = (r, after) ∧
        earlier.length ≤ more ∧ Tried mode work k c earlier last r after := by
  obtain ⟨r, after, hrun, htries⟩ :=
    retryFrom_tries (fun k c => attemptUnit_spec mode work k caller c) more k c
  obtain ⟨earlier, last, hlength, htried⟩ := htries.tried
  exact ⟨earlier, last, r, after, hrun, hlength, htried⟩

/-! ### Units of work -/

lemma depth_apply (caller : Owner) (c : Client Script) :
    depth caller c = (.ok (((c.active.lookup caller).map (·.depth)).getD 0), c) := rfl

namespace Tried

/-- The attempts before the last are not committed at the engine. -/
lemma committed_earlier (h : Tried mode work k c earlier last r after) :
    ∀ a ∈ earlier, Script.committed (a.events mode) = [] := fun a ha => by
  obtain ⟨i, hi⟩ := List.mem_iff_getElem?.mp (List.mem_append_left [last] ha)
  exact (h.sound i a hi).committed_events (h.uncommitted a ha) mode

/-- With a result the last attempt leaves its statements, and nothing else is left. -/
lemma kept_of_ok (h : Tried mode work k c earlier last r after) {x : α} (hr : r = .ok x) :
    Script.committed (Attempt.history mode (earlier ++ [last])) = last.transactions ∧
      Script.kept (Attempt.history mode (earlier ++ [last])) = last.effects :=
  Attempt.kept_history h.committed_earlier (((h.result x).mp hr).committed_events mode)
    h.leaves.distinct

/-- Without a result nothing is left. -/
lemma kept_of_error (h : Tried mode work k c earlier last r after) {halt : Halt}
    (hr : r = .error halt) :
    Script.committed (Attempt.history mode (earlier ++ [last])) = [] ∧
      Script.kept (Attempt.history mode (earlier ++ [last])) = [] := by
  have hlast : Script.committed (last.events mode) = [] := by
    obtain ⟨i, hi⟩ := List.mem_iff_getElem?.mp (List.mem_append_right earlier List.mem_cons_self)
    refine (h.sound i last hi).committed_events (fun x hx => ?_) mode
    cases hr.symm.trans ((h.result x).mpr hx)
  have hcommitted : Script.committed (Attempt.history mode (earlier ++ [last])) = [] := by
    refine Attempt.committed_history fun a ha => ?_
    rcases List.mem_append.mp ha with ha | ha
    · exact h.committed_earlier a ha
    · rw [List.mem_singleton.mp ha]
      exact hlast
  refine ⟨hcommitted, ?_⟩
  rw [Script.kept, hcommitted]
  exact Attempt.counted_history mode fun a _ t _ => List.not_mem_nil

/-- There is a result just if one transaction is committed. -/
lemma once (h : Tried mode work k c earlier last r after) :
    (∃ x, r = .ok x) ↔
      (Script.committed (Attempt.history mode (earlier ++ [last]))).length = 1 := by
  cases hr : r with
  | ok x =>
      rw [(h.kept_of_ok hr).1]
      have hlength : last.transactions.length = 1 := by
        cases (h.result x).mp hr
        rfl
      exact ⟨fun _ => hlength, fun _ => ⟨x, rfl⟩⟩
  | error halt =>
      rw [(h.kept_of_error hr).1]
      constructor
      · rintro ⟨x, hx⟩
        cases hx
      · intro h
        cases h

end Tried

lemma attempts_pos (p : RetryPolicy) : 0 < p.attempts := by
  rw [RetryPolicy.attempts]
  split_ifs
  · exact Nat.lt_of_lt_of_le Nat.one_pos (le_max_right _ _)
  · exact Nat.one_pos

/-- Notes a visit, and the page in a nested unit whose failure is swallowed. -/
def visit : Work Unit :=
  .run ⟨"CREATE (v:Visit)", [], []⟩ fun _ =>
    .nested .write
      (.statement ⟨"CREATE (p:Page)", [], []⟩ .write fun answer => .finish (answer.map fun _ => ()))
      fun _ => .finish (.ok ())

/-- A client that makes up to three attempts, and whose engine is going to fail. -/
def unlucky (failures : List (Script.Point × Error)) : Client Script where
  engine := { failures }
  monitor := .start { lazy := true }
  policy := { enabled := true, maxAttempts := 3, baseDelay := 0 }
  relations := []
  active := []
  nextSerial := 0
  returned := []

end Client

end GraphMapper
