import GraphMapper.Proofs.Unit.Managed

/-!
How often something is attempted.

* `Client.mayRetry`: an outcome after which another attempt may follow;
* `Client.Series`: attempts one after the other, as if there were no end to them: the client before
  each of them, its outcome and the client after it;
* `Series.IsLast`: the number of the attempt at which a policy stops;
* `Series.Ends`: what was run is the series up to that attempt;
* `Client.retryFrom_ends`: the one induction over the attempts;
* `Client.attempts_counted`: units of work and statements that read are series of attempts.
-/

namespace GraphMapper.Client

variable {σ α : Type} [Engine σ]

/-! ### Pauses -/

/-- Whether a failed attempt may be followed by another. -/
def mayRetry : Except Halt α → Bool
  | .error (.failed e) => e.isRetryable
  | _ => false

/-- The client after a failed attempt and what comes of its connection: a stale one is renewed, and
nothing is done after any other failure. -/
def renewed (e : Error) (caller : Owner) (c : Client σ) : Client σ :=
  if e.isStale then (reconnectIfStale caller c).2 else c

lemma reconnectIfStale_ends (caller : Owner) (c : Client σ) :
    ∃ r : Except Error Bool, reconnectIfStale caller c =
      (r.mapError .failed, (reconnectIfStale caller c).2) := by
  have hreconnect : ∃ r : Except Error Unit, (reconnect caller c).1 = r.mapError .failed := by
    have hdisconnect : ∃ mid, disconnect caller c = (.ok (), mid) := by
      rw [disconnect, Action.bind_apply_ok (Action.monitor_apply caller c)]
      cases c.monitor.pool <;> exact ⟨_, rfl⟩
    obtain ⟨mid, hdisconnect⟩ := hdisconnect
    rw [reconnect, Action.bind_apply_ok hdisconnect,
      Action.bind_apply_ok (Action.monitor_apply caller mid),
      Action.bind_apply_ok (Action.engine_apply _ caller mid)]
    obtain ⟨e | pool, s⟩ := Pool.open mid.monitor.settings mid.engine
    · exact ⟨.error e, rfl⟩
    · exact ⟨.ok (), rfl⟩
  rw [reconnectIfStale, Action.bind_apply_ok (Action.monitor_apply caller c)]
  split_ifs
  · obtain ⟨e | ⟨⟨⟩⟩, hr⟩ := hreconnect
    · have hfailed : reconnect caller c = (.error (.failed e), (reconnect caller c).2) :=
        Prod.ext hr rfl
      exact ⟨.error e, by rw [Action.bind_apply_error hfailed]; rfl⟩
    · have hdone : reconnect caller c = (.ok (), (reconnect caller c).2) := Prod.ext hr rfl
      exact ⟨.ok true, by rw [Action.bind_apply_ok hdone]; rfl⟩
  · exact ⟨.ok false, rfl⟩

/-- Between two attempts the connection is renewed if the failure calls for it, and the client rests
or not. -/
lemma betweenAttempts_renewed (e : Error) (k : ℕ) (caller : Owner) (c : Client σ) :
    ∃ after, betweenAttempts e k caller c = (.ok (), after) ∧
      (after = renewed e caller c ∨ after = (Action.settle caller (renewed e caller c)).2) := by
  have hrest (mid : Client σ) : ∃ after,
      (do
        if 0 < (← get).policy.exponential k then
          Action.settle : Action σ Unit) caller mid = (.ok (), after) ∧
        (after = mid ∨ after = (Action.settle caller mid).2) := by
    rw [Action.bind_apply_ok (Action.get_apply caller mid)]
    split_ifs
    · exact ⟨_, rfl, .inr rfl⟩
    · exact ⟨mid, rfl, .inl rfl⟩
  rw [betweenAttempts, renewed]
  split_ifs
  · obtain ⟨r, hr⟩ := reconnectIfStale_ends caller c
    rw [Action.bind_apply_ok (Action.attempted_apply_ok hr)]
    exact hrest _
  · exact hrest c

/-- The client after an attempt and the pause before the next, if there may be one. -/
def paused (outcome : Except Halt α) (k : ℕ) (caller : Owner) (c : Client σ) : Client σ :=
  match outcome with
  | .error (.failed e) => (betweenAttempts e k caller c).2
  | _ => c

/-! ### Series -/

/-- **Attempts one after the other** of a caller, counted from one. -/
structure Series (σ α : Type) where
  attempt : ℕ → Action σ α
  caller : Owner
  client : Client σ

namespace Series

variable (s : Series σ α)

/-- The client when the given number of attempts are over, with the pause after each. -/
def before : ℕ → Client σ
  | 0 => s.client
  | k + 1 =>
    let trial := s.attempt (k + 1) s.caller (before k)
    paused trial.1 (k + 1) s.caller trial.2

/-- The attempt with the given number: its outcome and the client after it. -/
def trial (k : ℕ) : Except Halt α × Client σ :=
  s.attempt k s.caller (s.before (k - 1))

def outcome (k : ℕ) : Except Halt α :=
  (s.trial k).1

/-- The number of the attempt at which it ends: the first that is not followed by another because it
succeeded or failed for good, or the greatest that there may be. -/
structure IsLast (total k : ℕ) : Prop where
  pos : 0 < k
  le : k ≤ total
  earlier : ∀ i, 0 < i → i < k → mayRetry (s.outcome i)
  stops : mayRetry (s.outcome k) → k = total

/-- **What was run are attempts of the series**, up to the last and no further. -/
structure Ends (total k : ℕ) (run : Except Halt α × Client σ) : Prop where
  last : s.IsLast total k
  /-- The result is that of the last attempt, as it is. -/
  result : run = s.trial k
  /-- After each of the others the connection is renewed if its failure says that it is stale, and
  else nothing happens but a rest. -/
  renewed : ∀ i, 0 < i → i < k → ∃ e, s.outcome i = .error (.failed e) ∧ e.isRetryable ∧
    (s.before i = renewed e s.caller (s.trial i).2 ∨
      s.before i = (Action.settle s.caller (renewed e s.caller (s.trial i).2)).2)

variable {s}

/-- There is just one attempt at which it ends. -/
lemma IsLast.unique {total k k' : ℕ} (h : s.IsLast total k) (h' : s.IsLast total k') : k = k' := by
  -- The smaller of two numbers would be followed by another attempt, so it is the greatest there is.
  rcases lt_trichotomy k k' with hlt | heq | hgt
  · have := h.stops (h'.earlier k h.pos hlt)
    have := h'.le
    omega
  · exact heq
  · have := h'.stops (h.earlier k' h'.pos hgt)
    have := h.le
    omega

/-- A number up to which all attempts but the last are followed by another. -/
lemma isLast_succ {total k : ℕ} (hearlier : ∀ i, 0 < i → i ≤ k → mayRetry (s.outcome i))
    (hle : k + 1 ≤ total) (hstops : mayRetry (s.outcome (k + 1)) → k + 1 = total) :
    s.IsLast total (k + 1) :=
  ⟨Nat.succ_pos k, hle, fun i hpos hlt => hearlier i hpos (Nat.le_of_lt_succ hlt), hstops⟩

lemma exists_error_of_mayRetry {r : Except Halt α} (h : mayRetry r) :
    ∃ e, r = .error (.failed e) ∧ e.isRetryable := by
  obtain (e | _) | x := r
  · exact ⟨e, rfl, h⟩
  · cases h
  · cases h

lemma before_succ (s : Series σ α) (k : ℕ) :
    s.before (k + 1) = paused (s.outcome (k + 1)) (k + 1) s.caller (s.trial (k + 1)).2 := rfl

lemma before_succ_of_failed {k : ℕ} {e : Error} (h : s.outcome (k + 1) = .error (.failed e)) :
    s.before (k + 1) = (betweenAttempts e (k + 1) s.caller (s.trial (k + 1)).2).2 := by
  rw [before_succ, h]
  rfl

/-- Between two attempts of a series. -/
lemma renewed_of_mayRetry {i : ℕ} (hpos : 0 < i) (h : mayRetry (s.outcome i)) :
    ∃ e, s.outcome i = .error (.failed e) ∧ e.isRetryable ∧
      (s.before i = Client.renewed e s.caller (s.trial i).2 ∨
        s.before i = (Action.settle s.caller (Client.renewed e s.caller (s.trial i).2)).2) := by
  obtain ⟨k, rfl⟩ := Nat.exists_eq_succ_of_ne_zero hpos.ne'
  obtain ⟨e, he, hretryable⟩ := exists_error_of_mayRetry h
  obtain ⟨after, hbetween, hafter⟩ :=
    betweenAttempts_renewed e (k + 1) s.caller (s.trial (k + 1)).2
  refine ⟨e, he, hretryable, ?_⟩
  rwa [before_succ_of_failed he, hbetween]

end Series

/-! ### Loops -/

/-- An attempt that is not followed by another is the whole. -/
lemma retryFrom_stops {attempt : ℕ → Action σ α} {more k : ℕ} {caller : Owner} {c after : Client σ}
    {r : Except Halt α} (h : attempt k caller c = (r, after)) (hstops : ¬ mayRetry r) :
    retryFrom attempt (more + 1) k caller c = (r, after) := by
  rw [retryFrom]
  obtain (e | _) | x := r
  · have hfailed : Action.attempted (attempt k) caller c = (.ok (.error e), after) :=
      Action.attempted_apply_ok h
    rw [Action.bind_apply_ok hfailed]
    dsimp only
    rw [if_neg (show ¬ e.isRetryable from hstops), Action.fail_apply]
  · have hwaiting : Action.attempted (attempt k) caller c = (.error .waiting, after) := by
      rw [Action.attempted, h]
    exact Action.bind_apply_error hwaiting
  · have hdone : Action.attempted (attempt k) caller c = (.ok (.ok x), after) :=
      Action.attempted_apply_ok h
    rw [Action.bind_apply_ok hdone]
    exact Action.pure_apply x caller after

/-- What succeeds at once is not tried again. -/
lemma retrying_ok {attempt : ℕ → Action σ α} {caller : Owner}
    {c after : Client σ} {x : α} (h : attempt 1 caller c = (.ok x, after)) :
    retrying attempt caller c = (.ok x, after) := by
  rw [retrying_eq]
  cases c.policy.attempts - 1 with
  | zero => exact h
  | succ more => exact retryFrom_stops h (by simp [mayRetry])

/-- After a failure that allows it and a pause there is another attempt. -/
lemma retryFrom_again {attempt : ℕ → Action σ α} {more k : ℕ} {caller : Owner}
    {c after next : Client σ} {e : Error} (h : attempt k caller c = (.error (.failed e), after))
    (hretryable : e.isRetryable) (hbetween : betweenAttempts e k caller after = (.ok (), next)) :
    retryFrom attempt (more + 1) k caller c = retryFrom attempt more (k + 1) caller next := by
  have hfailed : Action.attempted (attempt k) caller c = (.ok (.error e), after) :=
    Action.attempted_apply_ok h
  rw [retryFrom, Action.bind_apply_ok hfailed]
  dsimp only
  rw [if_pos hretryable, Action.bind_apply_ok hbetween]

/-- What is retried from some attempt on ends where the series does. -/
lemma retryFrom_ends (s : Series σ α) (more k : ℕ)
    (hearlier : ∀ i, 0 < i → i ≤ k → mayRetry (s.outcome i)) :
    ∃ last, s.IsLast (k + 1 + more) last ∧
      retryFrom s.attempt more (k + 1) s.caller (s.before k) = s.trial last := by
  induction more generalizing k with
  | zero => exact ⟨k + 1, Series.isLast_succ hearlier le_rfl fun _ => rfl, rfl⟩
  | succ more ih =>
      have htrial : s.attempt (k + 1) s.caller (s.before k) =
          (s.outcome (k + 1), (s.trial (k + 1)).2) := rfl
      by_cases hretry : mayRetry (s.outcome (k + 1))
      · obtain ⟨e, he, hretryable⟩ := Series.exists_error_of_mayRetry hretry
        obtain ⟨after, hbetween, -⟩ :=
          betweenAttempts_renewed e (k + 1) s.caller (s.trial (k + 1)).2
        have hbefore : s.before (k + 1) = after := by
          rw [Series.before_succ_of_failed he, hbetween]
        have hearlier' : ∀ i, 0 < i → i ≤ k + 1 → mayRetry (s.outcome i) := fun i hpos hle => by
          obtain hlt | rfl := Nat.lt_or_eq_of_le hle
          · exact hearlier i hpos (Nat.le_of_lt_succ hlt)
          · exact hretry
        obtain ⟨last, hends, hrun⟩ := ih (k + 1) hearlier'
        refine ⟨last, ?_, ?_⟩
        · rwa [Nat.add_right_comm (k + 1) 1 more] at hends
        · rw [he] at htrial
          rw [retryFrom_again htrial hretryable hbetween, ← hbefore, hrun]
      · have hend := Series.isLast_succ hearlier (Nat.le_add_right (k + 1) (more + 1))
          fun h => absurd h hretry
        exact ⟨k + 1, hend, retryFrom_stops htrial hretry⟩

/-- What is retried under a policy ends where the series does. -/
lemma retrying_ends (s : Series σ α) :
    ∃ k, s.Ends s.client.policy.attempts k (retrying s.attempt s.caller s.client) := by
  obtain ⟨k, hlast, hrun⟩ := retryFrom_ends s (s.client.policy.attempts - 1) 0
    fun i hpos hle => absurd hpos (not_lt.mpr hle)
  have htotal : 0 + 1 + (s.client.policy.attempts - 1) = s.client.policy.attempts := by
    have := attempts_pos s.client.policy
    omega
  rw [htotal] at hlast
  exact ⟨k, hlast, hrun, fun i hpos hlt => Series.renewed_of_mayRetry hpos (hlast.earlier i hpos hlt)⟩

/-! ### Units of work and statements -/

lemma paused_policy (r : Except Halt α) (k : ℕ) (caller : Owner) (c : Client Script) :
    (paused r k caller c).policy = c.policy := by
  obtain (e | _) | x := r
  · obtain ⟨after, hbetween, haside, -⟩ := betweenAttempts_spec caller c e k
    rw [paused, hbetween]
    exact haside.policy
  · rfl
  · rfl

/-- The attempts at a unit of work. -/
def units (mode : AccessMode) (work : Handle → Action σ α) (caller : Owner) (c : Client σ) :
    Series σ α where
  attempt := attemptUnit mode work
  caller := caller
  client := c

/-- The attempts at a statement that reads on its own. -/
def readings (q : Query) (caller : Owner) (c : Client σ) : Series σ (List Row) where
  attempt _ := execute q .read
  caller := caller
  client := c

/-- No unit of work changes the policy under which it is attempted. -/
lemma units_policy (mode : AccessMode) (work : Work α) (caller : Owner) (c : Client Script) (k : ℕ) :
    ((units mode work.play caller c).before k).policy = c.policy := by
  induction k with
  | zero => rfl
  | succ k ih =>
      obtain ⟨r, after, hrun, a, -, -, hleaves⟩ := attemptUnit_spec mode work (k + 1) caller
        ((units mode work.play caller c).before k)
      have htrial : (units mode work.play caller c).trial (k + 1) = (r, after) := hrun
      rw [Series.before_succ, paused_policy, htrial]
      exact hleaves.policy.trans ih

/-- Every attempt of the series runs the work in a transaction that shows its number. -/
lemma units_spec (mode : AccessMode) (work : Work α) (caller : Owner) (c : Client Script) (k : ℕ) :
    ∃ a : Attempt α, a.Sound work ⟨1, mode, k, c.policy.attempts⟩ ∧
      (∀ x, (units mode work.play caller c).outcome k = .ok x ↔ a.Commits x) ∧
      ((units mode work.play caller c).before (k - 1)).Leaves (a.events mode)
        ((units mode work.play caller c).trial k).2 := by
  obtain ⟨r, after, hrun, a, hsound, hcommits, hleaves⟩ := attemptUnit_spec mode work k caller
    ((units mode work.play caller c).before (k - 1))
  have htrial : (units mode work.play caller c).trial k = (r, after) := hrun
  rw [units_policy] at hsound
  rw [Series.outcome, htrial]
  exact ⟨a, hsound, hcommits, hleaves⟩

lemma attempts_lt {p : RetryPolicy} {bound : ℕ} (hbound : 1 < bound) (h : p.maxAttempts < bound) :
    p.attempts < bound := by
  rw [RetryPolicy.attempts]
  split_ifs
  · exact max_lt h hbound
  · exact hbound

/-- **Attempts are counted exactly.**  What a caller outside of all transactions has done in a unit of
work, whatever it is made of, are attempts in a row: they end at the first that succeeds or fails for
good, or else at the last that the policy allows, and the result is what that attempt came to.  Between
two of them a connection is renewed only after a failure that says that it is stale.  Attempt number `i`
runs its work in a transaction that shows `i` of as many as the policy allows.  A statement that reads is
retried on its own by the same law.  No count leaves the words in which settings give it. -/
theorem attempts_counted (caller : Owner) (c : Client Script)
    (hdepth : (depth caller c).1 = .ok 0) :
    (∀ (α : Type) (mode : AccessMode) (work : Handle → Action Script α),
      ∃ k, (units mode work caller c).Ends c.policy.attempts k (managed mode work caller c)) ∧
    (∀ (α : Type) (mode : AccessMode) (work : Work α) (i : ℕ),
      ∃ a : Attempt α, a.Sound work ⟨1, mode, i, c.policy.attempts⟩ ∧
        (∀ x, (units mode work.play caller c).outcome i = .ok x ↔ a.Commits x) ∧
        ((units mode work.play caller c).before (i - 1)).Leaves (a.events mode)
          ((units mode work.play caller c).trial i).2) ∧
    (∀ q : Query, ∃ k,
      (readings q caller c).Ends c.policy.attempts k (statement q .read caller c)) ∧
    (c.policy.maxAttempts < 2 ^ 32 → c.policy.attempts < 2 ^ 32) := by
  have houtside : depthOf caller caller c = (.ok 0, c) := Prod.ext hdepth rfl
  refine ⟨fun α mode work => ?_, fun α mode work i => units_spec mode work caller c i,
    fun q => ?_, attempts_lt (by decide)⟩
  · rw [managed_outside houtside]
    exact retrying_ends (units mode work caller c)
  · rw [statement_outside houtside]
    exact retrying_ends (readings q caller c)

/-- A deadlock at the first commit is followed by a second attempt, and by no third. -/
theorem attempts_counted_deadlock :
    (units .write visit.play (.task none) (unlucky [(.commit, .transient "deadlock")])).Ends 3 2
      (managed .write visit.play (.task none) (unlucky [(.commit, .transient "deadlock")])) := by
  obtain ⟨hunits, -, -, -⟩ := attempts_counted (.task none)
    (unlucky [(.commit, .transient "deadlock")]) rfl
  obtain ⟨k, hends⟩ := hunits Unit .write visit.play
  have hlast : (units .write visit.play (.task none)
      (unlucky [(.commit, .transient "deadlock")])).IsLast 3 2 := by
    refine ⟨by decide, by decide, fun i hpos hlt => ?_, ?_⟩
    · obtain rfl : i = 1 := by omega
      decide +kernel
    · decide +kernel
  obtain rfl : k = 2 := hends.last.unique hlast
  exact hends

end GraphMapper.Client
