import GraphMapper.Proofs.Unit.Session

/-!
Attempts that follow each other.

* `Client.Tries`: attempts, each of them after one that failed, with what is between them;
* `Client.retryFrom_tries`: what holds of every attempt holds of all that are made.
-/

namespace GraphMapper.Client

variable {α : Type}

/-- **Attempts that follow each other**, counted from a number, with at most `more` after the first.
The next is made after a failure that allows it; the result is that of the last. -/
inductive Tries (caller : Owner) (P : ℕ → Client Script → Except Halt α → Client Script → Prop) :
    ℕ → ℕ → Client Script → Except Halt α → Client Script → Prop where
  | last {more k : ℕ} {c after : Client Script} {r : Except Halt α} (h : P k c r after) :
    Tries caller P more k c r after
  | again {more k : ℕ} {c mid next after : Client Script} {e : Error} {r : Except Halt α}
      (h : P k c (.error (.failed e)) mid) (hretryable : e.isRetryable)
      (hbetween : betweenAttempts e k caller mid = (.ok (), next)) (haside : mid.Aside next)
      (hnone : mid.monitor.NoneHeld next.monitor)
      (hrest : Tries caller P more (k + 1) next r after) : Tries caller P (more + 1) k c r after

/-- What holds of every attempt holds of all that are made. -/
lemma retryFrom_tries {attempt : ℕ → Action Script α} {caller : Owner}
    {P : ℕ → Client Script → Except Halt α → Client Script → Prop}
    (hattempt : ∀ k c, ∃ r after, attempt k caller c = (r, after) ∧ P k c r after) (more k : ℕ)
    (c : Client Script) :
    ∃ r after, retryFrom attempt more k caller c = (r, after) ∧
      Tries caller P more k c r after := by
  induction more generalizing k c with
  | zero =>
      obtain ⟨r, after, hrun, h⟩ := hattempt k c
      exact ⟨r, after, hrun, .last h⟩
  | succ more ih =>
      obtain ⟨r, mid, hrun, h⟩ := hattempt k c
      rw [retryFrom]
      obtain (e | _) | x := r
      · have hfailed : Action.attempted (attempt k) caller c = (.ok (.error e), mid) :=
          Action.attempted_apply_ok hrun
        rw [Action.bind_apply_ok hfailed]
        dsimp only
        split_ifs with hretryable
        · obtain ⟨next, hbetween, haside, hnone⟩ := betweenAttempts_spec caller mid e k
          obtain ⟨r, after, hrun', htries⟩ := ih (k + 1) next
          exact ⟨r, after, (Action.bind_apply_ok hbetween).trans hrun',
            .again h hretryable hbetween haside hnone htries⟩
        · exact ⟨_, mid, Action.fail_apply e caller mid, .last h⟩
      · have hwaiting : Action.attempted (attempt k) caller c = (.error .waiting, mid) := by
          rw [Action.attempted, hrun]
        exact ⟨_, mid, Action.bind_apply_error hwaiting, .last h⟩
      · have hdone : Action.attempted (attempt k) caller c = (.ok (.ok x), mid) :=
          Action.attempted_apply_ok hrun
        rw [Action.bind_apply_ok hdone]
        exact ⟨_, mid, Action.pure_apply x caller mid, .last h⟩

end GraphMapper.Client
