import Mathlib.Tactic
import GraphMapper.Client.Transaction

/-!
Laws of actions.

* `Action.bind_apply`: an action in two parts, on a caller and a client;
* `Action.get_apply`, `Action.engine_apply`, `Action.attempted_apply_ok` and their neighbours: what
  the single actions do;
* `Action.observed_apply`: a failure changes the client by the mark of staleness alone;
* `Client.attemptUnit_eq`, `Client.managed_outside`, `Client.statement_outside`: units of work and
  statements of callers outside, in parts.
-/

namespace GraphMapper.Action

variable {σ α β : Type}

/-! ### Parts of actions -/

lemma bind_apply (a : Action σ α) (f : α → Action σ β) (caller : Owner) (c : Client σ) :
    (a >>= f) caller c =
      match a caller c with
      | (.ok x, after) => f x caller after
      | (.error h, after) => (.error h, after) := by
  change ExceptT.bindCont (fun x => f x caller) (a caller c).1 (a caller c).2 = _
  rcases a caller c with ⟨h | x, after⟩ <;> rfl

/-- An action whose first part succeeds goes on with the second. -/
lemma bind_apply_ok {a : Action σ α} {f : α → Action σ β} {caller : Owner} {c after : Client σ}
    {x : α} (h : a caller c = (.ok x, after)) : (a >>= f) caller c = f x caller after := by
  rw [bind_apply, h]

/-- An action whose first part ends without a result ends so. -/
lemma bind_apply_error {a : Action σ α} {f : α → Action σ β} {caller : Owner} {c after : Client σ}
    {h : Halt} (ha : a caller c = (.error h, after)) : (a >>= f) caller c = (.error h, after) := by
  rw [bind_apply, ha]

@[simp] lemma pure_apply (x : α) (caller : Owner) (c : Client σ) :
    (pure x : Action σ α) caller c = (.ok x, c) := rfl

@[simp] lemma get_apply (caller : Owner) (c : Client σ) :
    (get : Action σ (Client σ)) caller c = (.ok c, c) := rfl

@[simp] lemma read_apply (caller : Owner) (c : Client σ) :
    (read : Action σ Owner) caller c = (.ok caller, c) := rfl

@[simp] lemma modify_apply (f : Client σ → Client σ) (caller : Owner) (c : Client σ) :
    (modify f : Action σ PUnit) caller c = (.ok ⟨⟩, f c) := rfl

@[simp] lemma fail_apply (e : Error) (caller : Owner) (c : Client σ) :
    (fail e : Action σ α) caller c = (.error (.failed e), c) := rfl

@[simp] lemma engine_apply (m : StateM σ α) (caller : Owner) (c : Client σ) :
    engine m caller c = (.ok (m c.engine).1, { c with engine := (m c.engine).2 }) := rfl

@[simp] lemma modifyMonitor_apply (f : Monitor → Monitor) (caller : Owner) (c : Client σ) :
    modifyMonitor f caller c = (.ok ⟨⟩, { c with monitor := f c.monitor }) := rfl

@[simp] lemma monitor_apply (caller : Owner) (c : Client σ) :
    monitor caller c = (.ok c.monitor, c) := rfl

lemma ofExcept_apply (r : Except Error α) (caller : Owner) (c : Client σ) :
    ofExcept r caller c = (r.mapError .failed, c) := by
  cases r <;> rfl

/-! ### Failures -/

lemma attempted_apply_ok {a : Action σ α} {caller : Owner} {c after : Client σ} {r : Except Error α}
    (h : a caller c = (r.mapError .failed, after)) :
    attempted a caller c = (.ok r, after) := by
  rw [attempted, h]
  cases r <;> rfl

/-- What is given a failure only to pass it on goes on with results alone. -/
lemma attempted_bind (a : Action σ α) {f : Except Error α → Action σ β}
    (hf : ∀ e, f (.error e) = fail e) : (attempted a >>= f) = a >>= fun x => f (.ok x) := by
  funext caller c
  rw [bind_apply, bind_apply, attempted]
  rcases a caller c with ⟨(e | _) | x, after⟩
  · exact congrFun (congrFun (hf e) caller) after
  · rfl
  · rfl

/-- A failure that is given as a result and passed on is passed on. -/
lemma attempted_bind_ofExcept (a : Action σ α) : (attempted a >>= ofExcept) = a := by
  rw [attempted_bind a fun _ => rfl]
  exact bind_pure a

/-- Takes note of a failure in the mark of staleness. -/
def marked (e : Error) (m : Monitor) : Monitor :=
  if e.isStale then { m with stale := true } else m

lemma observe_apply (e : Error) (caller : Owner) (c : Client σ) :
    observe e caller c = (.ok ⟨⟩, { c with monitor := marked e c.monitor }) := by
  rw [observe, modify_apply, marked]
  split_ifs <;> rfl

/-- The monitor after a result that is taken note of. -/
def seen (r : Except Error α) (m : Monitor) : Monitor :=
  match r with
  | .ok _ => m
  | .error e => marked e m

lemma observed_apply (m : StateM σ (Except Error α)) (caller : Owner) (c : Client σ) :
    observed m caller c =
      (.ok (m c.engine).1,
        { c with engine := (m c.engine).2, monitor := seen (m c.engine).1 c.monitor }) := by
  rw [observed, bind_apply, engine_apply]
  rcases m c.engine with ⟨e | x, s⟩
  · exact bind_apply_ok (observe_apply e caller _)
  · rfl

end GraphMapper.Action

namespace GraphMapper.Client

variable {σ α : Type} [Engine σ]

/-! ### Units of work -/

/-- Ends the transaction of an attempt after what its work came to. -/
def conclude (owner : Owner) : Except Error α → Action σ α
  | .ok x => do
    finishCommit owner
    return x
  | .error e => do
    let _ ← Action.attempted (finishRollback owner)
    Action.fail e

/-- An attempt draws a number, opens the transaction of the unit of that number, does its work inside
and ends the transaction. -/
lemma attemptUnit_eq (mode : AccessMode) (work : Handle → Action σ α) (k : ℕ) (caller : Owner)
    (c : Client σ) :
    attemptUnit mode work k caller c =
      (do
        openFor (.unit c.nextSerial) c.nextSerial mode k c.policy.attempts
        let result ← Action.attempted
          (Action.onBehalfOf (.unit c.nextSerial) (work ⟨.unit c.nextSerial⟩))
        conclude (.unit c.nextSerial) result) caller { c with nextSerial := c.nextSerial + 1 } := by
  have hserial : (freshSerial : Action σ ℕ) caller c =
      (.ok c.nextSerial, { c with nextSerial := c.nextSerial + 1 }) := rfl
  rw [attemptUnit, Action.bind_apply_ok (Action.get_apply caller c)]
  refine (Action.bind_apply_ok hserial).trans ?_
  refine congrArg (fun next : Unit → Action σ α => (openFor _ _ _ _ _ >>= next) caller _) ?_
  refine funext fun _ => congrArg (Action.attempted _ >>= ·) (funext fun result => ?_)
  cases result <;> rfl

lemma retrying_eq (attempt : ℕ → Action σ α) (caller : Owner) (c : Client σ) :
    retrying attempt caller c = retryFrom attempt (c.policy.attempts - 1) 1 caller c := rfl

/-- A managed unit of a caller outside is attempted. -/
lemma managed_outside {caller : Owner} {c : Client σ} (h : depthOf caller caller c = (.ok 0, c))
    (mode : AccessMode) (work : Handle → Action σ α) :
    managed mode work caller c = retrying (attemptUnit mode work) caller c := by
  rw [managed, Action.bind_apply_ok (Action.read_apply caller c), Action.bind_apply_ok h,
    if_neg (lt_irrefl 0)]

/-- A caller outside of all transactions has its statements that read retried on their own. -/
lemma statement_outside {caller : Owner} {c : Client σ} (h : depthOf caller caller c = (.ok 0, c))
    (q : Query) :
    statement q .read caller c = retrying (fun _ => execute q .read) caller c := by
  rw [statement, Action.bind_apply_ok (Action.read_apply caller c), Action.bind_apply_ok h,
    if_neg (lt_irrefl 0)]

end GraphMapper.Client
