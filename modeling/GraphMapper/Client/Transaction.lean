import GraphMapper.Client.Connection

/-!
Units of work in transactions.

* `Handle`, `Handle.run`, `Handle.context`: a transaction as seen from inside a unit of work;
* `retrying`: running something again after failures that allow it;
* `write`, `read`: managed units of work, which nest;
* `begin`, `commit`, `rollback`: transactions opened and closed by hand;
* `statement`: one statement, inside the caller's transaction if there is one.

A caller has at most one transaction of the engine.  What it begins while the transaction is open only
deepens it, and the outermost end alone reaches the engine.
-/

namespace GraphMapper

variable {σ α : Type} [Engine σ]

/-- A transaction as handed to a unit of work. -/
structure Handle where
  owner : Owner
deriving DecidableEq, Repr

/-- What can be seen of the transaction of a caller. -/
structure Context where
  depth : Nat
  mode : AccessMode
  attempt : Nat
  maxAttempts : Nat
deriving DecidableEq, Repr

def Context.toValue (context : Context) : Value :=
  .object
    [("attempt", .int context.attempt), ("depth", .int context.depth),
      ("max_attempts", .int context.maxAttempts), ("mode", .string context.mode.name)]

namespace Client

/-! ### Open transactions -/

/-- The open transaction of an owner. -/
def activeOf (owner : Owner) : Action σ (Option ActiveTransaction) :=
  return (← get).active.lookup owner

/-- How deep an owner is inside its transaction; zero without one. -/
def depthOf (owner : Owner) : Action σ Nat :=
  return ((← activeOf owner).map (·.depth)).getD 0

/-- What can be seen of the transaction of an owner. -/
def contextOf (owner : Owner) : Action σ (Option Context) :=
  return (← activeOf owner).bind fun t =>
    if 0 < t.depth then some ⟨t.depth, t.mode, t.attempt, t.maxAttempts⟩ else none

/-- The depth of the caller. -/
def depth : Action σ Nat := do
  depthOf (← read)

/-- What the caller can see of its transaction. -/
def context : Action σ (Option Context) := do
  contextOf (← read)

/-- The number of open transactions. -/
def openTransactions : Action σ Nat :=
  return (← get).active.length

/-- Changes the open transaction of an owner, if it is still the one with the given serial number. -/
def modifyActive (owner : Owner) (serial : Nat) (f : ActiveTransaction → ActiveTransaction) :
    Action σ Unit :=
  modify fun client =>
    { client with
      active := client.active.map fun (o, t) =>
        if o = owner ∧ t.serial = serial then (o, f t) else (o, t) }

/-- Takes the transaction of an owner out of the open ones. -/
def takeActive (owner : Owner) : Action σ (Option ActiveTransaction) := do
  let found ← activeOf owner
  modify fun client =>
    { client with active := client.active.filter fun (o, _) => o ≠ owner }
  return found

/-- A serial number not used before. -/
def freshSerial : Action σ Nat :=
  modifyGet fun client => (client.nextSerial, { client with nextSerial := client.nextSerial + 1 })

/-- Opens a transaction for an owner who has none. -/
def openFor (owner : Owner) (serial : Nat) (mode : AccessMode) (attempt maxAttempts : Nat) :
    Action σ Unit := do
  let lease ← acquire
  match ← Action.observed (Engine.start lease.session mode) with
  | .error e =>
    release lease
    Action.fail e
  | .ok transaction =>
    match ← activeOf owner with
    | some _ =>
      let _ ← Action.engine (Engine.rollback transaction)
      release lease
      Action.fail (.transaction .alreadyActive)
    | none =>
      let opened : ActiveTransaction :=
        { serial, transaction, lease, depth := 1, mode, attempt, maxAttempts
          rollbackOnly := false }
      modify fun client => { client with active := client.active ++ [(owner, opened)] }

/-- Ends the transaction of an owner with a commit, or with a rollback and a failure if something
inside it failed. -/
def finishCommit (owner : Owner) : Action σ Unit := do
  match ← takeActive owner with
  | none => Action.fail (.transaction .noneToCommit)
  | some t =>
    if t.rollbackOnly then
      let result ← Action.observed (Engine.rollback t.transaction)
      release t.lease
      Action.ofExcept result
      Action.fail (.transaction .rolledBackWithin)
    else
      let result ← Action.observed (Engine.commit t.transaction)
      release t.lease
      Action.ofExcept result

/-- Ends the transaction of an owner with a rollback. -/
def finishRollback (owner : Owner) : Action σ Unit := do
  match ← takeActive owner with
  | none => Action.fail (.transaction .noneToRollBack)
  | some t =>
    let result ← Action.observed (Engine.rollback t.transaction)
    release t.lease
    Action.ofExcept result

/-- Runs a statement in the transaction of an owner. -/
def runIn (owner : Owner) (q : Query) : Action σ (List Row) := do
  match ← activeOf owner with
  | none => Action.fail (.transaction .noneActive)
  | some t => Action.ofExcept (← Action.observed (Engine.run t.transaction q))

end Client

/-- Runs a statement in the transaction. -/
def Handle.run (h : Handle) (q : Query) : Action σ (List Row) :=
  Client.runIn h.owner q

/-- What can be seen of the transaction. -/
def Handle.context (h : Handle) : Action σ (Option Context) :=
  Client.contextOf h.owner

namespace Client

/-! ### Retries -/

/-- What happens between the failed attempt number `k` and the next: a stale connection is opened anew,
whether that succeeds or not, and the client rests unless there is no delay.  No random part is drawn:
`RetryPolicy.backoff?` tells for which there is room. -/
def betweenAttempts (e : Error) (k : Nat) : Action σ Unit := do
  if e.isStale then
    let _ ← Action.attempted reconnectIfStale
  if 0 < (← get).policy.exponential k then
    Action.settle

/-- Makes the attempt number `k`, and after a failure that allows it up to `more` further ones. -/
def retryFrom (attempt : Nat → Action σ α) : (more k : Nat) → Action σ α
  | 0, k => attempt k
  | more + 1, k => do
    match ← Action.attempted (attempt k) with
    | .ok a => return a
    | .error e =>
      if e.isRetryable then
        betweenAttempts e k
        retryFrom attempt more (k + 1)
      else Action.fail e

/-- Makes attempts, counted from one, until one succeeds, fails for good, or is the last that the policy
allows. -/
def retrying (attempt : Nat → Action σ α) : Action σ α := do
  let total := (← get).policy.attempts
  retryFrom attempt (total - 1) 1

/-! ### Managed units of work -/

/-- One attempt at a unit of work, in a transaction of its own: committed if the work succeeds, and
otherwise rolled back. -/
def attemptUnit (mode : AccessMode) (work : Handle → Action σ α) (attempt : Nat) : Action σ α := do
  let total := (← get).policy.attempts
  let serial ← freshSerial
  let owner := Owner.unit serial
  openFor owner serial mode attempt total
  match ← Action.attempted (Action.onBehalfOf owner (work ⟨owner⟩)) with
  | .ok a =>
    finishCommit owner
    return a
  | .error e =>
    let _ ← Action.attempted (finishRollback owner)
    Action.fail e

/-- A unit of work inside the transaction of an owner: one level deeper.  Its failure dooms the whole
transaction. -/
def nestedUnit (owner : Owner) (work : Handle → Action σ α) : Action σ α := do
  match ← activeOf owner with
  | none => Action.fail (.transaction .noneToNestIn)
  | some t =>
    modifyActive owner t.serial fun t => { t with depth := t.depth + 1 }
    let result ← Action.attempted (work ⟨owner⟩)
    modifyActive owner t.serial fun t =>
      { t with depth := t.depth - 1, rollbackOnly := t.rollbackOnly || !result.isOk }
    Action.ofExcept result

/-- A managed unit of work: nested if the caller is inside a transaction, and otherwise attempted as
often as the policy allows. -/
def managed (mode : AccessMode) (work : Handle → Action σ α) : Action σ α := do
  let caller ← read
  if 0 < (← depthOf caller) then nestedUnit caller work
  else retrying (attemptUnit mode work)

/-- A unit of work that writes. -/
def write (work : Handle → Action σ α) : Action σ α :=
  managed .write work

/-- A unit of work that reads. -/
def reading (work : Handle → Action σ α) : Action σ α :=
  managed .read work

/-! ### Transactions by hand -/

/-- Begins a transaction for the caller, or enters the one that is open. -/
def begin (mode : AccessMode) : Action σ Unit := do
  let caller ← read
  match ← activeOf caller with
  | some t =>
    if 0 < t.depth then modifyActive caller t.serial fun t => { t with depth := t.depth + 1 }
    else openFor caller (← freshSerial) mode 1 1
  | none => openFor caller (← freshSerial) mode 1 1

/-- Leaves the transaction of the caller; at the outermost level it is committed. -/
def commit : Action σ Unit := do
  let caller ← read
  match ← activeOf caller with
  | none => Action.fail (.transaction .commitOutside)
  | some t =>
    if 1 < t.depth then modifyActive caller t.serial fun t => { t with depth := t.depth - 1 }
    else finishCommit caller

/-- Leaves the transaction of the caller without keeping its changes; at an inner level that dooms the
whole. -/
def rollback : Action σ Unit := do
  let caller ← read
  match ← activeOf caller with
  | none => Action.fail (.transaction .rollbackOutside)
  | some t =>
    if 1 < t.depth then
      modifyActive caller t.serial fun t => { t with depth := t.depth - 1, rollbackOnly := true }
    else finishRollback caller

/-! ### Statements -/

/-- One statement: in the transaction of the caller if there is one; otherwise a read runs on its own
and is retried, and a write is a unit of work. -/
def statement (q : Query) (mode : AccessMode) : Action σ (List Row) := do
  let caller ← read
  if 0 < (← depthOf caller) then runIn caller q
  else
    match mode with
    | .write => write fun handle => handle.run q
    | .read => retrying fun _ => execute q .read

/-- One statement that reads. -/
def fetch (q : Query) : Action σ (List Row) :=
  statement q .read

end Client

end GraphMapper
