import GraphMapper.Engine.Pool
import GraphMapper.Relation.Declaration
import GraphMapper.Settings.Retry

/-!
The state of a client and the actions on it.

* `Owner`: whose transaction it is;
* `ActiveTransaction`: a transaction that is open, with the depth to which it is entered;
* `Monitor`: settings, pool and health of the connection;
* `Client`: all of it, with the engine's state;
* `Action`: what a caller does with a client, and how it may end;
* `Action.attempted`, `Action.observed`: failures as results, and failures that are taken note of.
-/

namespace GraphMapper

/-! ### State -/

/-- Whose transaction it is. -/
inductive Owner where
  /-- A managed unit of work and all that it runs. -/
  | unit (serial : Nat)
  /-- A task that opens and closes its transactions by hand; the main program has no name. -/
  | task (name : Option String)
deriving DecidableEq, Repr

/-- A session that is checked out, with the generation of its pool. -/
structure Lease where
  session : SessionId
  generation : Nat
deriving DecidableEq, Repr

/-- A transaction that is open. -/
structure ActiveTransaction where
  serial : Nat
  transaction : TransactionId
  lease : Lease
  depth : Nat
  mode : AccessMode
  attempt : Nat
  maxAttempts : Nat
  /-- Something inside failed or was rolled back, so the whole will be. -/
  rollbackOnly : Bool
deriving DecidableEq, Repr

/-- Settings, pool and health of a connection.  Settings take effect when a pool is opened. -/
structure Monitor where
  settings : Settings
  pool : Option Pool
  /-- Number of pools opened so far: the last of them is the current one. -/
  generation : Nat
  stale : Bool
  reconnects : Nat
deriving DecidableEq, Repr

/-- The health of a connection as a value. -/
def Monitor.toValue (monitor : Monitor) : Value :=
  .object
    [("config", monitor.settings.redacted.toValue), ("connected", .bool monitor.pool.isSome),
      ("is_stale", .bool monitor.stale), ("reconnect_count", .int monitor.reconnects)]

/-- A client of a graph engine whose state has the type `σ`. -/
structure Client (σ : Type) where
  engine : σ
  monitor : Monitor
  policy : RetryPolicy
  relations : Registry
  /-- The open transactions, one for each owner. -/
  active : List (Owner × ActiveTransaction)
  nextSerial : Nat
  /-- Sessions returned to pools that are closed, to be closed when the client next rests. -/
  returned : List SessionId

/-! ### Actions -/

/-- Why an action ends without a result. -/
inductive Halt where
  | failed (e : Error)
  /-- It waits for a session, and none will be returned. -/
  | waiting
deriving DecidableEq, Repr

/-- What a caller does with a client.  What was done before it ended stays done. -/
abbrev Action (σ : Type) := ReaderT Owner (ExceptT Halt (StateM (Client σ)))

namespace Action

variable {σ α β : Type}

/-- Ends an action with a failure. -/
def fail (e : Error) : Action σ α :=
  throw (.failed e)

/-- The result of a computation that may fail. -/
def ofExcept (r : Except Error α) : Action σ α :=
  match r with
  | .ok a => return a
  | .error e => fail e

/-- The result of a compilation. -/
def ofCompile (r : Except CompileError α) : Action σ α :=
  ofExcept (r.mapError .compile)

/-- Runs an action and gives its failure as a result. -/
def attempted (a : Action σ α) : Action σ (Except Error α) := fun caller client =>
  match a caller client with
  | (.ok x, after) => (.ok (.ok x), after)
  | (.error (.failed e), after) => (.ok (.error e), after)
  | (.error .waiting, after) => (.error .waiting, after)

/-- Runs an action on behalf of another owner. -/
def onBehalfOf (owner : Owner) (a : Action σ α) : Action σ α :=
  withReader (fun _ => owner) a

/-- Something the engine does. -/
def engine (c : StateM σ α) : Action σ α := do
  let client ← get
  let (a, state) := c client.engine
  set { client with engine := state }
  return a

/-- Takes note of a failure: one that speaks of staleness marks the connection. -/
def observe (e : Error) : Action σ Unit :=
  modify fun client =>
    if e.isStale then { client with monitor := { client.monitor with stale := true } } else client

/-- Something the engine does, with its failure taken note of. -/
def observed (c : StateM σ (Except Error α)) : Action σ (Except Error α) := do
  let result ← engine c
  match result with
  | .ok _ => return result
  | .error e =>
    observe e
    return result

/-- The health and settings of the connection. -/
def monitor : Action σ Monitor :=
  return (← get).monitor

/-- Changes the health or the settings of the connection. -/
def modifyMonitor (f : Monitor → Monitor) : Action σ Unit :=
  modify fun client => { client with monitor := f client.monitor }

variable [Engine σ]

/-- Lets the client rest: sessions returned to closed pools are closed. -/
def settle : Action σ Unit := do
  let client ← get
  set { client with returned := [] }
  engine (client.returned.forM Engine.close)

end Action

end GraphMapper
