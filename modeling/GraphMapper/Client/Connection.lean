import GraphMapper.Client.Basic

/-!
Sessions of a client, and the health of its connection.

* `Client.connect`: a new client;
* `acquire`, `release`, `execute`: checking sessions out, returning them, statements on their own;
* `ping`, `reconnect`, `reconnectIfStale`, `disconnect`: looking after the connection.

A connection is stale from the first failure that speaks of it until a new pool is opened in place of
the old one.
-/

namespace GraphMapper

/-- The statement of a ping. -/
def pingQuery : Query :=
  Cypher.Statement.query
    { steps := [.project false [.named .one "ping"]], columns := ["ping"] }

namespace Monitor

/-- The connection before its first pool. -/
def start (settings : Settings) : Monitor :=
  { settings, pool := none, generation := 0, stale := false, reconnects := 0 }

/-- A new pool becomes the current one. -/
def install (m : Monitor) (pool : Pool) : Monitor :=
  { m with pool := some pool, generation := m.generation + 1 }

/-- A pool is there and nothing speaks against it. -/
def isConnected (m : Monitor) : Bool :=
  m.pool.isSome && !m.stale

/-- Returns a session to the current pool if it is from there.  Other pools are closed: the session is
handed back to be closed as well. -/
def putBack (m : Monitor) (lease : Lease) : Monitor × Option SessionId :=
  match m.pool with
  | none => (m, some lease.session)
  | some pool =>
    if lease.generation = m.generation then
      let (pool, closing) := pool.putBack lease.session
      ({ m with pool := some pool }, closing)
    else (m, some lease.session)

end Monitor

variable {σ : Type} [Engine σ]

/-- A client with the given settings; its pool is opened now unless they put that off. -/
def Client.connect (settings : Settings) (relations : Registry) :
    StateM σ (Except Error (Client σ)) := do
  let start := Monitor.start settings
  let client (monitor : Monitor) (engine : σ) : Client σ :=
    { engine, monitor, policy := RetryPolicy.ofSettings settings.retry, relations
      active := [], nextSerial := 0, returned := [] }
  if settings.lazy then return .ok (client start (← get))
  else
    match ← Pool.open settings with
    | .error e => return .error e
    | .ok pool => return .ok (client (start.install pool) (← get))

namespace Client

/-- Opens a pool with the current settings, unless there is one. -/
def ensurePool : Action σ (Except Error Pool) := do
  let m ← Action.monitor
  match m.pool with
  | some pool => return .ok pool
  | none =>
    match ← Action.engine (Pool.open m.settings) with
    | .error e => return .error e
    | .ok pool =>
      Action.modifyMonitor (·.install pool)
      return .ok pool

/-- Checks a session out, without taking note of failures. -/
def checkOut : Action σ (Except Error Lease) := do
  match ← ensurePool with
  | .error e => return .error e
  | .ok pool =>
    let (checkout, pool) ← Action.engine pool.acquire
    Action.modifyMonitor fun m => { m with pool := some pool }
    match checkout with
    | .session session => return .ok ⟨session, (← Action.monitor).generation⟩
    | .refused e => return .error e
    | .busy => throw .waiting

/-- Checks a session out. -/
def acquire : Action σ Lease := do
  match ← checkOut with
  | .ok lease => return lease
  | .error e =>
    Action.observe e
    Action.fail e

/-- Returns a session. -/
def release (lease : Lease) : Action σ Unit :=
  modify fun client =>
    let (monitor, closing) := client.monitor.putBack lease
    { client with monitor, returned := client.returned ++ closing.toList }

/-- Runs one statement on its own. -/
def execute (q : Query) (mode : AccessMode) : Action σ (List Row) := do
  let lease ← acquire
  let result ← Action.observed (Engine.execute lease.session q mode)
  release lease
  Action.ofExcept result

/-- Whether the engine answers.  If it does not, the connection is stale. -/
def ping : Action σ Bool := do
  let outcome ←
    match ← checkOut with
    | .error e => pure (.error e)
    | .ok lease => do
      let result ← Action.engine (Engine.execute lease.session pingQuery .read)
      release lease
      pure result
  match outcome with
  | .ok _ => return true
  | .error _ =>
    Action.modifyMonitor fun m => { m with stale := true }
    return false

/-- Closes the pool, if there is one. -/
def disconnect : Action σ Unit := do
  let m ← Action.monitor
  match m.pool with
  | none => return ()
  | some pool =>
    Action.modifyMonitor fun m => { m with pool := none }
    let _ ← Action.engine pool.close

/-- Closes the pool and opens a new one with the current settings. -/
def reconnect : Action σ Unit := do
  disconnect
  let m ← Action.monitor
  match ← Action.engine (Pool.open m.settings) with
  | .error e => Action.fail e
  | .ok pool =>
    Action.modifyMonitor fun m =>
      { m.install pool with stale := false, reconnects := m.reconnects + 1 }

/-- Opens a new pool if the connection is stale, and tells whether it was. -/
def reconnectIfStale : Action σ Bool := do
  if (← Action.monitor).stale then
    reconnect
    return true
  else return false

/-- Declares the connection stale. -/
def forceStale : Action σ Unit :=
  Action.modifyMonitor fun m => { m with stale := true }

/-- Changes the settings; they are used from the next pool on. -/
def setSettings (settings : Settings) : Action σ Unit :=
  Action.modifyMonitor fun m => { m with settings }

end Client

end GraphMapper
