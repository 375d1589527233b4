import GraphMapper.Engine.Basic

/-!
Pools of sessions.

* `Pool`: the idle sessions and the permits that are left;
* `Pool.reserve?`, `Pool.takeIdle?`, `Pool.adopt`, `Pool.cancel`, `Pool.putBack`: the single steps of
  a check-out and of a return;
* `Pool.open`, `Pool.acquire`, `Pool.close`: the operations made of them, with the engine's part.

A permit is held for every session that is checked out or being opened, so idle sessions aside there
are never more than the pool's capacity.
-/

namespace GraphMapper

/-- A pool of sessions. -/
structure Pool where
  settings : Settings
  /-- Sessions that wait for use, the one returned last first. -/
  idle : List SessionId
  /-- Permits that are left. -/
  permits : Nat
  /-- Number of sessions opened so far. -/
  opened : Nat
  closed : Bool
deriving DecidableEq, Repr

namespace Pool

/-- A pool without sessions. -/
def empty (settings : Settings) : Pool :=
  { settings, idle := [], permits := settings.pool.capacity, opened := 0, closed := false }

/-- The greatest number of sessions. -/
def capacity (p : Pool) : Nat :=
  p.settings.pool.capacity

/-! ### Steps -/

/-- Takes a permit, if one is left. -/
def reserve? (p : Pool) : Option Pool :=
  if p.permits = 0 then none else some { p with permits := p.permits - 1 }

/-- Takes the session that was returned last. -/
def takeIdle? (p : Pool) : Option (SessionId × Pool) :=
  match p.idle with
  | [] => none
  | session :: rest => some (session, { p with idle := rest })

/-- Counts a session that was opened for the pool. -/
def adopt (p : Pool) : Pool :=
  { p with opened := p.opened + 1 }

/-- Gives a permit back. -/
def cancel (p : Pool) : Pool :=
  { p with permits := p.permits + 1 }

/-- Puts a session back together with its permit.  A closed pool keeps no sessions: it hands the
session back to be closed. -/
def putBack (p : Pool) (session : SessionId) : Pool × Option SessionId :=
  if p.closed then (p.cancel, some session)
  else ({ p.cancel with idle := session :: p.idle }, none)

/-- What comes of asking for a session. -/
inductive Checkout where
  | session (id : SessionId)
  | refused (e : Error)
  /-- No permit is left, so the caller has to wait. -/
  | busy
deriving DecidableEq, Repr

/-! ### Operations -/

variable {σ : Type} [Engine σ]

/-- Opens the given number of sessions, one after the other, and keeps them idle.  The first failure
ends it. -/
def warmUp : Nat → Pool → StateM σ (Except Error Pool)
  | 0, p => return .ok p
  | n + 1, p => do
    match ← Engine.connect p.settings with
    | .error e => return .error e
    | .ok session => warmUp n { p.adopt with idle := session :: p.idle }

/-- A new pool, with its first sessions opened unless the settings put that off. -/
def «open» (settings : Settings) : StateM σ (Except Error Pool) :=
  warmUp (if settings.lazy then 0 else settings.pool.warm) (empty settings)

/-- Asks for a session: an idle one if there is any, and otherwise a new one. -/
def acquire (p : Pool) : StateM σ (Checkout × Pool) :=
  if p.closed then return (.refused (.stale "pool is closed"), p)
  else
    match p.reserve? with
    | none => return (.busy, p)
    | some reserved =>
      match reserved.takeIdle? with
      | some (session, rest) => return (.session session, rest)
      | none => do
        match ← Engine.connect p.settings with
        | .error e => return (.refused e, reserved.cancel)
        | .ok session => return (.session session, reserved.adopt)

/-- Closes the pool: its idle sessions are closed, oldest first, and no more are handed out. -/
def close (p : Pool) : StateM σ Pool := do
  p.idle.reverse.forM Engine.close
  return { p with idle := [], closed := true }

/-- A line about the pool. -/
def describe (p : Pool) : String :=
  "ConnectionPool \x7b connection: " ++ Text.quoted p.settings.name ++ ", max_size: " ++
    toString p.capacity ++ ", idle: " ++ toString p.idle.length ++ " \x7d"

end Pool

end GraphMapper
