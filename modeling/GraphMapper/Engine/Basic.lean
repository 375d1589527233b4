import GraphMapper.Error.Basic
import GraphMapper.Settings.Basic

/-!
What a graph engine offers.

* `AccessMode`: whether statements read only or may write;
* `SessionId`, `TransactionId`: what the engine hands out;
* `Engine`: the operations, on the engine's own state.
-/

namespace GraphMapper

/-- Whether statements read only or may write. -/
inductive AccessMode where
  | read
  | write
deriving DecidableEq, Repr

def AccessMode.name : AccessMode → String
  | .read => "read"
  | .write => "write"

/-- The mode of a name. -/
def AccessMode.ofName? (text : String) : Option AccessMode :=
  [.read, .write].find? (·.name = text)

/-- A session with the engine. -/
abbrev SessionId := Nat

/-- A transaction of the engine. -/
abbrev TransactionId := Nat

/-- The operations of a graph engine whose state, its connections and stored data, has the type `σ`. -/
class Engine (σ : Type) where
  /-- Opens a session. -/
  connect : Settings → StateM σ (Except Error SessionId)
  /-- Runs a statement on its own. -/
  execute : SessionId → Query → AccessMode → StateM σ (Except Error (List Row))
  /-- Starts a transaction on a session. -/
  start : SessionId → AccessMode → StateM σ (Except Error TransactionId)
  close : SessionId → StateM σ Unit
  /-- Runs a statement inside a transaction. -/
  run : TransactionId → Query → StateM σ (Except Error (List Row))
  commit : TransactionId → StateM σ (Except Error Unit)
  rollback : TransactionId → StateM σ (Except Error Unit)
  /-- The present time, as it is stored. -/
  clock : StateM σ String

end GraphMapper
