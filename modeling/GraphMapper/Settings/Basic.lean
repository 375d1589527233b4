import GraphMapper.Value.Basic

/-!
Settings of a connection.

* `Endpoint`, `PoolSettings`, `RetrySettings`, `Settings`: the settings with their defaults;
* `PoolSettings.capacity`, `PoolSettings.warm`: how many sessions a pool may hold and opens at once;
* `Settings.address`, `Settings.readAddress?`: where to connect;
* `Settings.redacted`: the settings without the password;
* `Settings.toValue`: the settings as a value.
-/

namespace GraphMapper

def defaultPort : Nat := 7687

/-- Another host for reads or for writes. -/
structure Endpoint where
  host : String
  port : Nat := defaultPort
deriving DecidableEq, Repr

structure PoolSettings where
  enabled : Bool := true
  minConnections : Nat := 1
  maxConnections : Nat := 10
deriving DecidableEq, Repr

/-- The greatest number of sessions; a pool that is switched off keeps a single one. -/
def PoolSettings.capacity (p : PoolSettings) : Nat :=
  if p.enabled then max p.maxConnections 1 else 1

/-- The number of sessions to open at once. -/
def PoolSettings.warm (p : PoolSettings) : Nat :=
  if p.enabled then min p.minConnections p.capacity else 1

structure RetrySettings where
  enabled : Bool := true
  maxAttempts : Nat := 3
  /-- First delay, in milliseconds. -/
  delay : Nat := 100
deriving DecidableEq, Repr

/-- Settings of a connection. -/
structure Settings where
  name : String := "neo4j"
  scheme : String := "bolt"
  host : String := "localhost"
  port : Nat := defaultPort
  username : String := "neo4j"
  password : String := ""
  database : Option String := none
  read : Option Endpoint := none
  write : Option Endpoint := none
  pool : PoolSettings := {}
  retry : RetrySettings := {}
  /-- Whether the first use opens the connection. -/
  lazy : Bool := false
deriving DecidableEq, Repr, Inhabited

namespace Settings

def addressOf (s : Settings) (host : String) (port : Nat) : String :=
  s.scheme ++ "://" ++ host ++ ":" ++ toString port

/-- Where to connect for writes. -/
def address (s : Settings) : String :=
  match s.write with
  | some endpoint => s.addressOf endpoint.host endpoint.port
  | none => s.addressOf s.host s.port

/-- Where to connect for reads, if that is another place. -/
def readAddress? (s : Settings) : Option String :=
  s.read.map fun endpoint => s.addressOf endpoint.host endpoint.port

/-- The settings with the password hidden, as they may be shown. -/
def redacted (s : Settings) : Settings :=
  { s with password := if s.password.isEmpty then "" else "********" }

/-! ### As values -/

def endpointValue : Option Endpoint → Value
  | none => .null
  | some endpoint => .object [("host", .string endpoint.host), ("port", .int endpoint.port)]

/-- The settings as a value; the name is not among them. -/
def toValue (s : Settings) : Value :=
  .object
    [("database", (s.database.map Value.string).getD .null),
      ("host", .string s.host),
      ("lazy", .bool s.lazy),
      ("password", .string s.password),
      ("pool", .object
        [("enabled", .bool s.pool.enabled),
          ("max_connections", .int s.pool.maxConnections),
          ("min_connections", .int s.pool.minConnections)]),
      ("port", .int s.port),
      ("read", endpointValue s.read),
      ("retry", .object
        [("delay_ms", .int s.retry.delay),
          ("enabled", .bool s.retry.enabled),
          ("max_attempts", .int s.retry.maxAttempts)]),
      ("scheme", .string s.scheme),
      ("username", .string s.username),
      ("write", endpointValue s.write)]

end Settings

end GraphMapper
