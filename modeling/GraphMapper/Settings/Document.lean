import GraphMapper.Settings.Basic
import GraphMapper.Value.Folded

/-!
Settings read from a document and from the environment.

* `Reader`: reading a value as something, `none` if it does not fit;
* `Settings.read?`: the settings of one connection;
* `Catalog`: the connections by name and the name of the default one;
* `Catalog.read?`, `Catalog.ofDocument?`, `Catalog.load`: the catalog of a document, with the
  environment on top;
* `Catalog.connection?`: looking a connection up.
-/

namespace GraphMapper

/-- Reads a value as something; `none` if it does not fit. -/
abbrev Reader (α : Type) := Value → Option α

namespace Reader

/-- A text.  A scalar that is not quoted is a text as it is spelled. -/
def text : Reader String
  | .string s => some s
  | .array _ | .object _ => none
  | scalar => some scalar.json

/-- A truth value. -/
def flag : Reader Bool := Value.asBool?

/-- A natural number below a bound. -/
def natBelow (bound : Nat) : Reader Nat := fun v => do
  let n ← v.asUnsigned?
  guard (n < bound)
  return n

/-- Something that may be left out by writing null. -/
def optional {α : Type} (reader : Reader α) : Reader (Option α)
  | .null => some none
  | v => (reader v).map some

/-- A map of named entries. -/
def fields : Reader Row
  | .object fields => some fields
  | _ => none

/-- An entry of a map, or a default if there is none; an entry that does not fit is no default. -/
def field {α : Type} (row : Row) (name : String) (reader : Reader α) (default : α) : Option α :=
  match row.get? name with
  | none => some default
  | some v => reader v

end Reader

/-! ### One connection -/

/-- Numbers of ports have 16 bits. -/
def portBound : Nat := Nat.pow 2 16

def Endpoint.read? : Reader Endpoint := fun v => do
  let row ← Reader.fields v
  let host ← (← row.get? "host") |> Reader.text
  let port ← Reader.field row "port" (Reader.natBelow portBound) defaultPort
  return { host, port }

def PoolSettings.read? : Reader PoolSettings := fun v => do
  let row ← Reader.fields v
  let base : PoolSettings := {}
  return {
    enabled := ← Reader.field row "enabled" Reader.flag base.enabled
    minConnections :=
      ← Reader.field row "min_connections" (Reader.natBelow (Nat.pow 2 64)) base.minConnections
    maxConnections :=
      ← Reader.field row "max_connections" (Reader.natBelow (Nat.pow 2 64)) base.maxConnections }

def RetrySettings.read? : Reader RetrySettings := fun v => do
  let row ← Reader.fields v
  let base : RetrySettings := {}
  return {
    enabled := ← Reader.field row "enabled" Reader.flag base.enabled
    maxAttempts := ← Reader.field row "max_attempts" (Reader.natBelow (Nat.pow 2 32)) base.maxAttempts
    delay := ← Reader.field row "delay_ms" (Reader.natBelow (Nat.pow 2 64)) base.delay }

/-- The settings of one connection.  What is missing has its default, what is unknown is ignored; the
name is not read. -/
def Settings.read? : Reader Settings := fun v => do
  let row ← Reader.fields v
  let base : Settings := {}
  return {
    scheme := ← Reader.field row "scheme" Reader.text base.scheme
    host := ← Reader.field row "host" Reader.text base.host
    port := ← Reader.field row "port" (Reader.natBelow portBound) base.port
    username := ← Reader.field row "username" Reader.text base.username
    password := ← Reader.field row "password" Reader.text base.password
    database := ← Reader.field row "database" (Reader.optional Reader.text) base.database
    read := ← Reader.field row "read" (Reader.optional Endpoint.read?) base.read
    write := ← Reader.field row "write" (Reader.optional Endpoint.read?) base.write
    pool := ← Reader.field row "pool" PoolSettings.read? base.pool
    retry := ← Reader.field row "retry" RetrySettings.read? base.retry
    lazy := ← Reader.field row "lazy" Reader.flag base.lazy }

/-! ### Catalogs -/

/-- Connections by name, and the name of the one that is used unless another is asked for. -/
structure Catalog where
  default : String
  connections : Fields Settings
deriving Repr

/-- What the environment says about the default connection. -/
structure Environment where
  host : Option String := none
  port : Option String := none
  username : Option String := none
  password : Option String := none
  database : Option String := none
deriving DecidableEq, Repr

/-- What the variables say, given a way to look them up. -/
def Environment.ofVariables (find : String → Option String) : Environment :=
  { host := find "NEO4J_HOST", port := find "NEO4J_PORT", username := find "NEO4J_USERNAME"
    password := find "NEO4J_PASSWORD", database := find "NEO4J_DATABASE" }

namespace Catalog

/-- The catalog without a document: a single connection with all defaults. -/
def builtIn : Catalog :=
  let only : Settings := {}
  { default := only.name, connections := [(only.name, only)] }

/-- The catalog of what is read from a document. -/
def read? : Reader Catalog := fun v => do
  let row ← Reader.fields v
  let default ← Reader.field row "default" Reader.text builtIn.default
  let connections ←
    match row.get? "connections" with
    | none => some builtIn.connections
    | some entries => do
      (← Reader.fields entries).mapM fun (name, entry) => do
        return (name, ← Settings.read? entry)
  return { default, connections }

/-- The catalog of a document, which is written in JSON and read by the rules of YAML. -/
def ofDocument? (document : Value) : Option Catalog :=
  document.folded?.bind read?

/-- The number of a port: decimal digits, perhaps after a plus sign, of at most 16 bits. -/
def portOfText? (text : String) : Option Nat := do
  let digits :=
    match text.toList with
    | '+' :: rest => rest
    | all => all
  guard (!digits.isEmpty && digits.all Char.isDigit)
  let n := digits.foldl (fun n c => 10 * n + (c.toNat - '0'.toNat)) 0
  guard (n < portBound)
  return n

/-- Settings with what the environment says in place of their own. -/
def override (environment : Environment) (s : Settings) : Settings :=
  { s with
    host := environment.host.getD s.host
    port := (environment.port.bind portOfText?).getD s.port
    username := environment.username.getD s.username
    password := environment.password.getD s.password
    database := environment.database <|> s.database }

/-- The catalog of a document, if there is one that can be read, and otherwise the built-in one.
Connections are named by their entries; the default one is added if it is missing, and is the only one
on which the environment has a say. -/
def load (document : Option Value) (environment : Environment) : Catalog :=
  let catalog := (document.bind ofDocument?).getD builtIn
  let named : Fields Settings :=
    catalog.connections.map fun (name, s) => (name, { s with name })
  let base := (Fields.get? named catalog.default).getD { name := catalog.default }
  { catalog with connections := Fields.put named catalog.default (override environment base) }

/-- The connection of a name, or the default one. -/
def connection? (catalog : Catalog) (name : Option String) : Except String Settings :=
  let name := name.getD catalog.default
  match catalog.connections.get? name with
  | some s => .ok s
  | none => .error s!"no connection named `{name}` is configured"

end Catalog

end GraphMapper
