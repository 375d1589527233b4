import GraphMapper.Error.Compile
import GraphMapper.Error.Relation
import GraphMapper.Text.Search

/-!
Failures and what may be done about them.

* `TransactionError`, `DecodeError`, `Error`: the causes, with their wording in `message`;
* `Error.Class`, `Error.classify`, `Error.isRetryable`, `Error.isStale`: what a failure calls for;
* `Error.ofEngine`: the failure that the message of an engine speaks of.
-/

namespace GraphMapper

/-- Misuse of transactions, or a unit of work that ended in a rollback. -/
inductive TransactionError where
  | noneToNestIn
  | noneActive
  | noneToCommit
  | noneToRollBack
  | alreadyActive
  | commitOutside
  | rollbackOutside
  /-- A nested unit of work failed or was rolled back, so the whole was. -/
  | rolledBackWithin
  /-- A report from elsewhere. -/
  | reported (text : String)
deriving DecidableEq, Repr

/-- The wording of a cause. -/
def TransactionError.message : TransactionError → String
  | .noneToNestIn => "no active transaction to nest in"
  | .noneActive => "no active transaction"
  | .noneToCommit => "no active transaction to commit"
  | .noneToRollBack => "no active transaction to roll back"
  | .alreadyActive => "a transaction is already active for this caller"
  | .commitOutside => "commit called without an active transaction"
  | .rollbackOutside => "rollback called without an active transaction"
  | .rolledBackWithin => "transaction was rolled back by a nested unit of work"
  | .reported text => text

/-- A result row that is not what was asked for. -/
inductive DecodeError where
  | notProperties (column : String) (found : Option Value)
  | countNotInteger (found : Value)
  /-- A report from elsewhere. -/
  | reported (text : String)
deriving DecidableEq, Repr

/-- The wording of a cause. -/
def DecodeError.message : DecodeError → String
  | .notProperties column found =>
    s!"column `{column}` is not a property map: {Value.inspectOption found}"
  | .countNotInteger found => s!"count is not an integer: {found.json}"
  | .reported text => text

/-- A failure. -/
inductive Error where
  /-- Refused before anything reaches the engine. -/
  | compile (cause : CompileError)
  | invalidRelation (relation : String) (cause : RelationError)
  /-- A write against a constraint of the store. -/
  | constraint (entity value text : String)
  /-- The session can no longer be used. -/
  | stale (text : String)
  /-- The engine expects a second try to succeed. -/
  | transient (text : String)
  | authentication (text : String)
  /-- Any other report of the engine. -/
  | query (text : String)
  | notFound (entity : String) (ids : List String)
  | transaction (cause : TransactionError)
  | config (text : String)
  | decode (cause : DecodeError)
deriving DecidableEq, Repr

namespace Error

/-- The name of a failure's kind. -/
def name : Error → String
  | .compile _ => "Compile"
  | .invalidRelation _ _ => "InvalidRelation"
  | .constraint _ _ _ => "Constraint"
  | .stale _ => "Stale"
  | .transient _ => "Transient"
  | .authentication _ => "Authentication"
  | .query _ => "Query"
  | .notFound _ _ => "NotFound"
  | .transaction _ => "Transaction"
  | .config _ => "Config"
  | .decode _ => "Decode"

/-- The wording of a failure. -/
def message : Error → String
  | .compile cause => s!"compile error: {cause.message}"
  | .invalidRelation relation cause => s!"invalid relationship `{relation}`: {cause.message}"
  | .constraint entity value text => s!"constraint violation on {entity} (value: {value}): {text}"
  | .stale text => s!"stale connection: {text}"
  | .transient text => s!"transient failure: {text}"
  | .authentication text => s!"authentication failed: {text}"
  | .query text => s!"query failed: {text}"
  | .notFound entity ids => "no " ++ entity ++ " found for id(s) [" ++ ", ".intercalate ids ++ "]"
  | .transaction cause => s!"transaction error: {cause.message}"
  | .config text => s!"configuration error: {text}"
  | .decode cause => s!"decode error: {cause.message}"

/-- What a failure calls for. -/
inductive Class where
  | compile
  | constraint
  | transient
  | fatal
  | notFound
deriving DecidableEq, Repr

/-- The name of a class. -/
def Class.name : Class → String
  | .compile => "Compile"
  | .constraint => "Constraint"
  | .transient => "Transient"
  | .fatal => "Fatal"
  | .notFound => "NotFound"

/-- The class of a failure. -/
def classify : Error → Class
  | .compile _ | .invalidRelation _ _ => .compile
  | .constraint _ _ _ => .constraint
  | .stale _ | .transient _ => .transient
  | .notFound _ _ => .notFound
  | .authentication _ | .query _ | .transaction _ | .config _ | .decode _ => .fatal

/-- Whether a unit of work that failed so may be run again. -/
def isRetryable (e : Error) : Bool :=
  e.classify = .transient

/-! ### Messages of an engine -/

/-- Whether a text speaks of one of the signs, in whatever case. -/
def mentions (signs : List String) (text : String) : Bool :=
  let folded := Text.fold text.toList
  signs.any fun sign => Text.occursIn sign.toList folded

/-- Signs that a session can no longer be used. -/
def staleSigns : List String :=
  ["pool closed", "pool is closed", "socket closed", "reset by peer", "broken pipe", "stale"]

/-- Signs that a second try may succeed without a new session. -/
def transientSigns : List String :=
  ["neo.transienterror", "deadlock", "leader switch", "not a leader", "database unavailable"]

/-- Signs that the credentials were refused. -/
def authenticationSigns : List String :=
  ["authentication", "unauthorized", "credentials", "neo.clienterror.security"]

/-- Signs that a write went against a constraint. -/
def constraintSigns : List String :=
  ["constraintvalidationfailed", "already exists with label", "constraint violation"]

/-- Whether a message says that the session can no longer be used. -/
def isStaleMessage (text : String) : Bool :=
  mentions staleSigns text

/-- Whether a failure means that the session has to be replaced. -/
def isStale : Error → Bool
  | .stale _ => true
  | .transient text | .query text => isStaleMessage text
  | _ => false

/-- The label that a constraint message quotes after the word label. -/
def constraintEntity (text : List Char) : String :=
  let sign := "label `".toList
  match Text.after? sign text with
  | none => "unknown"
  | some rest => String.ofList ((Text.before sign rest).takeWhile (· ≠ '`'))

/-- The value that a constraint message gives after its last equals sign. -/
def constraintValue (text : List Char) : String :=
  match Text.afterLast? " = ".toList text with
  | none => "unknown"
  | some rest =>
    let bare := (Text.trim rest).dropWhile (· = '\'')
    String.ofList (bare.reverse.dropWhile (· = '\'')).reverse

/-- The failure that a message of the engine speaks of.  Of several signs those of staleness count
first, then those of a transient failure, of refused credentials, of a constraint. -/
def ofEngine (text : String) : Error :=
  if isStaleMessage text then .stale text
  else if mentions transientSigns text then .transient text
  else if mentions authenticationSigns text then .authentication text
  else if mentions constraintSigns text then
    .constraint (constraintEntity text.toList) (constraintValue text.toList) text
  else .query text

end Error

end GraphMapper
