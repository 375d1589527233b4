import GraphMapper.Engine.Basic
import GraphMapper.Text.Search

/-!
An engine that plays a script, to try a client without a database.

* `Rule`: an answer that is ready for the statements that it fits;
* `Event`: what the engine was asked, and how that came out;
* `Script`: the rules and failures that are left, and the events so far;
* the instance of `Engine`: failures come first, each once and in order, then the first rule that
  fits; a statement that no rule fits has no rows.

Sessions and transactions are numbered from one, and a number is used up only by success.  A session
that was closed is of no use, but the transactions started on it live on.
-/

namespace GraphMapper

namespace Script

/-- The points at which a script can fail. -/
inductive Point where
  | connect
  | start
  /-- Statements, alone or inside a transaction. -/
  | execute
  | commit
  | rollback
deriving DecidableEq, Repr

/-- The rows of a rule. -/
inductive Answer where
  | rows (rows : List Row)
  /-- One row with a single column, which holds a parameter of the statement. -/
  | echo (column parameter : String)
deriving DecidableEq, Repr

/-- An answer that is ready for the statements that it fits. -/
structure Rule where
  /-- What the text of the statement must contain. -/
  text : Option String := none
  /-- The columns that the statement must have. -/
  columns : Option (List String) := none
  answer : Answer
  /-- Whether the rule is gone after use. -/
  once : Bool := false
deriving DecidableEq, Repr

/-- What the engine was asked, with the failure that came of it. -/
inductive Event where
  | connect (session : SessionId) (address username : String) (failure : Option Error)
  | execute (session : SessionId) (mode : AccessMode) (query : Query) (failure : Option Error)
  | start (session : SessionId) (mode : AccessMode) (transaction : TransactionId)
      (failure : Option Error)
  | close (session : SessionId)
  | run (transaction : TransactionId) (query : Query) (failure : Option Error)
  | commit (transaction : TransactionId) (failure : Option Error)
  | rollback (transaction : TransactionId) (failure : Option Error)
deriving DecidableEq, Repr

/-- Whether a rule fits a statement. -/
def Rule.fits (rule : Rule) (query : Query) : Bool :=
  (rule.text.all fun part => Text.occursIn part.toList query.text.toList) &&
    rule.columns.all (· = query.columns)

/-- The rows for a statement. -/
def Answer.rowsFor (query : Query) : Answer → List Row
  | .rows fixed => fixed
  | .echo column parameter => [[(column, (query.parameters.get? parameter).getD .null)]]

/-- The rows of the first rule that fits, and the rules that are left. -/
def Rule.play (query : Query) : List Rule → List Row × List Rule
  | [] => ([], [])
  | rule :: rest =>
    if rule.fits query then
      (rule.answer.rowsFor query, if rule.once then rest else rule :: rest)
    else
      let (rows, left) := play query rest
      (rows, rule :: left)

/-- The first of the failures prepared for a point, and those that are left. -/
def takeFailure (point : Point) :
    List (Point × Error) → Option Error × List (Point × Error)
  | [] => (none, [])
  | (other, e) :: rest =>
    if other = point then (some e, rest)
    else
      let (found, left) := takeFailure point rest
      (found, (other, e) :: left)

end Script

/-- A script in play. -/
structure Script where
  rules : List Script.Rule := []
  failures : List (Script.Point × Error) := []
  /-- The password that is turned away. -/
  refusedPassword : Option String := none
  /-- The time, which stands still. -/
  time : String := ""
  nextSession : SessionId := 1
  nextTransaction : TransactionId := 1
  closed : List SessionId := []
  /-- The events so far, the last first. -/
  events : List Script.Event := []
deriving DecidableEq, Repr

namespace Script

/-- Takes the failure that is prepared for a point, if there is one. -/
def failure (point : Point) : StateM Script (Option Error) :=
  modifyGet fun s =>
    let (found, left) := takeFailure point s.failures
    (found, { s with failures := left })

/-- Notes an event. -/
def note (event : Event) : StateM Script Unit :=
  modify fun s => { s with events := event :: s.events }

/-- The answer to a statement. -/
def answer (query : Query) : Option Error → StateM Script (Except Error (List Row))
  | some e => return .error e
  | none =>
    modifyGet fun s =>
      let (rows, left) := Rule.play query s.rules
      (.ok rows, { s with rules := left })

/-- Nothing, or a failure. -/
def outcome : Option Error → Except Error Unit
  | some e => .error e
  | none => .ok ()

/-- What a closed session says. -/
def closedSession : Error := .stale "socket closed"

/-- Opens a session. -/
def connect (settings : Settings) : StateM Script (Except Error SessionId) := do
  let failed ← failure .connect
  let s ← get
  note (.connect s.nextSession settings.address settings.username failed)
  match failed with
  | some e => return .error e
  | none =>
    if s.refusedPassword = some settings.password then
      return .error (.authentication ("rejected `" ++ settings.username ++ "`"))
    else
      modify fun s => { s with nextSession := s.nextSession + 1 }
      return .ok s.nextSession

/-- Runs a statement on its own. -/
def execute (session : SessionId) (query : Query) (mode : AccessMode) :
    StateM Script (Except Error (List Row)) := do
  if (← get).closed.contains session then return .error closedSession
  else
    let failed ← failure .execute
    note (.execute session mode query failed)
    answer query failed

/-- Starts a transaction. -/
def start (session : SessionId) (mode : AccessMode) :
    StateM Script (Except Error TransactionId) := do
  let s ← get
  if s.closed.contains session then return .error closedSession
  else
    let failed ← failure .start
    note (.start session mode s.nextTransaction failed)
    match failed with
    | some e => return .error e
    | none =>
      modify fun s => { s with nextTransaction := s.nextTransaction + 1 }
      return .ok s.nextTransaction

/-- Closes a session. -/
def close (session : SessionId) : StateM Script Unit := do
  note (.close session)
  modify fun s => { s with closed := session :: s.closed }

/-- Runs a statement inside a transaction. -/
def run (transaction : TransactionId) (query : Query) :
    StateM Script (Except Error (List Row)) := do
  let failed ← failure .execute
  note (.run transaction query failed)
  answer query failed

/-- Ends a transaction for good. -/
def commit (transaction : TransactionId) : StateM Script (Except Error Unit) := do
  let failed ← failure .commit
  note (.commit transaction failed)
  return outcome failed

/-- Takes a transaction back. -/
def rollback (transaction : TransactionId) : StateM Script (Except Error Unit) := do
  let failed ← failure .rollback
  note (.rollback transaction failed)
  return outcome failed

instance : Engine Script where
  connect := connect
  execute := execute
  start := start
  close := close
  run := run
  commit := commit
  rollback := rollback
  clock := return (← get).time

end Script

end GraphMapper
