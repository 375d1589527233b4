import Mathlib.Tactic
import GraphMapper.Engine.Script

/-!
What an engine that plays a script is asked to do with data.

* `Script.log`: the transactions begun, their ends and all statements, in order;
* `Script.Quiet`: calls that leave it as it is;
* `Script.run_log`, `Script.commit_log`, `Script.rollback_log`, `Script.start_log`: what each call
  adds to it;
* `Script.begun`, `Script.ended`, `Script.committed`, `Script.kept`: the transactions of a log, and
  what they leave;
* `Script.connect_quiet`, `Script.close_quiet`: sessions are opened and closed without it.
-/

namespace GraphMapper.Script

variable {α : Type}

/-! ### The log -/

/-- Whether an event has to do with data: a transaction that is begun or ends, or a statement. -/
def Event.isData : Event → Bool
  | .connect _ _ _ _ => false
  | .close _ => false
  | .start _ _ _ (some _) => false
  | _ => true

/-- The events so far that have to do with data, the first first. -/
def log (s : Script) : List Event :=
  (s.events.filter Event.isData).reverse

/-- The failure in a result. -/
def failureOf : Except Error α → Option Error
  | .ok _ => none
  | .error e => some e

/-- No transaction is begun or ends, and no statement is run. -/
structure Quiet (s s' : Script) : Prop where
  log : s'.log = s.log
  next : s'.nextTransaction = s.nextTransaction

lemma Quiet.refl (s : Script) : Quiet s s := ⟨rfl, rfl⟩

lemma Quiet.trans {s s' s'' : Script} (h : Quiet s s') (h' : Quiet s' s'') : Quiet s s'' :=
  ⟨h'.log.trans h.log, h'.next.trans h.next⟩

/-- An event that has to do with data comes at the end of the log. -/
lemma log_note {event : Event} (h : event.isData) {s s' : Script}
    (he : s'.events = event :: s.events) : s'.log = s.log ++ [event] := by
  rw [log, he, List.filter_cons_of_pos h, List.reverse_cons]
  rfl

lemma log_note_other {event : Event} (h : event.isData = false) {s s' : Script}
    (he : s'.events = event :: s.events) : s'.log = s.log := by
  rw [log, he, List.filter_cons_of_neg (by simp [h])]
  rfl

/-- A call and what follows it. -/
lemma bind_apply {β : Type} (m : StateM Script α) (f : α → StateM Script β) (s : Script) :
    (m >>= f) s = f (m s).1 (m s).2 := rfl

/-! ### Calls in transactions -/

lemma answer_snd (query : Query) (failed : Option Error) (s : Script) :
    (answer query failed s).2.events = s.events ∧
      (answer query failed s).2.nextTransaction = s.nextTransaction ∧
      failureOf (answer query failed s).1 = failed := by
  cases failed with
  | none =>
      rw [answer]
      exact ⟨rfl, rfl, rfl⟩
  | some e => exact ⟨rfl, rfl, rfl⟩

/-- A statement is noted with its failure. -/
lemma run_log (t : TransactionId) (query : Query) (s : Script) :
    (run t query s).2.log = s.log ++ [.run t query (failureOf (run t query s).1)] ∧
      (run t query s).2.nextTransaction = s.nextTransaction := by
  have hrun : run t query s = answer query (takeFailure .execute s.failures).1
      { s with
        failures := (takeFailure .execute s.failures).2
        events := .run t query (takeFailure .execute s.failures).1 :: s.events } := rfl
  obtain ⟨hevents, hnext, hfailure⟩ := answer_snd query (takeFailure .execute s.failures).1
    { s with
      failures := (takeFailure .execute s.failures).2
      events := .run t query (takeFailure .execute s.failures).1 :: s.events }
  rw [hrun]
  refine ⟨?_, hnext⟩
  rw [hfailure]
  exact log_note rfl hevents

lemma failureOf_outcome (failed : Option Error) : failureOf (outcome failed) = failed := by
  cases failed <;> rfl

/-- A commit is noted with its failure. -/
lemma commit_log (t : TransactionId) (s : Script) :
    (commit t s).2.log = s.log ++ [.commit t (failureOf (commit t s).1)] ∧
      (commit t s).2.nextTransaction = s.nextTransaction := by
  have hfailure : failureOf (commit t s).1 = (takeFailure .commit s.failures).1 :=
    failureOf_outcome _
  rw [hfailure]
  exact ⟨log_note rfl rfl, rfl⟩

lemma rollback_log (t : TransactionId) (s : Script) :
    (rollback t s).2.log = s.log ++ [.rollback t (failureOf (rollback t s).1)] ∧
      (rollback t s).2.nextTransaction = s.nextTransaction := by
  have hfailure : failureOf (rollback t s).1 = (takeFailure .rollback s.failures).1 :=
    failureOf_outcome _
  rw [hfailure]
  exact ⟨log_note rfl rfl, rfl⟩

lemma start_eq (session : SessionId) (mode : AccessMode) (s : Script) :
    start session mode s =
      if s.closed.contains session then (.error closedSession, s)
      else
        let noted : Script :=
          { s with
            failures := (takeFailure .start s.failures).2
            events := .start session mode s.nextTransaction (takeFailure .start s.failures).1 ::
              s.events }
        match (takeFailure .start s.failures).1 with
        | some e => (.error e, noted)
        | none =>
          (.ok s.nextTransaction, { noted with nextTransaction := s.nextTransaction + 1 }) := by
  by_cases hclosed : s.closed.contains session
  · rw [if_pos hclosed, start]
    change (if s.closed.contains session then
      (pure (.error closedSession) : StateM Script (Except Error TransactionId)) else _) s = _
    rw [if_pos hclosed]
    rfl
  · rw [if_neg hclosed, start]
    change (if s.closed.contains session then
      (pure (.error closedSession) : StateM Script (Except Error TransactionId)) else _) s = _
    rw [if_neg hclosed]
    change (match (takeFailure .start s.failures).1 with
      | some e => (pure (.error e) : StateM Script (Except Error TransactionId))
      | none => _) _ = _
    cases (takeFailure .start s.failures).1 <;> rfl

/-- A transaction that is begun gets the next number, and one that is not leaves the log alone. -/
lemma start_log (session : SessionId) (mode : AccessMode) (s : Script) :
    (∃ e, (start session mode s).1 = .error e ∧ Quiet s (start session mode s).2) ∨
      ((start session mode s).1 = .ok s.nextTransaction ∧
        (start session mode s).2.log = s.log ++ [.start session mode s.nextTransaction none] ∧
        (start session mode s).2.nextTransaction = s.nextTransaction + 1) := by
  rw [start_eq]
  split_ifs
  · exact .inl ⟨_, rfl, .refl s⟩
  · cases hfailed : (takeFailure .start s.failures).1 with
    | some e => exact .inl ⟨e, rfl, log_note_other rfl rfl, rfl⟩
    | none => exact .inr ⟨rfl, log_note rfl rfl, rfl⟩

/-! ### What a log says -/

/-- The transactions begun, in order. -/
def begun (events : List Event) : List TransactionId :=
  events.filterMap fun
    | .start _ _ t none => some t
    | _ => none

/-- The transactions that the engine was called to commit or to roll back, once for each call. -/
def ended (events : List Event) : List TransactionId :=
  events.filterMap fun
    | .commit t _ => some t
    | .rollback t _ => some t
    | _ => none

/-- The transactions committed.  A commit that failed has no effect. -/
def committed (events : List Event) : List TransactionId :=
  events.filterMap fun
    | .commit t none => some t
    | _ => none

/-- A statement that counts if just the given transactions do, with its failure.  One that is run on
its own always counts. -/
def Event.counted (among : List TransactionId) : Event → Option (Query × Option Error)
  | .run t query failure => if t ∈ among then some (query, failure) else none
  | .execute _ _ query failure => some (query, failure)
  | _ => none

/-- The statements that are committed, in order. -/
def kept (events : List Event) : List (Query × Option Error) :=
  events.filterMap (Event.counted (committed events))

/-- The transaction in which something is done: a statement, a commit or a rollback. -/
def Event.within : Event → Option TransactionId
  | .run t _ _ => some t
  | .commit t _ => some t
  | .rollback t _ => some t
  | _ => none

lemma ended_of_within {events : List Event} (h : ∀ e ∈ events, e.within = none) :
    ended events = [] := by
  refine List.filterMap_eq_nil_iff.mpr fun e he => ?_
  have hwithin := h e he
  cases e with
  | commit t failure => cases hwithin
  | rollback t failure => cases hwithin
  | _ => rfl

lemma begun_append (first second : List Event) :
    begun (first ++ second) = begun first ++ begun second :=
  List.filterMap_append

lemma ended_append (first second : List Event) :
    ended (first ++ second) = ended first ++ ended second :=
  List.filterMap_append

/-- What is begun in two stretches of time, one after the other, has the numbers of both. -/
lemma begun_append_fresh {first second : List Event} {low mid high : TransactionId}
    (hlow : low ≤ mid) (hhigh : mid ≤ high) (h : ∀ t ∈ begun first, low ≤ t ∧ t < mid)
    (h' : ∀ t ∈ begun second, mid ≤ t ∧ t < high) :
    ∀ t ∈ begun (first ++ second), low ≤ t ∧ t < high := by
  intro t ht
  rw [begun_append, List.mem_append] at ht
  rcases ht with ht | ht
  · exact ⟨(h t ht).1, (h t ht).2.trans_le hhigh⟩
  · exact ⟨hlow.trans (h' t ht).1, (h' t ht).2⟩

/-- No transaction is begun in both. -/
lemma begun_append_nodup {first second : List Event} {low mid high : TransactionId}
    (h : ∀ t ∈ begun first, low ≤ t ∧ t < mid) (h' : ∀ t ∈ begun second, mid ≤ t ∧ t < high)
    (hfirst : (begun first).Nodup) (hsecond : (begun second).Nodup) :
    (begun (first ++ second)).Nodup := by
  rw [begun_append]
  refine hfirst.append hsecond fun t ht ht' => ?_
  exact absurd ((h t ht).2.trans_le (h' t ht').1) (lt_irrefl t)

lemma committed_append (first second : List Event) :
    committed (first ++ second) = committed first ++ committed second :=
  List.filterMap_append

/-! ### Statements on their own -/

lemma execute_eq (session : SessionId) (query : Query) (mode : AccessMode) (s : Script) :
    execute session query mode s =
      if s.closed.contains session then (.error closedSession, s)
      else answer query (takeFailure .execute s.failures).1
        { s with
          failures := (takeFailure .execute s.failures).2
          events := .execute session mode query (takeFailure .execute s.failures).1 ::
            s.events } := by
  rw [execute]
  change (if s.closed.contains session then
    (pure (.error closedSession) : StateM Script (Except Error (List Row))) else _) s = _
  split_ifs <;> rfl

/-- A statement on its own begins no transaction, and nothing is done in one. -/
lemma execute_log (session : SessionId) (query : Query) (mode : AccessMode) (s : Script) :
    ∃ events, (execute session query mode s).2.log = s.log ++ events ∧
      (execute session query mode s).2.nextTransaction = s.nextTransaction ∧
      begun events = [] ∧ ∀ e ∈ events, e.within = none := by
  rw [execute_eq]
  split_ifs
  · exact ⟨[], (List.append_nil _).symm, rfl, rfl, by simp⟩
  · obtain ⟨hevents, hnext, -⟩ := answer_snd query (takeFailure .execute s.failures).1
      { s with
        failures := (takeFailure .execute s.failures).2
        events := .execute session mode query (takeFailure .execute s.failures).1 :: s.events }
    exact ⟨[.execute session mode query _], log_note rfl hevents, hnext, rfl, by simp [Event.within]⟩

/-! ### Sessions -/

lemma close_quiet (session : SessionId) (s : Script) : Quiet s (close session s).2 :=
  ⟨@log_note_other (.close session) rfl _ _ rfl, rfl⟩

lemma connect_eq (settings : Settings) (s : Script) :
    connect settings s =
      let noted : Script :=
        { s with
          failures := (takeFailure .connect s.failures).2
          events := .connect s.nextSession settings.address settings.username
            (takeFailure .connect s.failures).1 :: s.events }
      match (takeFailure .connect s.failures).1 with
      | some e => (.error e, noted)
      | none =>
        if s.refusedPassword = some settings.password then
          (.error (.authentication ("rejected `" ++ settings.username ++ "`")), noted)
        else (.ok s.nextSession, { noted with nextSession := s.nextSession + 1 }) := by
  rw [connect]
  change (match (takeFailure .connect s.failures).1 with
    | some e => (pure (.error e) : StateM Script (Except Error SessionId))
    | none => _) _ = _
  cases (takeFailure .connect s.failures).1 with
  | some e => rfl
  | none =>
      change (if s.refusedPassword = some settings.password then _ else _ :
        StateM Script (Except Error SessionId)) _ = _
      split_ifs <;> rfl

/-- A session is opened without a transaction. -/
lemma connect_quiet (settings : Settings) (s : Script) : Quiet s (connect settings s).2 := by
  rw [connect_eq]
  cases (takeFailure .connect s.failures).1 with
  | some e => exact ⟨log_note_other rfl rfl, rfl⟩
  | none =>
      dsimp only
      split_ifs
      · exact ⟨log_note_other rfl rfl, rfl⟩
      · exact ⟨log_note_other rfl rfl, rfl⟩

lemma closeAll_quiet (sessions : List SessionId) (s : Script) :
    Quiet s (sessions.forM close s).2 := by
  induction sessions generalizing s with
  | nil => exact .refl s
  | cons session rest ih => exact (close_quiet session s).trans (ih _)

end GraphMapper.Script
