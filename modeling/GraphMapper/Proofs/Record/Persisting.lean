import GraphMapper.Client.Relations
import GraphMapper.Proofs.Unit.Stepwise

/-!
What becomes of the waiting changes of a record.

* `linkWork`, `Linked`: the statements of waiting changes as a unit of work, and what has come of
  each when it succeeds;
* `Carries`: a transaction in which all of them were run;
* `Client.write_links_spec`, `Client.persistAssociations_spec`: one call, by a caller outside of
  transactions or inside one;
* `Persisted`, `Persisted.Settled`: a call that wrote changes, and when they are kept;
* `Record.History`: a record that is changed in memory and written, while anything else is done with
  the client;
* `Record.History.accounted` (**no waiting change is forgotten unwritten**): what every history
  comes to; `Record.change_lost`: what was written need not be kept.
-/

namespace GraphMapper

open Client

/-! ### The statements of waiting changes -/

/-- What is to be linked has to be found. -/
def LinkStatement.check (s : LinkStatement) (rows : List Row) : Except Error Unit :=
  match s.linksTo with
  | some (label, key) => if rows.isEmpty then .error (.notFound label [key.json]) else .ok ()
  | none => .ok ()

/-- The statements of waiting changes as a unit of work. -/
def linkWork : List LinkStatement → Work Unit
  | [] => .finish (.ok ())
  | s :: rest =>
    .run s.statement.query fun answer =>
      match answer.bind s.check with
      | .error e => .finish (.error e)
      | .ok () => linkWork rest

/-- A client runs the statements as that unit of work. -/
lemma linkWork_play (handle : Handle) (links : List LinkStatement) :
    (linkWork links).play handle = runLinks handle links := by
  induction links with
  | nil => rfl
  | cons s rest ih =>
      rw [linkWork, Work.play, runLinks, Action.attempted_bind _ fun _ => rfl]
      refine congrArg (handle.run s.statement.query >>= ·) (funext fun rows => ?_)
      rw [Except.bind, LinkStatement.check]
      cases s.linksTo with
      | none => exact ih
      | some target =>
          dsimp only
          split_ifs
          · rfl
          · exact ih

/-- **The statements were run**, each without a failure, and what was to be linked was found. -/
def Linked : List LinkStatement → List Answered → Prop :=
  List.Forall₂ fun s answered =>
    answered.1 = s.statement.query ∧
      ∃ rows, answered.2 = .ok rows ∧ (s.linksTo.isSome → rows ≠ [])

lemma LinkStatement.ne_nil_of_check {s : LinkStatement} {rows : List Row}
    (h : s.check rows = .ok ()) (hlinks : s.linksTo.isSome) : rows ≠ [] := by
  rintro rfl
  obtain ⟨target, htarget⟩ := Option.isSome_iff_exists.mp hlinks
  rw [check, htarget] at h
  cases h

/-- A run that succeeds has run all the statements. -/
lemma Runs.linked {links : List LinkStatement} {context : Context} {answered : List Answered}
    {doomed : Bool} (h : Runs (linkWork links) context answered doomed (.ok ())) :
    Linked links answered := by
  induction links generalizing answered doomed with
  | nil =>
      cases h
      exact .nil
  | cons s rest ih =>
      obtain _ | @⟨_, _, _, _, answer, _, _, _, h⟩ := h
      obtain e | rows := answer
      · cases h
      · dsimp only [Except.bind] at h
        cases hcheck : s.check rows with
        | error e =>
            rw [hcheck] at h
            cases h
        | ok =>
            rw [hcheck] at h
            exact .cons ⟨rfl, rows, rfl, s.ne_nil_of_check hcheck⟩ (ih h)

/-- **A transaction carries statements** of waiting changes if all of them were run in it, among the
given events, and nothing else was.  It is the one that the caller is inside of, if there is one. -/
structure Carries (outer : Option TransactionId) (links : List LinkStatement)
    (events : List Script.Event) (t : TransactionId) : Prop where
  written : ∃ answered, Linked links answered ∧
    events.filterMap (Script.Event.counted [t]) =
      answered.map fun a => (a.1, Script.failureOf a.2)
  within : ∀ t', outer = some t' → t = t'

/-! ### Writing them -/

namespace Client

variable {owner caller : Owner} {c mid : Client Script} {t : ActiveTransaction}

/-- **A unit of work runs in a transaction** of its owner: it comes to a result without a nested
unit that fails, and the engine is asked for its statements alone. -/
def WorksIn {α : Type} (work : Work α) (owner : Owner) (t : ActiveTransaction) (context : Context)
    (c : Client Script) : Prop :=
  ∃ answered result after, work.play ⟨owner⟩ owner c = (result.mapError .failed, after) ∧
    Runs work context answered false result ∧
    after.engine.log = c.engine.log ++ answered.map (ran t.transaction)

lemma worksIn_finish {α : Type} (result : Except Error α) (owner : Owner) (t : ActiveTransaction)
    (context : Context) (c : Client Script) : WorksIn (.finish result) owner t context c := by
  refine ⟨[], result, c, ?_, .finish result context, (List.append_nil _).symm⟩
  rw [Work.play, Action.ofExcept_apply]

/-- A statement, and what follows it. -/
lemma worksIn_run {α : Type} {q : Query} {next : Except Error (List Row) → Work α}
    {context : Context} (hentry : c.active.lookup owner = some t)
    (hnext : ∀ answer mid, mid.active.lookup owner = some t →
      WorksIn (next answer) owner t context mid) : WorksIn (.run q next) owner t context c := by
  obtain ⟨mid, -, hrun, hengine, hactive⟩ := runIn_entry hentry q
  obtain ⟨answered, result, after, hplay, hruns, hlog⟩ :=
    hnext (Engine.run t.transaction q c.engine).1 mid (hactive ▸ hentry)
  refine ⟨(q, (Engine.run t.transaction q c.engine).1) :: answered, result, after, ?_, .run hruns,
    ?_⟩
  · rw [Work.play]
    exact (Action.bind_apply_ok (Action.attempted_apply_ok hrun)).trans hplay
  · have hmid : mid.engine.log = c.engine.log ++
        [.run t.transaction q (Script.failureOf (Engine.run t.transaction q c.engine).1)] := by
      rw [hengine]
      exact (Script.run_log t.transaction q c.engine).1
    rw [hlog, hmid, List.append_assoc]
    rfl

/-- The statements of waiting changes are run in the transaction of their owner. -/
lemma linkWork_worksIn (links : List LinkStatement) (context : Context)
    (hentry : c.active.lookup owner = some t) : WorksIn (linkWork links) owner t context c := by
  induction links generalizing c with
  | nil => exact worksIn_finish _ owner t context c
  | cons s rest ih =>
      refine worksIn_run hentry fun answer mid hmid => ?_
      cases answer.bind s.check with
      | error e => exact worksIn_finish _ owner t context mid
      | ok => exact ih hmid

/-- A caller inside writes the changes in its own transaction. -/
lemma write_links_inside (links : List LinkStatement) (hentry : c.active.lookup caller = some t)
    (hdeep : 0 < t.depth) :
    ∃ (r : Except Halt Unit) (after : Client Script) (events : List Script.Event),
      write (linkWork links).play caller c = (r, after) ∧
        after.engine.log = c.engine.log ++ events ∧
        (r = .ok () → Carries (some t.transaction) links events t.transaction) := by
  obtain ⟨answered, result, mid, hrun, hruns, hlog⟩ :=
    linkWork_worksIn links t.context (lookup_enter hentry)
  refine ⟨_, _, _, (managed_entry hentry hdeep _ _).trans (nestedUnit_entry hentry hrun), hlog,
    fun hr => ?_⟩
  obtain e | ⟨⟩ := result
  · cases hr
  · exact ⟨⟨answered, hruns.linked, Attempt.counted_ran List.mem_cons_self _⟩,
      fun _ => Option.some.inj⟩

/-- A caller outside writes the changes in a transaction that is committed then. -/
lemma write_links_outside (links : List LinkStatement) (hdepth : (depth caller c).1 = .ok 0) :
    ∃ (r : Except Halt Unit) (after : Client Script) (events : List Script.Event),
      write (linkWork links).play caller c = (r, after) ∧
        after.engine.log = c.engine.log ++ events ∧
        (r = .ok () → ∃ t, Carries none links events t ∧ t ∈ Script.committed events) := by
  obtain ⟨earlier, last, r, after, hrun, -, htried⟩ :=
    retryFrom_spec .write (linkWork links) caller (c.policy.attempts - 1) 1 c
  refine ⟨r, after, _, ?_, htried.leaves.log, ?_⟩
  · rw [write, managed_outside (Prod.ext hdepth rfl), retrying_eq, hrun]
  · rintro rfl
    have hcommits := (htried.result ()).mp rfl
    obtain ⟨hcommitted, hkept⟩ := htried.kept_of_ok rfl
    have hsound := htried.sound earlier.length last (by simp)
    cases hsound with
    | refused => cases hcommits
    | turnedAway => cases hcommits
    | @made answered _ _ hruns _ t _ =>
        -- what is kept of the attempts is what the last of them has run
        obtain ⟨rfl, -, -⟩ := Attempt.commits_made_iff.mp hcommits
        rw [Script.kept, hcommitted] at hkept
        refine ⟨t, ⟨⟨answered, hruns.linked, hkept⟩, by simp⟩, ?_⟩
        rw [hcommitted]
        exact List.mem_cons_self

/-- The transaction of the engine that a caller is inside of. -/
def joined (c : Client Script) (caller : Owner) : Option TransactionId :=
  ((c.active.lookup caller).filter fun t => 0 < t.depth).map (·.transaction)

/-- The changes are written in one transaction, which is committed unless its caller is inside. -/
lemma write_links_spec (links : List LinkStatement) (caller : Owner) (c : Client Script) :
    ∃ (r : Except Halt Unit) (after : Client Script) (events : List Script.Event),
      write (fun handle => runLinks handle links) caller c = (r, after) ∧
        after.engine.log = c.engine.log ++ events ∧
        (r = .ok () → ∃ t, Carries (c.joined caller) links events t ∧
          (c.joined caller = none → t ∈ Script.committed events)) := by
  have hplay : (fun handle => runLinks handle links) = (linkWork links).play :=
    funext fun handle => (linkWork_play handle links).symm
  rw [hplay, joined]
  -- a transaction that was left at depth zero is none to its owner
  by_cases hinside : ∃ t, c.active.lookup caller = some t ∧ 0 < t.depth
  · obtain ⟨t, hentry, hdeep⟩ := hinside
    obtain ⟨r, after, events, hrun, hlog, hcarries⟩ := write_links_inside links hentry hdeep
    refine ⟨r, after, events, hrun, hlog, fun hr => ⟨t.transaction, ?_⟩⟩
    rw [hentry, Option.filter_some, if_pos (by simpa using hdeep)]
    exact ⟨hcarries hr, nofun⟩
  · have hnone : (c.active.lookup caller).filter (fun t => 0 < t.depth) = none := by
      rw [Option.filter_eq_none_iff]
      exact fun t hentry hdeep => hinside ⟨t, hentry, by simpa using hdeep⟩
    have hdepth : (depth caller c).1 = .ok 0 := by
      rw [depth_apply]
      cases hentry : c.active.lookup caller with
      | none => rfl
      | some t =>
          have : ¬ 0 < t.depth := fun hdeep => hinside ⟨t, hentry, hdeep⟩
          simpa using this
    obtain ⟨r, after, events, hrun, hlog, hcarries⟩ := write_links_outside links hdepth
    refine ⟨r, after, events, hrun, hlog, fun hr => ?_⟩
    obtain ⟨t, hcarries, hcommitted⟩ := hcarries hr
    rw [hnone]
    exact ⟨t, hcarries, fun _ => hcommitted⟩

/-- **A call that succeeds** has had all waiting changes carried by one transaction, and leaves none
waiting. -/
lemma persistAssociations_spec (record : Record) (caller : Owner) (c : Client Script) :
    ∃ (r : Except Halt (ℕ × Record)) (after : Client Script) (events : List Script.Event),
      persistAssociations record caller c = (r, after) ∧
        after.engine.log = c.engine.log ++ events ∧
        ∀ n record', r = .ok (n, record') → n = record.pending.length ∧
          record' = { record with pending := [] } ∧
          (record.pending ≠ [] → ∃ links t,
            record.pending.mapM (·.statements record.attributes) = .ok links ∧
              Carries (c.joined caller) links.flatten events t ∧
              (c.joined caller = none → t ∈ Script.committed events)) := by
  rw [persistAssociations]
  split_ifs with hempty
  · have hnil : record.pending = [] := List.isEmpty_iff.mp hempty
    refine ⟨_, c, [], rfl, (List.append_nil _).symm, ?_⟩
    rintro n record' ⟨⟩
    refine ⟨(congrArg List.length hnil).symm, ?_, fun hne => absurd hnil hne⟩
    rw [← hnil]
    cases record
    rfl
  · cases hlinks : record.pending.mapM (·.statements record.attributes) with
    | error e =>
        exact ⟨_, c, [], Action.bind_apply_error (Action.fail_apply e caller c),
          (List.append_nil _).symm, nofun⟩
    | ok links =>
        obtain ⟨r, after, events, hrun, hlog, hcarries⟩ := write_links_spec links.flatten caller c
        obtain halt | ⟨⟩ := r
        · exact ⟨_, after, events,
            (Action.bind_apply_ok rfl).trans (Action.bind_apply_error hrun), hlog, nofun⟩
        · refine ⟨_, after, events,
            (Action.bind_apply_ok rfl).trans (Action.bind_apply_ok hrun), hlog, ?_⟩
          rintro n record' ⟨⟩
          obtain ⟨t, hcarried⟩ := hcarries rfl
          exact ⟨rfl, rfl, fun _ => ⟨links, t, rfl, hcarried⟩⟩

/-- Whatever comes of a call, the engine is only asked for more. -/
lemma persistAssociations_grows {record : Record} {caller : Owner} {c after : Client Script}
    {r : Except Halt (ℕ × Record)} (hrun : persistAssociations record caller c = (r, after)) :
    c.engine.log <+: after.engine.log := by
  obtain ⟨_, _, events, hrun', hlog, -⟩ := persistAssociations_spec record caller c
  obtain ⟨rfl, rfl⟩ := Prod.mk.inj (hrun.symm.trans hrun')
  exact ⟨events, hlog.symm⟩

end Client

/-! ### Calls -/

/-- **A call that wrote the waiting changes of a record**: who made it, the record and the client
that it found, and the client that it left. -/
structure Persisted where
  caller : Owner
  record : Record
  before : Client Script
  after : Client Script

namespace Persisted

/-- The transaction that the caller was inside of at the call. -/
def joined (call : Persisted) : Option TransactionId :=
  call.before.joined call.caller

/-- What the engine was asked since the call began. -/
def since (call : Persisted) (log : List Script.Event) : List Script.Event :=
  log.drop call.before.engine.log.length

/-- The changes were carried by a transaction during the call. -/
def Carried (call : Persisted) (t : TransactionId) : Prop :=
  ∃ links, call.record.pending.mapM (·.statements call.record.attributes) = .ok links ∧
    Carries call.joined links.flatten (call.since call.after.engine.log) t

/-- **The changes are kept** if the transaction that carried them was committed since. -/
def Kept (call : Persisted) (log : List Script.Event) : Prop :=
  ∃ t, call.Carried t ∧ t ∈ Script.committed (call.since log)

/-- **What a call wrote is kept on one condition**: a transaction that the caller was inside of at
the call has to be committed. -/
structure Settled (call : Persisted) (log : List Script.Event) : Prop where
  carried : ∃ t, call.Carried t
  kept_iff : call.Kept log ↔
    ∀ t, call.joined = some t → t ∈ Script.committed (call.since log)

variable {call : Persisted}

/-- A call that succeeds has had its changes carried. -/
lemma exists_carried {n : ℕ} {record : Record} (hwaiting : call.record.pending ≠ [])
    (hrun : persistAssociations call.record call.caller call.before =
      (.ok (n, record), call.after)) :
    ∃ t, call.Carried t ∧ (call.joined = none →
      t ∈ Script.committed (call.since call.after.engine.log)) := by
  obtain ⟨_, after, events, hrun', hlog, hwritten⟩ :=
    persistAssociations_spec call.record call.caller call.before
  obtain ⟨rfl, hafter⟩ := Prod.mk.inj (hrun.symm.trans hrun')
  obtain ⟨-, -, hcarried⟩ := hwritten n record rfl
  obtain ⟨links, t, hlinks, hcarries, hcommitted⟩ := hcarried hwaiting
  have hsince : call.since call.after.engine.log = events := by
    rw [since, hafter, hlog, List.drop_left]
  rw [← hsince] at hcarries hcommitted
  exact ⟨t, ⟨links, hlinks, hcarries⟩, hcommitted⟩

lemma since_mono {log log' : List Script.Event} (h : log <+: log') {t : TransactionId}
    (ht : t ∈ Script.committed (call.since log)) : t ∈ Script.committed (call.since log') :=
  ((h.drop _).filterMap _).subset ht

/-- Without a transaction around it the call itself has committed. -/
lemma Carried.settled {t : TransactionId} (h : call.Carried t)
    (hcommitted : call.joined = none →
      t ∈ Script.committed (call.since call.after.engine.log))
    {log : List Script.Event} (hlog : call.after.engine.log <+: log) : call.Settled log := by
  refine ⟨⟨t, h⟩, ?_, fun houter => ⟨t, h, ?_⟩⟩
  · rintro ⟨t', ⟨links, -, hcarries⟩, ht'⟩ outer houter
    rwa [← hcarries.within outer houter]
  · obtain ⟨links, -, hcarries⟩ := h
    cases hjoined : call.joined with
    | none => exact since_mono hlog (hcommitted hjoined)
    | some outer =>
        rw [hcarries.within outer hjoined]
        exact houter outer hjoined

end Persisted

/-- What happened to the waiting changes of a record. -/
inductive Moment where
  /-- The owner of the record along a relation was changed, in place of a change that waited. -/
  | revised (record : Record) (relation : String)
  | persisted (call : Persisted)

namespace Record

/-! ### Changes in memory -/

/-- The owner of a record along a relation is changed in memory. -/
inductive Revises (d : DirectRelation) (r r' : Record) : Prop where
  | associate (owner : Record) (h : r.associate (.direct d) owner = .ok r')
  | dissociate (h : r.dissociate (.direct d) = .ok r')

variable {r r' : Record} {d : DirectRelation} {x : EdgeChange}

/-- A change that is queued takes the place of one of the same relation, and of no other. -/
lemma mem_queue (hx : x ∈ r.pending) (hother : x.relation.name ≠ d.name) (change : EdgeChange) :
    x ∈ (r.queue d change).pending := by
  rw [queue]
  cases d.strategy.edge? with
  | none => exact hx
  | some edge =>
      refine List.mem_append_left _ (List.mem_filter.mpr ⟨hx, ?_⟩)
      simpa using hother

lemma refer_pending (r : Record) (d : DirectRelation) (key : Value) :
    (r.refer d key).pending = r.pending := by
  rw [refer]
  cases d.strategy.keys? <;> rfl

/-- The changes of other relations go on waiting. -/
lemma Revises.mem (h : Revises d r r') (hx : x ∈ r.pending) (hother : x.relation.name ≠ d.name) :
    x ∈ r'.pending := by
  have hqueued (key : Value) (change : EdgeChange) :
      x ∈ ((r.refer d key).queue d change).pending :=
    mem_queue ((refer_pending r d key).symm ▸ hx) hother change
  cases h with
  | associate owner h =>
      rw [Record.associate, owned] at h
      split_ifs at h
      · simp only [bind, Except.bind] at h
        split at h
        · cases h
        · obtain rfl := Except.ok.inj h
          exact hqueued _ _
      · cases h
  | dissociate h =>
      rw [Record.dissociate, owned] at h
      split_ifs at h
      · obtain rfl := Except.ok.inj h
        exact hqueued .null _
      · cases h

/-! ### Histories -/

/-- **The history of a record**, the last moment first: it is changed in memory and written, by any
callers and in any order, and meanwhile anything else is done with the client. -/
inductive History (record : Record) (c : Client Script) :
    List Moment → Record → Client Script → Prop where
  | start : History record c [] record c
  | revised {past : List Moment} {now now' : Record} {at' : Client Script} {d : DirectRelation}
      (h : History record c past now at') (hrevises : Revises d now now') :
      History record c (.revised now d.name :: past) now' at'
  /-- The record changes in memory, but for its waiting changes. -/
  | edited {past : List Moment} {now now' : Record} {at' : Client Script}
      (h : History record c past now at') (hpending : now'.pending = now.pending) :
      History record c past now' at'
  | persisted {past : List Moment} {now now' : Record} {at' after : Client Script} {caller : Owner}
      {n : ℕ} (h : History record c past now at')
      (hrun : persistAssociations now caller at' = (.ok (n, now'), after)) :
      History record c (.persisted ⟨caller, now, at', after⟩ :: past) now' after
  /-- Nothing is written, and the record stays as it is. -/
  | refused {past : List Moment} {now : Record} {at' after : Client Script} {caller : Owner}
      {halt : Halt} (h : History record c past now at')
      (hrun : persistAssociations now caller at' = (.error halt, after)) :
      History record c past now after
  /-- A caller does something else with the client, or a part of it, by which the engine is only
  asked for more. -/
  | elsewhere {α : Type} {past : List Moment} {now : Record} {at' : Client Script}
      (a : Action Script α) (caller : Owner) (h : History record c past now at')
      (hlog : at'.engine.log <+: (a caller at').2.engine.log) :
      History record c past now (a caller at').2

/-- Where a change is that was waiting: it still waits, or it was replaced while it did, or it was
written. -/
inductive Traced (past : List Moment) (now : Record) (x : EdgeChange) : Prop where
  | waiting (h : x ∈ now.pending)
  | replaced (r : Record) (hr : .revised r x.relation.name ∈ past) (h : x ∈ r.pending)
  | written (call : Persisted) (hcall : .persisted call ∈ past) (h : x ∈ call.record.pending)

/-- A moment matters to a change that still waits. -/
lemma Traced.cons {past : List Moment} (h : Traced past r x) (moment : Moment)
    (hwaiting : x ∈ r.pending → Traced (moment :: past) r' x) : Traced (moment :: past) r' x := by
  cases h with
  | waiting h => exact hwaiting h
  | replaced r hr h => exact .replaced r (List.mem_cons_of_mem _ hr) h
  | written call hcall h => exact .written call (List.mem_cons_of_mem _ hcall) h

namespace History

variable {record now now' : Record} {c at' after : Client Script} {past : List Moment}

/-- A call of a history has succeeded, and the engine was only asked for more since. -/
lemma ran (h : History record c past now at') :
    ∀ call, .persisted call ∈ past → call.after.engine.log <+: at'.engine.log ∧
      ∃ n r, persistAssociations call.record call.caller call.before =
        (.ok (n, r), call.after) := by
  induction h with
  | start => exact fun _ h => absurd h List.not_mem_nil
  | revised _ _ ih =>
      exact fun call hcall => ih call ((List.mem_cons.mp hcall).resolve_left nofun)
  | edited _ _ ih => exact ih
  | @persisted _ _ now' _ _ _ n _ hrun ih =>
      intro call hcall
      obtain heq | hcall := List.mem_cons.mp hcall
      · obtain rfl := Moment.persisted.inj heq
        exact ⟨List.prefix_rfl, n, now', hrun⟩
      · exact ⟨(ih call hcall).1.trans (persistAssociations_grows hrun), (ih call hcall).2⟩
  | refused _ hrun ih =>
      exact fun call hcall =>
        ⟨(ih call hcall).1.trans (persistAssociations_grows hrun), (ih call hcall).2⟩
  | elsewhere _ _ _ hlog ih =>
      exact fun call hcall => ⟨(ih call hcall).1.trans hlog, (ih call hcall).2⟩

/-- A change leaves the waiting ones when it is replaced or written. -/
lemma traced (h : History record c past now at') (hx : x ∈ record.pending) : Traced past now x := by
  induction h with
  | start => exact .waiting hx
  | @revised past now _ _ d _ hrevises ih =>
      refine ih.cons _ fun hnow => ?_
      by_cases hname : x.relation.name = d.name
      · exact .replaced now (hname ▸ List.mem_cons_self) hnow
      · exact .waiting (hrevises.mem hnow hname)
  | edited _ hpending ih =>
      cases ih with
      | waiting h => exact .waiting (hpending.symm ▸ h)
      | replaced r hr h => exact .replaced r hr h
      | written call hcall h => exact .written call hcall h
  | persisted _ _ ih => exact ih.cons _ fun hnow => .written _ List.mem_cons_self hnow
  | refused _ _ ih | elsewhere _ _ _ _ ih => exact ih

end History

/-- **What becomes of the waiting changes of a record** by the end of a history. -/
structure Accounted (record : Record) (past : List Moment) (now : Record)
    (log : List Script.Event) : Prop where
  /-- A change stops waiting only when it is replaced or written. -/
  traced : ∀ x ∈ record.pending, Traced past now x
  /-- One transaction has carried all that a call wrote, and it is kept but for a transaction around
  the call. -/
  settled : ∀ call, .persisted call ∈ past → call.record.pending ≠ [] → call.Settled log

/-- **No waiting change is forgotten unwritten**: whatever is done with a record and with the
client, a change goes on waiting until it is replaced or a call succeeds that has run all the
statements of all waiting changes in one transaction.  The call itself has committed that
transaction unless the caller was inside of it before: then the changes are kept just if it is
committed afterwards. -/
theorem History.accounted {record now : Record} {c at' : Client Script} {past : List Moment}
    (h : History record c past now at') : Accounted record past now at'.engine.log where
  traced _ hx := h.traced hx
  settled call hcall hwaiting := by
    obtain ⟨hlog, n, r, hrun⟩ := h.ran call hcall
    obtain ⟨t, hcarried, hcommitted⟩ := Persisted.exists_carried hwaiting hrun
    exact hcarried.settled hcommitted hlog

/-- A post that has lost its author, which the store has yet to be told. -/
def orphan : Record where
  label := "Post"
  attributes := [("id", .int 1)]
  pending := [.dissociate
    { name := "author", kind := .belongsTo, parentLabel := "Post", relatedLabel := "User"
      strategy := .nativeEdge ⟨"WRITTEN_BY", .outgoing⟩ "id" "id", pivot := none, scope := {} }]

/-- The post is written inside a transaction begun by hand. -/
def orphaning : Persisted where
  caller := .task none
  record := orphan
  before := (begin .write (.task none) (unlucky [])).2
  after := (persistAssociations orphan (.task none) (begin .write (.task none) (unlucky [])).2).2

lemma exists_orphaned :
    ∃ now, History orphan (unlucky []) [.persisted orphaning] now orphaning.after := by
  have hbegun : History orphan (unlucky []) [] orphan orphaning.before :=
    .elsewhere (begin .write) (.task none) .start (by decide +kernel)
  have hok : (persistAssociations orphan (.task none) orphaning.before).1.isOk := by
    decide +kernel
  rcases hrun : (persistAssociations orphan (.task none) orphaning.before).1 with halt | ⟨n, now⟩
  · rw [hrun] at hok
    cases hok
  · exact ⟨now, .persisted hbegun (Prod.ext hrun rfl)⟩

/-- The transaction around the call is committed, and the change of the post is kept. -/
theorem History.accounted_committed :
    ∃ now at', History orphan (unlucky []) [.persisted orphaning] now at' ∧
      Accounted orphan [.persisted orphaning] now at'.engine.log ∧
      orphaning.Kept at'.engine.log := by
  obtain ⟨now, h⟩ := exists_orphaned
  have hdone : History orphan (unlucky []) _ now (commit (.task none) orphaning.after).2 :=
    .elsewhere commit (.task none) h (by decide +kernel)
  have haccounted := History.accounted hdone
  have hjoined : orphaning.joined = some 1 := by
    decide +kernel
  have hcommitted : 1 ∈ Script.committed
      (orphaning.since (commit (.task none) orphaning.after).2.engine.log) := by
    decide +kernel
  refine ⟨now, _, hdone, haccounted, ?_⟩
  refine (haccounted.settled orphaning List.mem_cons_self (List.cons_ne_nil _ _)).kept_iff.mpr ?_
  intro t ht
  obtain rfl := Option.some.inj (hjoined.symm.trans ht)
  exact hcommitted

/-- Changes that were written need not be kept: they do not wait any more when the transaction
around the call is rolled back. -/
theorem change_lost :
    ¬ ∀ past now at', History orphan (unlucky []) past now at' →
      ∀ call, .persisted call ∈ past → call.record.pending ≠ [] → call.Kept at'.engine.log := by
  intro hkept
  obtain ⟨now, h⟩ := exists_orphaned
  have hundone : History orphan (unlucky []) _ now (rollback (.task none) orphaning.after).2 :=
    .elsewhere rollback (.task none) h (by decide +kernel)
  have hnone : Script.committed
      (orphaning.since (rollback (.task none) orphaning.after).2.engine.log) = [] := by
    decide +kernel
  obtain ⟨t, -, ht⟩ :=
    hkept _ _ _ hundone orphaning List.mem_cons_self (List.cons_ne_nil _ _)
  rw [hnone] at ht
  cases ht

end Record

end GraphMapper
