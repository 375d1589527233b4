import GraphMapper.Proofs.Unit.Session

/-!
What a unit of work does inside its transaction.

* `Work`, `Work.play`: units of work built from statements and nested units, and how a client runs
  them;
* `Runs`: what a run of a unit of work may be, whatever the engine answers;
* `Client.Inside`, `Client.Worked`: a client whose owner is inside a transaction, and one that has
  run statements in it meanwhile;
* `Client.runIn_spec`, `Client.nestedUnit_spec`: single statements and nested units;
* `Work.play_spec`: every unit of work.
-/

namespace GraphMapper

/-! ### Units of work -/

/-- **A unit of work**: statements, nested units of work and looks at the transaction, each with the
work that follows for all that may come of it, and a result or a failure in the end.  A failure
inside is propagated by finishing with it, and swallowed by going on. -/
inductive Work : Type → Type 1 where
  | finish {α : Type} (result : Except Error α) : Work α
  /-- A statement by the transaction that was handed over. -/
  | run {α : Type} (q : Query) (next : Except Error (List Row) → Work α) : Work α
  /-- A statement by the client. -/
  | statement {α : Type} (q : Query) (mode : AccessMode)
      (next : Except Error (List Row) → Work α) : Work α
  | nested {α β : Type} (mode : AccessMode) (inner : Work β)
      (next : Except Error β → Work α) : Work α
  | context {α : Type} (next : Option Context → Work α) : Work α

/-- Runs a unit of work with a client. -/
def Work.play : {α : Type} → Work α → Handle → Action Script α
  | _, .finish result, _ => Action.ofExcept result
  | _, .run q next, handle => do
    let answer ← Action.attempted (handle.run q)
    (next answer).play handle
  | _, .statement q mode next, handle => do
    let answer ← Action.attempted (Client.statement q mode)
    (next answer).play handle
  | _, .nested mode inner next, handle => do
    let answer ← Action.attempted (Client.managed mode fun handle => inner.play handle)
    (next answer).play handle
  | _, .context next, handle => do
    let seen ← handle.context
    (next seen).play handle

/-- A statement and what came of it. -/
abbrev Answered := Query × Except Error (List Row)

/-- **A run of a unit of work** in a transaction that looks as given: the statements that were run,
in order, whether a nested unit failed, and the result. -/
inductive Runs : {α : Type} → Work α → Context → List Answered → Bool → Except Error α → Prop where
  | finish {α : Type} (result : Except Error α) (context : Context) :
      Runs (.finish result) context [] false result
  | run {α : Type} {q : Query} {next : Except Error (List Row) → Work α} {context : Context}
      {answer : Except Error (List Row)} {rest : List Answered} {doomed : Bool}
      {result : Except Error α} (h : Runs (next answer) context rest doomed result) :
      Runs (.run q next) context ((q, answer) :: rest) doomed result
  | statement {α : Type} {q : Query} {mode : AccessMode} {next : Except Error (List Row) → Work α}
      {context : Context} {answer : Except Error (List Row)} {rest : List Answered} {doomed : Bool}
      {result : Except Error α} (h : Runs (next answer) context rest doomed result) :
      Runs (.statement q mode next) context ((q, answer) :: rest) doomed result
  | nested {α β : Type} {mode : AccessMode} {inner : Work β} {next : Except Error β → Work α}
      {context : Context} {inside rest : List Answered} {doomed doomed' : Bool}
      {answer : Except Error β} {result : Except Error α}
      (hinner : Runs inner { context with depth := context.depth + 1 } inside doomed answer)
      (h : Runs (next answer) context rest doomed' result) :
      Runs (.nested mode inner next) context (inside ++ rest) (doomed || !answer.isOk || doomed')
        result
  | context {α : Type} {next : Option Context → Work α} {context : Context} {rest : List Answered}
      {doomed : Bool} {result : Except Error α}
      (h : Runs (next (some context)) context rest doomed result) :
      Runs (.context next) context rest doomed result

/-! ### Inside a transaction -/

/-- What its owner can see of a transaction. -/
def ActiveTransaction.context (t : ActiveTransaction) : Context :=
  ⟨t.depth, t.mode, t.attempt, t.maxAttempts⟩

/-- The transaction after nested units of which one may have failed. -/
def ActiveTransaction.doom (t : ActiveTransaction) (doomed : Bool) : ActiveTransaction :=
  { t with rollbackOnly := t.rollbackOnly || doomed }

/-- The transaction one level deeper. -/
def ActiveTransaction.enter (t : ActiveTransaction) : ActiveTransaction :=
  { t with depth := t.depth + 1 }

/-- The transaction after a nested unit, one level up again. -/
def ActiveTransaction.leave (failed : Bool) (t : ActiveTransaction) : ActiveTransaction :=
  { t with depth := t.depth - 1, rollbackOnly := t.rollbackOnly || failed }

namespace ActiveTransaction

lemma doom_false (t : ActiveTransaction) : t.doom false = t := by
  rw [doom, Bool.or_false]

lemma doom_doom (t : ActiveTransaction) (doomed doomed' : Bool) :
    (t.doom doomed).doom doomed' = t.doom (doomed || doomed') := by
  simp only [doom, Bool.or_assoc]

lemma leave_doom_enter (t : ActiveTransaction) (doomed failed : Bool) :
    leave failed (t.enter.doom doomed) = t.doom (doomed || failed) := by
  simp only [leave, doom, enter, Bool.or_assoc, Nat.add_sub_cancel]

end ActiveTransaction

namespace Client

/-- The owner is inside a transaction, and the others have theirs. -/
structure Inside (c : Client Script) (owner : Owner) (t : ActiveTransaction)
    (others : List (Owner × ActiveTransaction)) : Prop where
  active : c.active = others ++ [(owner, t)]
  single : others.lookup owner = none
  deep : 0 < t.depth

/-- The event of a statement. -/
def ran (transaction : TransactionId) (s : Answered) : Script.Event :=
  .run transaction s.1 (Script.failureOf s.2)

/-- Meanwhile the statements were run in the transaction, and nothing else was done with data. -/
structure Worked (c : Client Script) (transaction : TransactionId) (statements : List Answered)
    (after : Client Script) : Prop where
  log : after.engine.log = c.engine.log ++ statements.map (ran transaction)
  next : after.engine.nextTransaction = c.engine.nextTransaction
  policy : after.policy = c.policy
  pool : after.monitor.pool = c.monitor.pool
  generation : after.monitor.generation = c.monitor.generation

section Lemmas

variable {caller owner : Owner} {t : ActiveTransaction} {others : List (Owner × ActiveTransaction)}
  {c mid after : Client Script} {transaction : TransactionId}

lemma Worked.nil (hengine : after.engine = c.engine) (hmonitor : after.monitor = c.monitor)
    (hpolicy : after.policy = c.policy) : c.Worked transaction [] after := by
  refine ⟨?_, ?_, hpolicy, ?_, ?_⟩
  · rw [hengine, List.map_nil, List.append_nil]
  · rw [hengine]
  · rw [hmonitor]
  · rw [hmonitor]

lemma Worked.append {first second : List Answered} (h : c.Worked transaction first mid)
    (h' : mid.Worked transaction second after) : c.Worked transaction (first ++ second) after := by
  refine ⟨?_, h'.next.trans h.next, h'.policy.trans h.policy, h'.pool.trans h.pool,
    h'.generation.trans h.generation⟩
  rw [h'.log, h.log, List.map_append, List.append_assoc]

lemma Inside.ne (h : c.Inside owner t others) {p : Owner × ActiveTransaction} (hp : p ∈ others) :
    p.1 ≠ owner := by
  have hne := List.lookup_eq_none_iff.mp h.single p hp
  simp only [bne_iff_ne] at hne
  exact hne.symm

lemma Inside.activeOf (h : c.Inside owner t others) :
    Client.activeOf owner caller c = (.ok (some t), c) := by
  have hlookup : c.active.lookup owner = some t := by
    rw [h.active, List.lookup_append, h.single, List.lookup_cons_self]
    rfl
  rw [Client.activeOf, Action.bind_apply_ok (Action.get_apply caller c), hlookup]
  rfl

lemma Inside.depthOf (h : c.Inside owner t others) :
    Client.depthOf owner caller c = (.ok t.depth, c) := by
  rw [Client.depthOf, Action.bind_apply_ok h.activeOf]
  rfl

lemma Inside.contextOf (h : c.Inside owner t others) :
    Client.contextOf owner caller c = (.ok (some t.context), c) := by
  rw [Client.contextOf, Action.bind_apply_ok h.activeOf]
  simp only [Option.bind_some, if_pos h.deep]
  rfl

/-- The transaction of an owner is changed, and no other. -/
lemma Inside.modifyActive (h : c.Inside owner t others) (f : ActiveTransaction → ActiveTransaction)
    (hdeep : 0 < (f t).depth) :
    ∃ after : Client Script, Client.modifyActive owner t.serial f caller c = (.ok (), after) ∧
      (∀ transaction, c.Worked transaction [] after) ∧ after.Inside owner (f t) others := by
  refine ⟨_, rfl, fun _ => Worked.nil rfl rfl rfl, ?_, h.single, hdeep⟩
  have hothers : others.map (fun p =>
      if p.1 = owner ∧ p.2.serial = t.serial then (p.1, f p.2) else (p.1, p.2)) = others := by
    refine (List.map_congr_left fun p hp => ?_).trans (List.map_id others)
    exact if_neg fun hne => h.ne hp hne.1
  change c.active.map (fun p =>
    if p.1 = owner ∧ p.2.serial = t.serial then (p.1, f p.2) else (p.1, p.2)) = _
  rw [h.active, List.map_append, hothers, List.map_singleton]
  simp only [true_and, if_true]

end Lemmas

/-! ### Actions inside a transaction -/

/-- **An action inside a transaction**: it runs statements in it and comes to a result, dooms the
transaction or not, and changes nothing else.  What it may do so is given. -/
def Performs {α : Type} (a : Action Script α) (owner : Owner) (t : ActiveTransaction)
    (others : List (Owner × ActiveTransaction)) (may : List Answered → Bool → Except Error α → Prop)
    (c : Client Script) : Prop :=
  ∃ statements doomed result after, a owner c = (result.mapError .failed, after) ∧
    may statements doomed result ∧ c.Worked t.transaction statements after ∧
    after.Inside owner (t.doom doomed) others

section Performs

variable {α β : Type} {owner : Owner} {t : ActiveTransaction}
  {others : List (Owner × ActiveTransaction)} {c : Client Script}

lemma Performs.mono {a : Action Script α} {may may' : List Answered → Bool → Except Error α → Prop}
    (ha : Performs a owner t others may c)
    (h : ∀ {statements doomed result},
      may statements doomed result → may' statements doomed result) :
    Performs a owner t others may' c := by
  obtain ⟨statements, doomed, result, after, hrun, hmay, hworked, hinside⟩ := ha
  exact ⟨statements, doomed, result, after, hrun, h hmay, hworked, hinside⟩

/-- An action that goes on after another whatever came of that. -/
lemma Performs.andThen {a : Action Script β} {f : Except Error β → Action Script α}
    {first : List Answered → Bool → Except Error β → Prop}
    {may : List Answered → Bool → Except Error α → Prop} (ha : Performs a owner t others first c)
    (hf : ∀ {statements doomed answer mid}, first statements doomed answer →
      mid.Inside owner (t.doom doomed) others →
      Performs (f answer) owner (t.doom doomed) others
        (fun rest doomed' => may (statements ++ rest) (doomed || doomed')) mid) :
    Performs (Action.attempted a >>= f) owner t others may c := by
  obtain ⟨statements, doomed, answer, mid, hrun, hmay, hworked, hinside⟩ := ha
  obtain ⟨rest, doomed', result, after, hrun', hmay', hworked', hinside'⟩ := hf hmay hinside
  refine ⟨statements ++ rest, doomed || doomed', result, after, ?_, hmay',
    hworked.append hworked', ?_⟩
  · rw [Action.bind_apply_ok (Action.attempted_apply_ok hrun), hrun']
  · rw [← ActiveTransaction.doom_doom]
    exact hinside'

/-- A statement in the transaction of the caller. -/
lemma runIn_spec (q : Query) (h : c.Inside owner t others) :
    Performs (runIn owner q) owner t others
      (fun statements doomed answer => statements = [(q, answer)] ∧ doomed = false) c := by
  obtain ⟨hlog, hnext⟩ := Script.run_log t.transaction q c.engine
  obtain ⟨after, hobserved, hengine, hkeeps⟩ := observed_spec owner c (Engine.run t.transaction q)
  have hrun : runIn owner q owner c =
      ((Engine.run t.transaction q c.engine).1.mapError .failed, after) := by
    rw [runIn, Action.bind_apply_ok h.activeOf]
    dsimp only
    rw [Action.bind_apply_ok hobserved, Action.ofExcept_apply]
  refine ⟨_, false, _, after, hrun, ⟨rfl, rfl⟩, ?_, ?_⟩
  · refine ⟨?_, ?_, hkeeps.policy, hkeeps.pool, hkeeps.generation⟩
    · rw [hengine]
      exact hlog
    · rw [hengine]
      exact hnext
  · rw [ActiveTransaction.doom_false]
    exact ⟨hkeeps.active.trans h.active, h.single, h.deep⟩

/-- A nested unit of work dooms the transaction if it fails or something inside it did. -/
lemma nestedUnit_spec {work : Handle → Action Script β}
    {may : List Answered → Bool → Except Error β → Prop} (h : c.Inside owner t others)
    (hwork : ∀ mid : Client Script, mid.Inside owner t.enter others →
      Performs (work ⟨owner⟩) owner t.enter others may mid) :
    Performs (nestedUnit owner work) owner t others
      (fun statements doomed answer =>
        ∃ inner, may statements inner answer ∧ doomed = (inner || !answer.isOk)) c := by
  obtain ⟨entered, henter, hnothing, hentered⟩ := h.modifyActive .enter (Nat.succ_pos _)
  obtain ⟨statements, inner, answer, mid, hrun, hmay, hworked, hinside⟩ := hwork entered hentered
  obtain ⟨after, hleave, hnothing', hafter⟩ := hinside.modifyActive (.leave !answer.isOk) h.deep
  refine ⟨statements, inner || !answer.isOk, answer, after, ?_, ⟨inner, hmay, rfl⟩, ?_, ?_⟩
  · rw [nestedUnit, Action.bind_apply_ok h.activeOf]
    refine (Action.bind_apply_ok henter).trans ?_
    rw [Action.bind_apply_ok (Action.attempted_apply_ok hrun)]
    exact (Action.bind_apply_ok hleave).trans (Action.ofExcept_apply answer owner after)
  · have hall := ((hnothing _).append hworked).append (hnothing' _)
    rw [List.nil_append, List.append_nil] at hall
    exact hall
  · rw [← ActiveTransaction.leave_doom_enter]
    exact hafter

/-- The client runs a statement of a caller inside a transaction there. -/
lemma statement_spec (q : Query) (mode : AccessMode) (h : c.Inside owner t others) :
    Performs (statement q mode) owner t others
      (fun statements doomed answer => statements = [(q, answer)] ∧ doomed = false) c := by
  have hrun : statement q mode owner c = runIn owner q owner c := by
    rw [statement.eq_def, Action.bind_apply_ok (Action.read_apply owner c),
      Action.bind_apply_ok h.depthOf, if_pos h.deep]
  rw [Performs, hrun]
  exact runIn_spec q h

/-- A managed unit of work of a caller inside a transaction is nested there. -/
lemma managed_spec (mode : AccessMode) {work : Handle → Action Script β}
    {may : List Answered → Bool → Except Error β → Prop} (h : c.Inside owner t others)
    (hwork : ∀ mid : Client Script, mid.Inside owner t.enter others →
      Performs (work ⟨owner⟩) owner t.enter others may mid) :
    Performs (managed mode work) owner t others
      (fun statements doomed answer =>
        ∃ inner, may statements inner answer ∧ doomed = (inner || !answer.isOk)) c := by
  have hrun : managed mode work owner c = nestedUnit owner work owner c := by
    rw [managed, Action.bind_apply_ok (Action.read_apply owner c), Action.bind_apply_ok h.depthOf,
      if_pos h.deep]
  rw [Performs, hrun]
  exact nestedUnit_spec h hwork

end Performs

end Client

/-- **Inside its transaction** a unit of work runs as the relation `Runs` says. -/
theorem Work.play_spec {α : Type} (work : Work α) {owner : Owner} {t : ActiveTransaction}
    {others : List (Owner × ActiveTransaction)} {c : Client Script} (h : c.Inside owner t others) :
    Client.Performs (work.play ⟨owner⟩) owner t others (Runs work t.context) c := by
  induction work generalizing t c with
  | finish result =>
      refine ⟨[], false, result, c, ?_, .finish result t.context, Client.Worked.nil rfl rfl rfl, ?_⟩
      · rw [Work.play, Action.ofExcept_apply]
      · rw [ActiveTransaction.doom_false]
        exact h
  | run q next ih =>
      rw [Work.play]
      refine (Client.runIn_spec q h).andThen fun hfirst hmid => ?_
      obtain ⟨rfl, rfl⟩ := hfirst
      exact (ih _ hmid).mono .run
  | statement q mode next ih =>
      rw [Work.play]
      refine (Client.statement_spec q mode h).andThen fun hfirst hmid => ?_
      obtain ⟨rfl, rfl⟩ := hfirst
      exact (ih _ hmid).mono .statement
  | nested mode inner next ihinner ih =>
      rw [Work.play]
      refine (Client.managed_spec mode h fun _ hdeep => ihinner hdeep).andThen fun hfirst hmid => ?_
      obtain ⟨_, hinner, rfl⟩ := hfirst
      exact (ih _ hmid).mono (.nested hinner)
  | context next ih =>
      rw [Work.play]
      obtain ⟨rest, doomed, result, after, hrun, hruns, hworked, hinside⟩ := ih (some t.context) h
      refine ⟨rest, doomed, result, after, ?_, .context hruns, hworked, hinside⟩
      exact (Action.bind_apply_ok h.contextOf).trans hrun

end GraphMapper
