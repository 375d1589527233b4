import GraphMapper.Proofs.Unit.Managed

/-!
Units of work that handle transactions by hand.

* `Request`, `Callback`, `Callback.play`: callbacks that run statements, nest units, and begin, commit
  and roll back by hand in any order;
* `Client.StaysOpen`: since then a transaction stays open and entered, and the engine was asked for
  nothing but statements in it; `Request.play_spec`: every request keeps it so, save an end at the
  level that the unit began at;
* `Callback.Course`: the states that a callback passes, up to an end that is not matched by a beginning
  of its own; `Callback.course_spec`: the transaction stays open in all of them;
* `Client.Attempted`, `Client.attemptUnit_stays`: one attempt with a callback;
* `Client.managed_stays` (**a unit ends its own transaction**): every managed unit of work, with
  whatever callback; `Client.committed_within`: a commit that is not matched commits the unit.
-/

namespace GraphMapper

/-! ### Callbacks -/

/-- What a callback may ask of the client, apart from nested units. -/
inductive Request where
  /-- A statement by the transaction that was handed over. -/
  | run (q : Query)
  /-- A statement by the client. -/
  | statement (q : Query) (mode : AccessMode)
  | context
  | begin (mode : AccessMode)
  | commit
  | rollback

namespace Request

/-- What comes of a request. -/
abbrev Answer : Request → Type
  | .run _ | .statement _ _ => Except Error (List Row)
  | .context => Option Context
  | .begin _ | .commit | .rollback => Except Error Unit

/-- Whether a request ends a transaction. -/
def isEnd : Request → Bool
  | .commit | .rollback => true
  | .run _ | .statement _ _ | .context | .begin _ => false

/-- Makes a request. -/
def play : (request : Request) → Handle → Action Script request.Answer
  | .run q, handle => Action.attempted (handle.run q)
  | .statement q mode, _ => Action.attempted (Client.statement q mode)
  | .context, handle => handle.context
  | .begin mode, _ => Action.attempted (Client.begin mode)
  | .commit, _ => Action.attempted Client.commit
  | .rollback, _ => Action.attempted Client.rollback

end Request

/-- **A callback**: requests and nested units, each with what follows for all that may come of it, and a
result or a failure in the end. -/
inductive Callback : Type → Type 1 where
  | finish {α : Type} (result : Except Error α) : Callback α
  | ask {α : Type} (asked : Request) (next : asked.Answer → Callback α) : Callback α
  | nested {α β : Type} (mode : AccessMode) (inner : Callback β)
      (next : Except Error β → Callback α) : Callback α

/-- The depth that an owner sees. -/
def Client.level (c : Client Script) (owner : Owner) : ℕ :=
  ((c.active.lookup owner).map (·.depth)).getD 0

/-- An action that stops where it stands, so that it shows when it is run. -/
def Action.pause {α : Type} : Action Script α := fun _ client => (.error .waiting, client)

namespace Callback

/-- Runs a callback with a client. -/
def play : {α : Type} → Callback α → Handle → Action Script α
  | _, .finish result, _ => Action.ofExcept result
  | _, .ask asked next, handle => do
    let answer ← asked.play handle
    (next answer).play handle
  | _, .nested mode inner next, handle => do
    let answer ← Action.attempted (Client.managed mode fun handle => inner.play handle)
    (next answer).play handle

/-- **The course of a callback**: the client before each of its requests, nested ones included, and at
the end.  It goes as far as the result, or up to an end at the level that the unit was begun at or
the return from a nested unit that left no level to return to; then there is no outcome. -/
inductive Course (owner : Owner) : {α : Type} → Callback α → Client Script → List (Client Script) →
    Option (Except Error α) → Client Script → Prop where
  | finish {α : Type} {result : Except Error α} {c : Client Script} :
    Course owner (.finish result) c [c] (some result) c
  | ask {α : Type} {asked : Request} {next : asked.Answer → Callback α} {c mid after : Client Script}
      {answer : asked.Answer} {states : List (Client Script)} {outcome : Option (Except Error α)}
      (hmatched : asked.isEnd → 1 < c.level owner)
      (hplay : asked.play ⟨owner⟩ owner c = (.ok answer, mid))
      (hrest : Course owner (next answer) mid states outcome after) :
    Course owner (.ask asked next) c (c :: states) outcome after
  | unmatched {α : Type} {asked : Request} {next : asked.Answer → Callback α} {c : Client Script}
      (hend : asked.isEnd) (hlevel : c.level owner ≤ 1) :
    Course owner (.ask asked next) c [c] none c
  | nested {α β : Type} {mode : AccessMode} {inner : Callback β} {next : Except Error β → Callback α}
      {c entered mid left after : Client Script} {inside states : List (Client Script)}
      {answer : Except Error β} {outcome : Option (Except Error α)}
      (henter : Client.managed mode (fun _ => (Action.pause : Action Script β)) owner c =
        (.error .waiting, entered))
      (hinner : Course owner inner entered inside (some answer) mid) (hlevel : 1 < mid.level owner)
      (hleave : Action.attempted (Client.managed mode fun handle => inner.play handle) owner c =
        (.ok answer, left))
      (hrest : Course owner (next answer) left states outcome after) :
    Course owner (.nested mode inner next) c (c :: (inside ++ states)) outcome after
  | unreturned {α β : Type} {mode : AccessMode} {inner : Callback β}
      {next : Except Error β → Callback α} {c entered mid : Client Script}
      {inside : List (Client Script)} {outcome : Option (Except Error β)}
      (henter : Client.managed mode (fun _ => (Action.pause : Action Script β)) owner c =
        (.error .waiting, entered))
      (hinner : Course owner inner entered inside outcome mid)
      (hlevel : outcome.isSome → mid.level owner ≤ 1) :
    Course owner (.nested mode inner next) c (c :: inside) none mid

lemma Course.last_mem {α : Type} {owner : Owner} {work : Callback α} {c after : Client Script}
    {states : List (Client Script)} {outcome : Option (Except Error α)}
    (h : Course owner work c states outcome after) : after ∈ states := by
  induction h with
  | finish => exact List.mem_singleton_self _
  | ask _ _ _ ih => exact List.mem_cons_of_mem _ ih
  | unmatched => exact List.mem_singleton_self _
  | nested _ _ _ _ _ _ ih => exact List.mem_cons_of_mem _ (List.mem_append_right _ ih)
  | unreturned _ _ _ ih => exact List.mem_cons_of_mem _ ih

end Callback

/-! ### An open transaction -/

/-- It is one transaction of the engine, on one session, as an owner enters and leaves it. -/
structure ActiveTransaction.Same (t t' : ActiveTransaction) : Prop where
  transaction : t'.transaction = t.transaction
  lease : t'.lease = t.lease
  serial : t'.serial = t.serial

namespace ActiveTransaction

lemma Same.refl (t : ActiveTransaction) : t.Same t := ⟨rfl, rfl, rfl⟩

lemma Same.trans {t t' t'' : ActiveTransaction} (h : t.Same t') (h' : t'.Same t'') : t.Same t'' :=
  ⟨h'.transaction.trans h.transaction, h'.lease.trans h.lease, h'.serial.trans h.serial⟩

lemma same_enter (t : ActiveTransaction) : t.Same t.enter := ⟨rfl, rfl, rfl⟩

lemma same_leave (t : ActiveTransaction) (failed : Bool) : t.Same (t.leave failed) := ⟨rfl, rfl, rfl⟩

lemma leave_false : leave false = fun t => { t with depth := t.depth - 1 } := by
  funext t
  rw [leave, Bool.or_false]

lemma leave_true : leave true = fun t => { t with depth := t.depth - 1, rollbackOnly := true } := by
  funext t
  rw [leave, Bool.or_true]

end ActiveTransaction

namespace Client

/-- **A transaction stays open**: its owner is still inside, with the others as before, and since then
the engine was asked for nothing but statements in it. -/
def StaysOpen (c : Client Script) (owner : Owner) (t : ActiveTransaction)
    (others : List (Owner × ActiveTransaction)) (after : Client Script) : Prop :=
  ∃ t' statements, t.Same t' ∧ c.Worked t.transaction statements after ∧ after.Inside owner t' others

section

variable {owner : Owner} {t : ActiveTransaction} {others : List (Owner × ActiveTransaction)}
  {c mid after : Client Script}

lemma Inside.level (h : c.Inside owner t others) : c.level owner = t.depth := by
  rw [Client.level, h.active, List.lookup_append, h.single, List.lookup_cons_self]
  rfl

lemma Inside.staysOpen (h : c.Inside owner t others) : c.StaysOpen owner t others c :=
  ⟨t, [], .refl t, .nil rfl rfl rfl, h⟩

/-- What keeps a transaction open from a state on that kept it open does so from the beginning. -/
lemma StaysOpen.trans {t' : ActiveTransaction} {statements : List Answered} (hsame : t.Same t')
    (hworked : c.Worked t.transaction statements mid) (h : mid.StaysOpen owner t' others after) :
    c.StaysOpen owner t others after := by
  obtain ⟨t'', rest, hsame', hworked', hinside⟩ := h
  rw [hsame.transaction] at hworked'
  exact ⟨t'', statements ++ rest, hsame.trans hsame', hworked.append hworked', hinside⟩

/-- A change of the levels alone. -/
lemma Inside.modifyActive_staysOpen (h : c.Inside owner t others)
    (f : ActiveTransaction → ActiveTransaction) (hdeep : 0 < (f t).depth) (hsame : t.Same (f t)) :
    ∃ after : Client Script, Client.modifyActive owner t.serial f owner c = (.ok (), after) ∧
      c.StaysOpen owner t others after := by
  obtain ⟨after, hmodify, hnothing, hinside⟩ := h.modifyActive f hdeep
  exact ⟨after, hmodify, f t, [], hsame, hnothing _, hinside⟩

/-! ### Requests -/

lemma Inside.begin_eq (h : c.Inside owner t others) (mode : AccessMode) :
    begin mode owner c = Client.modifyActive owner t.serial .enter owner c := by
  rw [begin, Action.bind_apply_ok (Action.read_apply owner c), Action.bind_apply_ok h.activeOf]
  dsimp only
  rw [if_pos h.deep]
  rfl

lemma Inside.commit_eq (h : c.Inside owner t others) (hdeep : 1 < t.depth) :
    commit owner c = Client.modifyActive owner t.serial (.leave false) owner c := by
  rw [commit, Action.bind_apply_ok (Action.read_apply owner c), Action.bind_apply_ok h.activeOf]
  dsimp only
  rw [if_pos hdeep, ActiveTransaction.leave_false]

lemma Inside.rollback_eq (h : c.Inside owner t others) (hdeep : 1 < t.depth) :
    rollback owner c = Client.modifyActive owner t.serial (.leave true) owner c := by
  rw [rollback, Action.bind_apply_ok (Action.read_apply owner c), Action.bind_apply_ok h.activeOf]
  dsimp only
  rw [if_pos hdeep, ActiveTransaction.leave_true]

/-- A managed unit of a caller inside a transaction is nested there. -/
lemma Inside.managed_eq {β : Type} (h : c.Inside owner t others) (mode : AccessMode)
    (work : Handle → Action Script β) : managed mode work owner c = nestedUnit owner work owner c := by
  rw [managed, Action.bind_apply_ok (Action.read_apply owner c), Action.bind_apply_ok h.depthOf,
    if_pos h.deep]

lemma Performs.staysOpen {β : Type} {a : Action Script β}
    {may : List Answered → Bool → Except Error β → Prop} (h : Performs a owner t others may c) :
    ∃ answer after, Action.attempted a owner c = (.ok answer, after) ∧
      c.StaysOpen owner t others after := by
  obtain ⟨statements, doomed, answer, after, hrun, -, hworked, hinside⟩ := h
  exact ⟨answer, after, Action.attempted_apply_ok hrun, t.doom doomed, statements, ⟨rfl, rfl, rfl⟩,
    hworked, hinside⟩

end

end Client

open Client in
/-- **A request keeps the transaction open**, unless it is an end at the level that the unit was begun
at. -/
theorem Request.play_spec {owner : Owner} {t : ActiveTransaction}
    {others : List (Owner × ActiveTransaction)} {c : Client Script} (request : Request)
    (h : c.Inside owner t others) (hmatched : request.isEnd → 1 < t.depth) :
    ∃ answer after, request.play ⟨owner⟩ owner c = (.ok answer, after) ∧
      c.StaysOpen owner t others after := by
  have hlevel {a : Action Script Unit} {f : ActiveTransaction → ActiveTransaction}
      (ha : a owner c = modifyActive owner t.serial f owner c) (hdeep : 0 < (f t).depth)
      (hsame : t.Same (f t)) : ∃ answer after, Action.attempted a owner c = (.ok answer, after) ∧
        c.StaysOpen owner t others after := by
    obtain ⟨after, hmodify, hopen⟩ := h.modifyActive_staysOpen f hdeep hsame
    exact ⟨.ok (), after, Action.attempted_apply_ok (ha.trans hmodify), hopen⟩
  cases request with
  | run q => exact (runIn_spec q h).staysOpen
  | statement q mode => exact (statement_spec q mode h).staysOpen
  | context => exact ⟨some t.context, c, h.contextOf, h.staysOpen⟩
  | begin mode => exact hlevel (h.begin_eq mode) (Nat.succ_pos _) t.same_enter
  | commit =>
      exact hlevel (h.commit_eq (hmatched rfl)) (Nat.sub_pos_of_lt (hmatched rfl))
        (t.same_leave false)
  | rollback =>
      exact hlevel (h.rollback_eq (hmatched rfl)) (Nat.sub_pos_of_lt (hmatched rfl))
        (t.same_leave true)

/-! ### Nested units -/

namespace Client

section

variable {owner : Owner} {t t' : ActiveTransaction} {others : List (Owner × ActiveTransaction)}
  {c entered mid : Client Script} {β : Type}

/-- A nested unit calls its callback one level deeper. -/
lemma nestedUnit_enter (h : c.Inside owner t others) :
    ∃ entered : Client Script,
      (∀ work : Handle → Action Script β, nestedUnit owner work owner c =
        (do
          let result ← Action.attempted (work ⟨owner⟩)
          modifyActive owner t.serial (.leave !result.isOk)
          Action.ofExcept result : Action Script β) owner entered) ∧
        (∀ transaction, c.Worked transaction [] entered) ∧ entered.Inside owner t.enter others := by
  obtain ⟨entered, henter, hnothing, hentered⟩ := h.modifyActive .enter (Nat.succ_pos _)
  refine ⟨entered, fun work => ?_, hnothing, hentered⟩
  rw [nestedUnit, Action.bind_apply_ok h.activeOf]
  exact Action.bind_apply_ok henter

/-- It returns to the level that it was begun at if there is one. -/
lemma nestedUnit_leave {a : Action Script β} {answer : Except Error β} {serial : ℕ}
    (hrun : a owner entered = (answer.mapError .failed, mid)) (hinside : mid.Inside owner t' others)
    (hserial : t'.serial = serial) (hlevel : 1 < t'.depth) :
    ∃ left : Client Script,
      (do
        let result ← Action.attempted a
        modifyActive owner serial (.leave !result.isOk)
        Action.ofExcept result : Action Script β) owner entered = (answer.mapError .failed, left) ∧
      mid.StaysOpen owner t' others left := by
  obtain ⟨left, hleave, hopen⟩ := hinside.modifyActive_staysOpen (.leave !answer.isOk)
    (Nat.sub_pos_of_lt hlevel) (t'.same_leave _)
  rw [hserial] at hleave
  refine ⟨left, ?_, hopen⟩
  rw [Action.bind_apply_ok (Action.attempted_apply_ok hrun), Action.bind_apply_ok hleave,
    Action.ofExcept_apply]

end

end Client

open Client in
/-- **While a callback runs its transaction stays open**: it is so in every state that the callback
passes, up to its result or its first end that is not matched. -/
theorem Callback.course_spec {α : Type} (work : Callback α) {owner : Owner} {t : ActiveTransaction}
    {others : List (Owner × ActiveTransaction)} {c : Client Script} (h : c.Inside owner t others) :
    ∃ states outcome after, Callback.Course owner work c states outcome after ∧
      (∀ state ∈ states, c.StaysOpen owner t others state) ∧
      ∀ result, outcome = some result →
        work.play ⟨owner⟩ owner c = (result.mapError .failed, after) := by
  induction work generalizing t c with
  | finish result =>
      refine ⟨[c], some result, c, .finish, ?_, ?_⟩
      · rintro state hstate
        rw [List.mem_singleton.mp hstate]
        exact h.staysOpen
      · rintro _ ⟨rfl⟩
        rw [play, Action.ofExcept_apply]
  | ask asked next ih =>
      by_cases hmatched : asked.isEnd → 1 < t.depth
      · obtain ⟨answer, mid, hplay, t', statements, hsame, hworked, hinside⟩ :=
          asked.play_spec h hmatched
        obtain ⟨states, outcome, after, hcourse, hopen, hresult⟩ := ih answer hinside
        refine ⟨c :: states, outcome, after, .ask (h.level ▸ hmatched) hplay hcourse, ?_, ?_⟩
        · rintro state hstate
          rcases List.mem_cons.mp hstate with rfl | hstate
          · exact h.staysOpen
          · exact .trans hsame hworked (hopen state hstate)
        · intro result houtcome
          rw [play, Action.bind_apply_ok hplay, hresult result houtcome]
      · push Not at hmatched
        refine ⟨[c], none, c, .unmatched hmatched.1 (h.level ▸ hmatched.2), ?_, by simp⟩
        rintro state hstate
        rw [List.mem_singleton.mp hstate]
        exact h.staysOpen
  | @nested α β mode inner next ihinner ih =>
      obtain ⟨entered, henter, hnothing, hentered⟩ := nestedUnit_enter (β := β) h
      obtain ⟨inside, outcome, mid, hcourse, hopen, hresult⟩ := ihinner hentered
      have hpause : managed mode (fun _ => (Action.pause : Action Script β)) owner c =
          (.error .waiting, entered) := (h.managed_eq mode _).trans (henter _)
      have hinside : ∀ state ∈ c :: inside, c.StaysOpen owner t others state := by
        rintro state hstate
        rcases List.mem_cons.mp hstate with rfl | hstate
        · exact h.staysOpen
        · exact .trans t.same_enter (hnothing _) (hopen state hstate)
      by_cases hreturned : outcome.isSome → mid.level owner ≤ 1
      · exact ⟨c :: inside, none, mid, .unreturned hpause hcourse hreturned, hinside, by simp⟩
      · push Not at hreturned
        obtain ⟨answer, rfl⟩ := Option.isSome_iff_exists.mp hreturned.1
        obtain ⟨t', statements, hsame, hworked, hmid⟩ := hopen mid hcourse.last_mem
        obtain ⟨left, hleave, hstill⟩ :=
          nestedUnit_leave (hresult answer rfl) hmid hsame.serial (hmid.level ▸ hreturned.2)
        have hplay : Action.attempted (managed mode fun handle => inner.play handle) owner c =
            (.ok answer, left) := by
          refine Action.attempted_apply_ok ?_
          rw [h.managed_eq, henter]
          exact hleave
        obtain ⟨t'', _, hsame', hworked', hleft⟩ : c.StaysOpen owner t others left :=
          .trans t.same_enter (hnothing _) (.trans hsame hworked hstill)
        obtain ⟨states, outcome, after, hcourse', hopen', hresult'⟩ := ih answer hleft
        refine ⟨c :: (inside ++ states), outcome, after,
          .nested hpause hcourse hreturned.2 hplay hcourse', ?_, ?_⟩
        · rintro state hstate
          rcases List.mem_append.mp (List.cons_append ▸ hstate) with hstate | hstate
          · exact hinside state hstate
          · exact .trans hsame' hworked' (hopen' state hstate)
        · intro result houtcome
          rw [play, Action.bind_apply_ok hplay, hresult' result houtcome]

/-! ### Attempts -/

namespace Client

variable {α : Type}

/-- **An attempt with a callback.** -/
inductive Attempted (mode : AccessMode) (work : Callback α) (k : ℕ) (caller : Owner)
    (c : Client Script) (r : Except Halt α) (after : Client Script) : Prop where
  /-- No transaction is left open, and the callback is not called. -/
  | unopened {events : List Script.Event}
      (hcallback : ∀ other, attemptUnit mode other k caller c = (r, after))
      (hleaves : c.Leaves events after)
  /-- The callback is called inside a new transaction, which stays open as long as it runs.  Once it
  has come to its result the unit ends the transaction, with a commit only after a success. -/
  | opened {session : SessionId} {t : ActiveTransaction} {opened last : Client Script}
      {states : List (Client Script)} {outcome : Option (Except Error α)}
      (hcontext : t.context = ⟨1, mode, k, c.policy.attempts⟩)
      (htransaction : t.transaction = c.engine.nextTransaction)
      (hlog : opened.engine.log = c.engine.log ++ [.start session mode t.transaction none])
      (hinside : opened.Inside (.unit c.nextSerial) t c.active)
      (hcourse : Callback.Course (.unit c.nextSerial) work opened states outcome last)
      (hopen : ∀ state ∈ states, opened.StaysOpen (.unit c.nextSerial) t c.active state)
      (hend : ∀ result, outcome = some result → ∃ doomed failure,
        Closed c.monitor last (Attempt.closing t.transaction (result.isOk && !doomed) failure) c.active
          after ∧
        ∀ x, r = .ok x ↔ result = .ok x ∧ doomed = false ∧ failure = none)

/-- **One attempt** keeps its transaction open while the callback runs, and ends it itself. -/
theorem attemptUnit_stays (mode : AccessMode) (work : Callback α) (k : ℕ) (caller : Owner)
    (c : Client Script) :
    ∃ r after, attemptUnit mode work.play k caller c = (r, after) ∧
      Attempted mode work k caller c r after := by
  obtain ⟨r, opened, hopen, hopened⟩ := openFor_spec α (.unit c.nextSerial) c.nextSerial mode k
    c.policy.attempts caller { c with nextSerial := c.nextSerial + 1 }
  obtain halt | ⟨⟨⟩⟩ := r
  · obtain ⟨a, -, -, -, hleaves⟩ := hopened
    have haside : c.Aside { c with nextSerial := c.nextSerial + 1 } := ⟨.refl _, rfl, rfl⟩
    have hrefused (other : Handle → Action Script α) :
        attemptUnit mode other k caller c = (.error halt, opened) :=
      (attemptUnit_eq mode other k caller c).trans (Action.bind_apply_error hopen)
    exact ⟨.error halt, opened, hrefused _,
      .unopened hrefused ((haside.leaves (.refl _)).append hleaves)⟩
  · obtain ⟨session, t, hcontext, -, htransaction, hinside, hlog, -, -, hheld⟩ := hopened
    obtain ⟨states, outcome, last, hcourse, hstates, hresult⟩ := work.course_spec hinside
    rw [attemptUnit_eq, Action.bind_apply_ok hopen]
    cases outcome with
    | none => exact ⟨_, _, rfl, .opened hcontext htransaction hlog hinside hcourse hstates (by simp)⟩
    | some result =>
        obtain ⟨t', statements, hsame, hworked, hlast⟩ := hstates last hcourse.last_mem
        have hheld' : c.monitor.OneHeld t'.lease last.monitor := by
          rw [hsame.lease]
          exact hheld.congr hworked.pool hworked.generation
        have hattempted : Action.attempted (Action.onBehalfOf (.unit c.nextSerial)
            (work.play ⟨.unit c.nextSerial⟩)) caller opened = (.ok result, last) :=
          Action.attempted_apply_ok (hresult result rfl)
        obtain ⟨failure, r, after, hconclude, hr, hclosed⟩ :=
          conclude_spec hlast hheld' caller result
        rw [hsame.transaction] at hclosed
        refine ⟨r, after, (Action.bind_apply_ok hattempted).trans hconclude,
          .opened hcontext htransaction hlog hinside hcourse hstates ?_⟩
        rintro _ ⟨rfl⟩
        exact ⟨t'.rollbackOnly, failure, hclosed, hr⟩

/-! ### Units -/

/-- **A unit ends its own transaction**: whatever the callback of a managed unit of a caller outside
does, with beginnings and ends by hand in any order and at any level, and whatever the engine
answers, in each attempt the transaction stays open, and the callback inside it, up to the result of
the callback or to its first end that no beginning of its own matches.  With the result the unit
ends the transaction itself, once. -/
theorem managed_stays (mode : AccessMode) (work : Callback α) (caller : Owner) (c : Client Script)
    (hdepth : (depth caller c).1 = .ok 0) :
    ∃ r after, managed mode work.play caller c = (r, after) ∧
      Tries caller (fun k c r after => attemptUnit mode work.play k caller c = (r, after) ∧
        Attempted mode work k caller c r after) (c.policy.attempts - 1) 1 c r after := by
  have hattempt (k : ℕ) (c : Client Script) :
      ∃ r after, attemptUnit mode work.play k caller c = (r, after) ∧
        attemptUnit mode work.play k caller c = (r, after) ∧
          Attempted mode work k caller c r after := by
    obtain ⟨r, after, hrun, hattempted⟩ := attemptUnit_stays mode work k caller c
    exact ⟨r, after, hrun, hrun, hattempted⟩
  have houtside : depthOf caller caller c = (.ok 0, c) := Prod.ext hdepth rfl
  rw [managed_outside houtside, retrying_eq]
  exact retryFrom_tries hattempt (c.policy.attempts - 1) 1 c

/-- Notes a visit at a level of its own, and the page in a nested unit that begins one level more than
it ends. -/
def handled : Callback Unit :=
  .ask (.begin .write) fun _ =>
    .ask (.run ⟨"CREATE (v:Visit)", [], []⟩) fun _ =>
      .nested .write
        (.ask (.begin .write) fun _ =>
          .ask (.statement ⟨"CREATE (p:Page)", [], []⟩ .write) fun answer =>
            .finish (answer.map fun _ => ()))
        fun _ => .ask .commit fun _ => .finish (.ok ())

theorem managed_stays_handled :
    ∃ r after, managed .write handled.play (.task none) (unlucky []) = (r, after) ∧
      Tries (.task none) (fun k c r after =>
        attemptUnit .write handled.play k (.task none) c = (r, after) ∧
          Attempted .write handled k (.task none) c r after) 2 1 (unlucky []) r after ∧
      r.isOk ∧ Script.committed after.engine.log = [1] := by
  obtain ⟨r, after, hrun, htries⟩ := managed_stays .write handled (.task none) (unlucky []) rfl
  have hok : (managed .write handled.play (.task none) (unlucky [])).1.isOk := by
    decide +kernel
  have hlog : Script.committed (managed .write handled.play (.task none) (unlucky [])).2.engine.log =
      [1] := by
    decide +kernel
  rw [hrun] at hok hlog
  exact ⟨r, after, hrun, htries, hok, hlog⟩

/-- A client as an attempt leaves it to its callback. -/
def opened : Client Script :=
  (openFor (.unit 0) 0 .write 1 3 (.task none) (unlucky [])).2

/-- A callback may end the transaction of its unit by a commit that nothing matches: the transaction
is committed and the level gone while the callback still runs. -/
theorem committed_within :
    ¬ ∀ work : Callback Unit,
      let after := (work.play ⟨.unit 0⟩ (.unit 0) opened).2
      0 < after.level (.unit 0) ∧ Script.ended after.engine.log = [] := by
  intro h
  have h1 := h (.ask .commit fun _ => .finish (.ok ()))
  exact absurd h1 (by decide +kernel)

end Client

end GraphMapper
