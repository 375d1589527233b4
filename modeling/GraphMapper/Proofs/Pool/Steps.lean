import Mathlib.Logic.Relation
import GraphMapper.Proofs.Unit.Session

/-!
A pool with many users, step by step.

* `Pool.keep`, `Pool.shut`, `Pool.drain`: a return and a close in parts;
* `Traffic`, `Traffic.Stage`: a pool, how far each of its users is, and what became of its sessions;
* `Traffic.Step`, `Traffic.Path`: the steps of the users in any order.  A user takes a permit first
  and looks for an idle session later; it gives its session back first and its permit later; and
  whoever closes the pool marks it as closed, bars further check-outs, takes the idle sessions away
  and closes them one after the other;
* `Traffic.Path.acquire`, `Traffic.Path.putBack`, `Traffic.Path.close`: a user that is left alone
  does what the whole operation does;
* `Traffic.Path.settle`: what came back to a closed pool is closed as well.
-/

namespace GraphMapper

/-! ### Operations in parts -/

namespace Pool

/-- Puts a session back, without the permit. -/
def keep (p : Pool) (session : SessionId) : Pool × Option SessionId :=
  if p.closed then (p, some session) else ({ p with idle := session :: p.idle }, none)

/-- Marks a pool as closed. -/
def shut (p : Pool) : Pool :=
  { p with closed := true }

/-- Takes all idle sessions away, the oldest first. -/
def drain (p : Pool) : List SessionId × Pool :=
  (p.idle.reverse, { p with idle := [] })

lemma putBack_eq (p : Pool) (session : SessionId) :
    p.putBack session = ((p.keep session).1.cancel, (p.keep session).2) := by
  rw [putBack, keep]
  split_ifs <;> rfl

/-- A check-out that finds no idle session opens one. -/
lemma acquire_fresh {σ : Type} [Engine σ] {p reserved : Pool} (hopen : p.closed = false)
    (hreserve : p.reserve? = some reserved) (htake : reserved.takeIdle? = none) (s : σ) :
    p.acquire s =
      match Engine.connect p.settings s with
      | (.error e, s') => ((.refused e, reserved.cancel), s')
      | (.ok session, s') => ((.session session, reserved.adopt), s') := by
  rw [acquire, if_neg (by simp [hopen])]
  simp only [hreserve, htake]
  rcases hconnect : Engine.connect p.settings s with ⟨e | session, s'⟩
  · simp only [bind, StateT.bind, hconnect]
    rfl
  · simp only [bind, StateT.bind, hconnect]
    rfl

lemma reserve?_eq_some {p reserved : Pool} (h : p.reserve? = some reserved) :
    0 < p.permits ∧ reserved = { p with permits := p.permits - 1 } := by
  rw [reserve?] at h
  split_ifs at h with hnone
  exact ⟨Nat.pos_of_ne_zero hnone, (Option.some.inj h).symm⟩

lemma takeIdle?_eq_some {p rest : Pool} {session : SessionId}
    (h : p.takeIdle? = some (session, rest)) :
    p.idle = session :: rest.idle ∧ rest = { p with idle := rest.idle } := by
  rw [takeIdle?] at h
  cases hidle : p.idle with
  | nil => simp [hidle] at h
  | cons first others =>
      rw [hidle] at h
      obtain ⟨rfl, rfl⟩ := Prod.mk.inj (Option.some.inj h)
      exact ⟨rfl, rfl⟩

lemma takeIdle?_eq_none {p : Pool} : p.takeIdle? = none ↔ p.idle = [] := by
  rw [takeIdle?]
  cases p.idle <;> simp

@[simp] lemma keep_permits (p : Pool) (session : SessionId) :
    (p.keep session).1.permits = p.permits := by
  rw [keep]
  split_ifs <;> rfl

@[simp] lemma keep_settings (p : Pool) (session : SessionId) :
    (p.keep session).1.settings = p.settings := by
  rw [keep]
  split_ifs <;> rfl

@[simp] lemma keep_opened (p : Pool) (session : SessionId) :
    (p.keep session).1.opened = p.opened := by
  rw [keep]
  split_ifs <;> rfl

@[simp] lemma keep_closed (p : Pool) (session : SessionId) :
    (p.keep session).1.closed = p.closed := by
  rw [keep]
  split_ifs <;> rfl

end Pool

/-! ### Users -/

/-- How far a user of a pool is: with a check-out, with a session, or with closing the pool. -/
inductive Traffic.Stage where
  | away
  /-- It has a permit. -/
  | reserved
  /-- It has a permit and found no idle session, so it opens one. -/
  | opening
  | holding (session : SessionId)
  /-- It has given its session back and still has the permit. -/
  | returning
  /-- It has marked the pool as closed. -/
  | shutting
  /-- It has barred further check-outs. -/
  | barring
  /-- It closes the sessions that were idle, and these are left. -/
  | closing (left : List SessionId)
deriving DecidableEq, Repr

/-- A pool, how far each of its users is, and what became of the sessions. -/
structure Traffic (ι : Type) where
  pool : Pool
  stage : ι → Traffic.Stage
  /-- No more permits are given out. -/
  barred : Bool
  /-- The idle sessions were taken away to be closed. -/
  drained : Bool
  /-- Sessions that came back to the closed pool and wait to be closed, each by itself. -/
  handedBack : List SessionId
  /-- The sessions that the pool opened. -/
  opened : List SessionId
  /-- The sessions that were closed, once for each time. -/
  closed : List SessionId

namespace Traffic

variable {ι σ : Type}

/-- A pool before its first use. -/
def start (p : Pool) : Traffic ι where
  pool := p
  stage := fun _ => .away
  barred := false
  drained := false
  handedBack := []
  opened := p.idle
  closed := []

variable [DecidableEq ι]

/-- One user is further on, and the pool has changed. -/
def advance (S : Traffic ι) (i : ι) (stage : Stage) (p : Pool) : Traffic ι :=
  { S with pool := p, stage := Function.update S.stage i stage }

/-- **The steps of users.**  What the engine does is asked of it in any of its states, as others use
it as well; a session that it opens is none that the pool has opened before. -/
inductive Step (σ : Type) [Engine σ] (S : Traffic ι) : Traffic ι → Prop where
  | reserves {i : ι} {p : Pool} (hstage : S.stage i = .away) (hbarred : S.barred = false)
      (htake : S.pool.reserve? = some p) : Step σ S (S.advance i .reserved p)
  | reuses {i : ι} {session : SessionId} {p : Pool} (hstage : S.stage i = .reserved)
      (htake : S.pool.takeIdle? = some (session, p)) : Step σ S (S.advance i (.holding session) p)
  | asks {i : ι} (hstage : S.stage i = .reserved) (hnone : S.pool.takeIdle? = none) :
      Step σ S (S.advance i .opening S.pool)
  | opens {i : ι} {s s' : σ} {session : SessionId} (hstage : S.stage i = .opening)
      (hconnect : Engine.connect S.pool.settings s = (.ok session, s'))
      (hnew : session ∉ S.opened) :
      Step σ S { S.advance i (.holding session) S.pool.adopt with opened := session :: S.opened }
  | fails {i : ι} {s s' : σ} {e : Error} (hstage : S.stage i = .opening)
      (hconnect : Engine.connect S.pool.settings s = (.error e, s')) :
      Step σ S (S.advance i .away S.pool.cancel)
  | returns {i : ι} {session : SessionId} (hstage : S.stage i = .holding session) :
      Step σ S { S.advance i .returning (S.pool.keep session).1 with
        handedBack := (S.pool.keep session).2.toList ++ S.handedBack }
  | frees {i : ι} (hstage : S.stage i = .returning) : Step σ S (S.advance i .away S.pool.cancel)
  | shuts {i : ι} (hstage : S.stage i = .away) : Step σ S (S.advance i .shutting S.pool.shut)
  | bars {i : ι} (hstage : S.stage i = .shutting) :
      Step σ S { S.advance i .barring S.pool with barred := true }
  | drains {i : ι} (hstage : S.stage i = .barring) :
      Step σ S { S.advance i (.closing S.pool.drain.1) S.pool.drain.2 with drained := true }
  | closes {i : ι} {session : SessionId} {left : List SessionId}
      (hstage : S.stage i = .closing (session :: left)) :
      Step σ S { S.advance i (.closing left) S.pool with closed := session :: S.closed }
  | leaves {i : ι} (hstage : S.stage i = .closing []) : Step σ S (S.advance i .away S.pool)
  /-- A session that came back to the closed pool is closed. -/
  | settles {session : SessionId} (hback : session ∈ S.handedBack) :
      Step σ S { S with
        handedBack := S.handedBack.erase session, closed := session :: S.closed }

/-- Users take their steps in any order. -/
abbrev Path (σ : Type) [Engine σ] : Traffic ι → Traffic ι → Prop :=
  Relation.ReflTransGen (Step σ)

variable {S : Traffic ι} {i j : ι} {stage later : Stage} {p q : Pool}

@[simp] lemma pool_advance : (S.advance i stage p).pool = p := rfl

lemma stage_advance_self : (S.advance i stage p).stage i = stage :=
  Function.update_self ..

lemma stage_advance : (S.advance i stage p).stage j = if j = i then stage else S.stage j :=
  Function.update_apply ..

lemma advance_advance : (S.advance i stage p).advance i later q = S.advance i later q := by
  simp [advance]

/-! ### Whole operations -/

/-- How far a user is when its check-out is over. -/
def Stage.after : Pool.Checkout → Stage
  | .session session => .holding session
  | .refused _ | .busy => .away

namespace Path

variable [Engine σ]

/-- A check-out takes a permit, and then an idle session or a new one. -/
lemma acquire (hstage : S.stage i = .away) (hbarred : S.barred = S.pool.closed) (s : σ)
    (hnew : ∀ session s', Engine.connect S.pool.settings s = (.ok session, s') →
      session ∉ S.opened) :
    ∃ S', Path σ S S' ∧ S'.pool = (S.pool.acquire s).1.2 ∧
      S'.stage = Function.update S.stage i (.after (S.pool.acquire s).1.1) := by
  have hstays : S.stage = Function.update S.stage i .away := by
    rw [← hstage, Function.update_eq_self]
  cases hclosed : S.pool.closed with
  | true =>
      rw [Pool.acquire, if_pos hclosed]
      exact ⟨S, .refl, rfl, hstays⟩
  | false =>
      cases hreserve : S.pool.reserve? with
      | none =>
          rw [Pool.acquire, if_neg (by simp [hclosed]), hreserve]
          exact ⟨S, .refl, rfl, hstays⟩
      | some reserved =>
          have hreserves : Path σ S (S.advance i .reserved reserved) :=
            .single (.reserves hstage (hbarred.trans hclosed) hreserve)
          cases htake : reserved.takeIdle? with
          | some found =>
              have hreuses := hreserves.tail (.reuses stage_advance_self htake)
              rw [advance_advance] at hreuses
              rw [Pool.acquire, if_neg (by simp [hclosed])]
              simp only [hreserve, htake]
              exact ⟨_, hreuses, rfl, rfl⟩
          | none =>
              have hasks := hreserves.tail (.asks stage_advance_self htake)
              rw [advance_advance] at hasks
              have hsettings : reserved.settings = S.pool.settings := by
                rw [(Pool.reserve?_eq_some hreserve).2]
              rw [Pool.acquire_fresh hclosed hreserve htake]
              rcases hconnect : Engine.connect S.pool.settings s with ⟨e | session, s'⟩
              · have hfails := hasks.tail (.fails stage_advance_self (hsettings ▸ hconnect))
                rw [advance_advance] at hfails
                exact ⟨_, hfails, rfl, rfl⟩
              · have hopens := hasks.tail (.opens stage_advance_self (hsettings ▸ hconnect)
                  (hnew session s' hconnect))
                rw [advance_advance] at hopens
                exact ⟨_, hopens, rfl, rfl⟩

/-- A session is given back, and its permit after it. -/
lemma putBack {session : SessionId} (hstage : S.stage i = .holding session) :
    ∃ S', Path σ S S' ∧ S'.pool = (S.pool.putBack session).1 ∧
      S'.handedBack = (S.pool.putBack session).2.toList ++ S.handedBack ∧
      S'.stage = Function.update S.stage i .away := by
  have hreturns : Path σ S _ := .single (.returns hstage)
  refine ⟨_, hreturns.tail (.frees (Function.update_self ..)), ?_, ?_, ?_⟩
  · rw [Pool.putBack_eq]
    rfl
  · rw [Pool.putBack_eq]
    rfl
  · exact Function.update_idem ..

/-- Sessions that were taken away are closed one after the other. -/
lemma closeAll {left : List SessionId} (hstage : S.stage i = .closing left) :
    Path σ S { S.advance i .away S.pool with closed := left.reverse ++ S.closed } := by
  induction left generalizing S with
  | nil => exact .single (.leaves hstage)
  | cons session left ih =>
      refine .head (.closes hstage) ?_
      have hrest := ih (S := { S.advance i (.closing left) S.pool with
        closed := session :: S.closed }) (Function.update_self ..)
      simpa [advance] using hrest

/-- A close marks the pool, bars it, takes its idle sessions away and closes them. -/
lemma close (hstage : S.stage i = .away) (s : σ) :
    ∃ S', Path σ S S' ∧ S'.pool = (S.pool.close s).1 ∧ S'.barred = true ∧ S'.drained = true ∧
      S'.closed = S.pool.idle ++ S.closed ∧ S'.stage = Function.update S.stage i .away := by
  have hshuts : Path σ S (S.advance i .shutting S.pool.shut) := .single (.shuts hstage)
  have hbars := hshuts.tail (.bars stage_advance_self)
  have hdrains := hbars.tail (.drains (Function.update_self ..))
  have hcloses := hdrains.trans (closeAll (Function.update_self ..))
  refine ⟨_, hcloses, rfl, rfl, rfl, ?_, ?_⟩
  · exact congrArg (· ++ S.closed) (List.reverse_reverse S.pool.idle)
  · simp [advance]

end Path

/-- A pool that is drained stays so. -/
lemma Path.drained [Engine σ] {S S' : Traffic ι} (hpath : Path σ S S') (h : S.drained) :
    S'.drained := by
  induction hpath with
  | refl => exact h
  | tail _ hstep ih =>
      cases hstep with
      | drains => rfl
      | _ => exact ih

/-- The sessions that came back to the closed pool can always be closed. -/
lemma Path.settle [Engine σ] (S : Traffic ι) :
    Path σ S { S with handedBack := [], closed := S.handedBack.reverse ++ S.closed } := by
  obtain ⟨pool, stage, barred, drained, handedBack, opened, closed⟩ := S
  induction handedBack generalizing closed with
  | nil => exact .refl
  | cons session rest ih =>
      refine .head (.settles List.mem_cons_self) ?_
      simpa using ih (session :: closed)

end Traffic

end GraphMapper
