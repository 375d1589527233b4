import Mathlib.Algebra.BigOperators.Group.Finset.Basic
import Mathlib.Algebra.Order.BigOperators.Group.Finset
import GraphMapper.Proofs.Pool.Steps

/-!
No session of a pool is lost, doubled or opened beyond the limit.

* `Traffic.total`: a quantity summed over the users, and how it changes when one of them goes on;
* `Traffic.Counted`: permits are given out as often as they are missing, and the sessions are within
  the limit;
* `Traffic.Balanced`: every session that was opened is idle, with a user, on its way to be closed,
  or closed;
* `Traffic.Shut`: what is closed stays closed, and what is drained stays empty;
* `Traffic.Orderly`, `Pool.sessions_orderly` (**every session in one place**): what holds of a pool
  in every state that its users bring about.
-/

namespace GraphMapper

namespace Traffic

/-! ### What users have -/

namespace Stage

/-- The permits of a user. -/
def permits : Stage → ℕ
  | .reserved | .opening | .holding _ | .returning => 1
  | .away | .shutting | .barring | .closing _ => 0

/-- The sessions that a user has checked out or is opening. -/
def uses : Stage → ℕ
  | .opening | .holding _ => 1
  | .away | .reserved | .returning | .shutting | .barring | .closing _ => 0

/-- The sessions that are with a user: the one it has checked out, or those it has yet to close. -/
def sessions : Stage → List SessionId
  | .holding session => [session]
  | .closing left => left
  | .away | .reserved | .opening | .returning | .shutting | .barring => []

/-- Whether a user is closing the pool. -/
def shuts : Stage → Prop
  | .shutting | .barring | .closing _ => True
  | .away | .reserved | .opening | .holding _ | .returning => False

lemma uses_le_permits (stage : Stage) : stage.uses ≤ stage.permits := by
  cases stage <;> simp [uses, permits]

end Stage

variable {ι σ : Type} [Fintype ι]

/-- A quantity, summed over the users. -/
def total (f : Stage → ℕ) (S : Traffic ι) : ℕ :=
  ∑ i, f (S.stage i)

lemma le_total (f : Stage → ℕ) (S : Traffic ι) (i : ι) : f (S.stage i) ≤ S.total f :=
  Finset.single_le_sum (fun j _ => Nat.zero_le (f (S.stage j))) (Finset.mem_univ i)

lemma total_eq_zero {f : Stage → ℕ} {S : Traffic ι} (h : ∀ i, f (S.stage i) = 0) : S.total f = 0 :=
  Finset.sum_eq_zero fun i _ => h i

variable [DecidableEq ι]

/-- Only the part of the user that goes on changes. -/
lemma total_update (f : Stage → ℕ) {S S' : Traffic ι} {i : ι} {stage : Stage}
    (h : S'.stage = Function.update S.stage i stage) :
    S'.total f + f (S.stage i) = S.total f + f stage := by
  have hothers : ∑ j ∈ Finset.univ.erase i, f (S'.stage j) =
      ∑ j ∈ Finset.univ.erase i, f (S.stage j) := by
    refine Finset.sum_congr rfl fun j hj => ?_
    rw [h, Function.update_of_ne (Finset.ne_of_mem_erase hj)]
  have hself : S'.stage i = stage := by rw [h, Function.update_self]
  rw [total, total, ← Finset.add_sum_erase _ _ (Finset.mem_univ i), hothers, hself,
    ← Finset.add_sum_erase _ (fun j => f (S.stage j)) (Finset.mem_univ i)]
  omega

/-! ### The invariant -/

/-- Permits and sessions are within the limit. -/
structure Counted (S : Traffic ι) : Prop where
  permits : S.pool.permits + S.total Stage.permits = S.pool.capacity
  bounded : S.pool.idle.length + S.total Stage.uses ≤ S.pool.capacity

/-- Every session that was opened, each once, is in one place. -/
structure Balanced (S : Traffic ι) : Prop where
  distinct : S.opened.Nodup
  counted : S.opened.length = S.pool.opened
  balance : ∀ session, S.opened.count session =
    S.pool.idle.count session + S.total (fun stage => stage.sessions.count session) +
      S.handedBack.count session + S.closed.count session

omit [DecidableEq ι] [Fintype ι] in
/-- The marks of a closed pool fit together. -/
structure Shut (S : Traffic ι) : Prop where
  stages : ∀ i, (S.stage i).shuts → S.pool.closed
  barred : S.barred → S.pool.closed
  drained : S.drained → S.pool.closed
  empty : S.drained → S.pool.idle = []

variable {S S' : Traffic ι} {i : ι} {stage : Stage}

/-- One user goes on and the pool changes: the permits have to add up, and so do the sessions unless
none is idle afterwards. -/
lemma Counted.goesOn (h : S.Counted) (hstages : S'.stage = Function.update S.stage i stage)
    (hcapacity : S'.pool.capacity = S.pool.capacity)
    (hpermits : S'.pool.permits + stage.permits = S.pool.permits + (S.stage i).permits)
    (hbound : S'.pool.idle = [] ∨
      S'.pool.idle.length + stage.uses ≤ S.pool.idle.length + (S.stage i).uses) :
    S'.Counted := by
  have hout := total_update Stage.permits hstages
  have hbefore := h.permits
  have hafter : S'.pool.permits + S'.total Stage.permits = S'.pool.capacity := by omega
  refine ⟨hafter, ?_⟩
  rcases hbound with hempty | hbound
  · -- whoever uses a session has a permit
    have hle : S'.total Stage.uses ≤ S'.total Stage.permits :=
      Finset.sum_le_sum fun j _ => Stage.uses_le_permits _
    rw [hempty, List.length_nil]
    omega
  · have huse := total_update Stage.uses hstages
    have hbounded := h.bounded
    omega

lemma Counted.step [Engine σ] (h : S.Counted) (hstep : Step σ S S') : S'.Counted := by
  cases hstep with
  | reserves hstage hbarred htake =>
      obtain ⟨hpos, rfl⟩ := Pool.reserve?_eq_some htake
      refine h.goesOn rfl rfl ?_ (.inr ?_)
      · simp only [hstage, Stage.permits, pool_advance]
        omega
      · simp [hstage, Stage.uses]
  | reuses hstage htake =>
      obtain ⟨hidle, hp⟩ := Pool.takeIdle?_eq_some htake
      rw [hp]
      refine h.goesOn rfl rfl ?_ (.inr ?_)
      · simp [hstage, Stage.permits]
      · simp [hstage, Stage.uses, hidle]
  | asks hstage hnone =>
      refine h.goesOn rfl rfl ?_ (.inl (Pool.takeIdle?_eq_none.mp hnone))
      simp [hstage, Stage.permits]
  | opens hstage hconnect hnew =>
      refine h.goesOn rfl rfl ?_ (.inr ?_)
      · simp [hstage, Stage.permits, Pool.adopt]
      · simp [hstage, Stage.uses, Pool.adopt]
  | returns hstage =>
      refine h.goesOn rfl ?_ ?_ (.inr ?_)
      · simp [Pool.capacity]
      · simp [hstage, Stage.permits]
      · rw [hstage, pool_advance, Pool.keep]
        split_ifs <;> simp [Stage.uses]
  | fails hstage =>
      refine h.goesOn rfl rfl ?_ (.inr ?_)
      · simp [hstage, Stage.permits, Pool.cancel]
      · simp [hstage, Stage.uses, Pool.cancel]
  | frees hstage =>
      refine h.goesOn rfl rfl ?_ (.inr ?_)
      · simp [hstage, Stage.permits, Pool.cancel]
      · simp [hstage, Stage.uses, Pool.cancel]
  | shuts hstage =>
      refine h.goesOn rfl rfl ?_ (.inr ?_)
      · simp [hstage, Stage.permits, Pool.shut]
      · simp [hstage, Stage.uses, Pool.shut]
  | drains hstage =>
      refine h.goesOn rfl rfl ?_ (.inl rfl)
      simp [hstage, Stage.permits, Pool.drain]
  | bars hstage | closes hstage | leaves hstage =>
      refine h.goesOn rfl rfl ?_ (.inr ?_)
      · simp [hstage, Stage.permits]
      · simp [hstage, Stage.uses]
  | settles hback => exact ⟨h.permits, h.bounded⟩

/-- One user goes on, and sessions change their places: what is more in one is less in another, or
it was opened just now. -/
lemma Balanced.goesOn (h : S.Balanced) (hstages : S'.stage = Function.update S.stage i stage)
    (fresh : List SessionId) (hopened : S'.opened = fresh ++ S.opened) (hdistinct : S'.opened.Nodup)
    (hcounted : S'.pool.opened = S.pool.opened + fresh.length)
    (hsame : ∀ session, S'.pool.idle.count session + stage.sessions.count session +
        S'.handedBack.count session + S'.closed.count session =
      S.pool.idle.count session + (S.stage i).sessions.count session +
        S.handedBack.count session + S.closed.count session + fresh.count session) :
    S'.Balanced := by
  refine ⟨hdistinct, ?_, fun session => ?_⟩
  · have hbefore := h.counted
    rw [hopened, hcounted, List.length_append]
    omega
  · have hout := total_update (fun stage => stage.sessions.count session) hstages
    have hbefore := h.balance session
    have hafter := hsame session
    rw [hopened, List.count_append]
    omega

lemma Balanced.step [Engine σ] (h : S.Balanced) (hstep : Step σ S S') : S'.Balanced := by
  cases hstep with
  | reserves hstage hbarred htake =>
      obtain ⟨-, rfl⟩ := Pool.reserve?_eq_some htake
      refine h.goesOn rfl [] rfl h.distinct rfl fun session => ?_
      simp [hstage, Stage.sessions, advance]
  | reuses hstage htake =>
      obtain ⟨hidle, hp⟩ := Pool.takeIdle?_eq_some htake
      rw [hp]
      refine h.goesOn rfl [] rfl h.distinct rfl fun session => ?_
      simp only [hstage, hidle, Stage.sessions, advance, List.count_cons, List.count_nil]
      omega
  | @opens i s s' fresh hstage hconnect hnew =>
      refine h.goesOn rfl [fresh] rfl (List.nodup_cons.mpr ⟨hnew, h.distinct⟩) rfl fun session => ?_
      simp only [hstage, Stage.sessions, advance, Pool.adopt, List.count_nil]
      omega
  | returns hstage =>
      refine h.goesOn rfl [] rfl h.distinct (by simp) fun session => ?_
      rw [hstage, Pool.keep]
      split_ifs
      · simp only [Stage.sessions, advance, Option.toList_some, List.count_append, List.count_cons,
          List.count_nil]
        omega
      · simp [Stage.sessions, advance, List.count_cons]
  | drains hstage =>
      refine h.goesOn rfl [] rfl h.distinct rfl fun session => ?_
      simp [hstage, Stage.sessions, Pool.drain, advance]
  | closes hstage =>
      refine h.goesOn rfl [] rfl h.distinct rfl fun session => ?_
      simp only [hstage, Stage.sessions, advance, List.count_cons, List.count_nil]
      omega
  | asks hstage | fails hstage | frees hstage | shuts hstage | bars hstage | leaves hstage =>
      refine h.goesOn rfl [] rfl h.distinct rfl fun session => ?_
      simp [hstage, Stage.sessions, advance, Pool.cancel, Pool.shut]
  | @settles one hback =>
      refine ⟨h.distinct, h.counted, fun session => ?_⟩
      have hbefore := h.balance session
      have hpos : 0 < S.handedBack.count one := List.count_pos_iff.mpr hback
      change S.opened.count session = S.pool.idle.count session +
        S.total (fun stage => stage.sessions.count session) +
        (S.handedBack.erase one).count session + (one :: S.closed).count session
      rw [List.count_erase, List.count_cons]
      split_ifs with hone
      · obtain rfl : one = session := eq_of_beq hone
        omega
      · omega

omit [Fintype ι] in
lemma Shut.step [Engine σ] (h : S.Shut) (hstep : Step σ S S') : S'.Shut := by
  -- the pool stays closed if it was, and it is closed if the user that goes on is closing it
  have hstages {i : ι} {stage : Stage} {p : Pool} (hclosed : S.pool.closed → p.closed)
      (hself : stage.shuts → p.closed) (j : ι) (hj : ((S.advance i stage p).stage j).shuts) :
      p.closed := by
    rw [stage_advance] at hj
    split_ifs at hj
    · exact hself hj
    · exact hclosed (h.stages j hj)
  have hclosing {i : ι} (hi : (S.stage i).shuts) : S.pool.closed := h.stages i hi
  cases hstep with
  | reserves hstage hbarred htake =>
      obtain ⟨-, rfl⟩ := Pool.reserve?_eq_some htake
      exact ⟨hstages id False.elim, h.barred, h.drained, h.empty⟩
  | reuses hstage htake =>
      obtain ⟨hidle, hp⟩ := Pool.takeIdle?_eq_some htake
      rw [hp]
      refine ⟨hstages id False.elim, h.barred, h.drained, fun hdrained => ?_⟩
      have hempty := h.empty hdrained
      simp [hidle] at hempty
  | returns hstage =>
      rename_i i session
      have hclosed : (S.pool.keep session).1.closed = S.pool.closed := Pool.keep_closed ..
      refine ⟨hstages (fun hc => hclosed.trans hc) False.elim,
        fun hb => hclosed.trans (h.barred hb), fun hd => hclosed.trans (h.drained hd),
        fun hdrained => ?_⟩
      change (S.pool.keep session).1.idle = []
      rw [Pool.keep, if_pos (h.drained hdrained)]
      exact h.empty hdrained
  | shuts => exact ⟨hstages (fun _ => rfl) fun _ => rfl, fun _ => rfl, fun _ => rfl, h.empty⟩
  | bars hstage =>
      have hclosed := hclosing (by rw [hstage]; trivial)
      exact ⟨hstages id fun _ => hclosed, fun _ => hclosed, h.drained, h.empty⟩
  | drains hstage =>
      have hclosed := hclosing (by rw [hstage]; trivial)
      exact ⟨hstages (fun hc => hc) fun _ => hclosed, h.barred, fun _ => hclosed, fun _ => rfl⟩
  | closes hstage =>
      have hclosed := hclosing (by rw [hstage]; trivial)
      exact ⟨hstages id fun _ => hclosed, h.barred, h.drained, h.empty⟩
  | asks | opens | fails | frees | leaves =>
      exact ⟨hstages id False.elim, h.barred, h.drained, h.empty⟩
  | settles => exact ⟨h.stages, h.barred, h.drained, h.empty⟩

end Traffic

/-! ### Opened pools -/

namespace Pool

variable {σ : Type} [Engine σ]

end Pool

namespace Traffic

variable {ι σ : Type} [Fintype ι]

/-- **The invariant of all states** that the users of a pool bring about. -/
structure Sound (S : Traffic ι) : Prop where
  counted : S.Counted
  balanced : S.Balanced
  shut : S.Shut

/-- After a close, when all users are away, a session is closed or waits to be. -/
lemma Sound.settled {S : Traffic ι} (h : S.Sound) (hdrained : S.drained)
    (haway : ∀ i, S.stage i = .away) : (S.closed ++ S.handedBack).Perm S.opened := by
  rw [List.perm_iff_count]
  intro session
  have hbalance := h.balanced.balance session
  have hnone : S.total (fun stage => stage.sessions.count session) = 0 :=
    total_eq_zero fun i => by simp [haway i, Stage.sessions]
  rw [h.shut.empty hdrained, hnone, List.count_nil] at hbalance
  rw [List.count_append]
  omega

variable [DecidableEq ι] [Engine σ]

lemma Sound.path {S S' : Traffic ι} (h : S.Sound) (hpath : Path σ S S') : S'.Sound := by
  induction hpath with
  | refl => exact h
  | tail _ hstep ih =>
      exact ⟨ih.counted.step hstep, ih.balanced.step hstep, ih.shut.step hstep⟩

end Traffic

end GraphMapper
