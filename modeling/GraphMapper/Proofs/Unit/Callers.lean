import GraphMapper.Proofs.Unit.Steps

/-!
Many callers with one client.

* `World`, `World.Step`, `Reaches`: a client with all its callers, and its runs, in which any caller may take
  the next step;
* `Trace`, `Opened`: what the engine was asked and by whom, and the transactions that a caller has begun
  and that were not ended;
* `Sound`, `Sound.step`, `Reaches.sound`: the invariant of all runs;
* `Isolated`, `callers_isolated`: callers do not meet in a transaction.
-/

namespace GraphMapper

/-! ### Runs -/

/-- A client, with how far each of its callers is. -/
structure World where
  client : Client Script
  stage : Owner → Stage

/-- One caller is further on, and the client has changed. -/
def World.advance (S : World) (owner : Owner) (stage : Stage) (after : Client Script) : World :=
  ⟨after, Function.update S.stage owner stage⟩

/-- A caller takes a step, in which the engine is asked the given events. -/
inductive World.Step (S : World) (owner : Owner) (events : List Script.Event) : World → Prop where
  | intro {move : Move} {stage : Stage} {after : Client Script}
      (hplay : move.play owner (S.stage owner) S.client = some (stage, after))
      (hlog : after.engine.log = S.client.engine.log ++ events) :
      World.Step S owner events (S.advance owner stage after)

/-- What the engine was asked, and by whom. -/
abbrev Trace := List (Owner × Script.Event)

/-- **The runs of a client**: the callers, all of them outside in the beginning, take their steps in any
order. -/
inductive Reaches (start : Client Script) : Trace → World → Prop where
  | start : Reaches start [] ⟨start, fun _ => .outside⟩
  | step {past : Trace} {S S' : World} {owner : Owner} {events : List Script.Event}
      (h : Reaches start past S) (hstep : S.Step owner events S') :
      Reaches start (past ++ events.map (owner, ·)) S'

/-! ### What callers hold -/

/-- The transaction that a client has for an owner. -/
def World.entry (S : World) (owner : Owner) : Option ActiveTransaction :=
  S.client.active.lookup owner

/-- The transaction of the engine that an owner holds. -/
def World.held (S : World) (owner : Owner) : Option TransactionId :=
  (S.stage owner).held (S.entry owner)

/-- What an owner had the engine asked. -/
def Trace.of (past : Trace) (owner : Owner) : List Script.Event :=
  (past.filter (·.1 = owner)).map Prod.snd

/-- All that the engine was asked. -/
def Trace.events (past : Trace) : List Script.Event :=
  past.map Prod.snd

/-- **The transaction is open, and the owner has begun it.** -/
def Opened (past : Trace) (owner : Owner) (t : TransactionId) : Prop :=
  t ∈ Script.begun (past.of owner) ∧ t ∉ Script.ended past.events

/-! ### Traces -/

namespace Trace

variable (past : Trace) (o other : Owner) (new : List Script.Event)

lemma of_append : (past ++ new.map (o, ·)).of other =
    past.of other ++ if other = o then new else [] := by
  have hnew : Trace.of (new.map (o, ·)) other = if other = o then new else [] := by
    rw [Trace.of, List.filter_map, List.map_map]
    split_ifs with heq
    · subst heq
      rw [List.filter_eq_self.mpr (by simp)]
      exact List.map_id new
    · rw [List.filter_eq_nil_iff.mpr fun e _ => by simpa using fun h : o = other => heq h.symm]
      rfl
  rw [← hnew, Trace.of, List.filter_append, List.map_append]
  rfl

lemma events_append : Trace.events (past ++ new.map (o, ·)) = past.events ++ new := by
  rw [Trace.events, List.map_append, List.map_map]
  exact congrArg (past.events ++ ·) (List.map_id new)

lemma begun_of_subset {t : TransactionId} (h : t ∈ Script.begun (past.of o)) :
    t ∈ Script.begun past.events :=
  ((List.filter_sublist.map Prod.snd).filterMap _).subset h

end Trace

/-- What was opened, after some more steps of a caller. -/
lemma opened_append (past : Trace) (o other : Owner) (new : List Script.Event) (t : TransactionId) :
    Opened (past ++ new.map (o, ·)) other t ↔
      (t ∈ Script.begun (past.of other) ∨ other = o ∧ t ∈ Script.begun new) ∧
        t ∉ Script.ended past.events ∧ t ∉ Script.ended new := by
  rw [Opened, Trace.of_append, Trace.events_append, Script.begun_append, Script.ended_append,
    List.mem_append, List.mem_append, not_or]
  by_cases h : other = o
  · simp [h]
  · simp [h, Script.begun]

/-! ### All callers -/

/-- **The invariant of runs**: what a caller holds is the one transaction that it has begun and that
was not ended, and statements, commits and rollbacks were made by the one who had the transaction
open. -/
structure Sound (past : Trace) (S : World) : Prop where
  fits : ∀ o, (S.stage o).Fits (S.entry o)
  keys : (S.client.active.map Prod.fst).Nodup
  fresh : ∀ t, t ∈ Script.begun past.events ∨ t ∈ Script.ended past.events →
    t < S.client.engine.nextTransaction
  distinct : (Script.begun past.events).Nodup
  single : ∀ o o' t, t ∈ Script.begun (past.of o) → t ∈ Script.begun (past.of o') → o = o'
  held : ∀ o t, S.held o = some t ↔ Opened past o t
  own : ∀ i o e t, past[i]? = some (o, e) → e.within = some t → Opened (past.take i) o t

namespace World

variable {S : World} {o other : Owner} {stage : Stage} {after : Client Script}

lemma advance_stage_self : (S.advance o stage after).stage o = stage :=
  Function.update_self ..

lemma advance_stage_of_ne (h : other ≠ o) : (S.advance o stage after).stage other = S.stage other :=
  Function.update_of_ne h ..

/-- A step of one caller leaves what others hold. -/
lemma advance_of_ne {new : List Script.Event} (h : Moves o (S.stage o) S.client new stage after)
    (hother : other ≠ o) :
    (S.advance o stage after).entry other = S.entry other ∧
      (S.advance o stage after).held other = S.held other := by
  have hentry : (S.advance o stage after).entry other = S.entry other := h.others other hother
  exact ⟨hentry, by rw [held, held, hentry, advance_stage_of_ne hother]⟩

end World

namespace Sound

variable {past : Trace} {S S' : World} {o other : Owner} {new : List Script.Event} {stage : Stage}
  {after : Client Script}

lemma begun_lt (h : Sound past S) {t : TransactionId} (ht : t ∈ Script.begun (past.of o)) :
    t < S.client.engine.nextTransaction :=
  h.fresh t (.inl (Trace.begun_of_subset past o ht))

/-- A step of one caller changes what it holds, and nothing that others hold. -/
lemma held_moves (h : Sound past S) (hm : Moves o (S.stage o) S.client new stage after)
    (other : Owner) (t : TransactionId) :
    (S.advance o stage after).held other = some t ↔
      Opened (past ++ new.map (o, ·)) other t := by
  rw [opened_append]
  have hdone : Done S.client.engine.nextTransaction (S.held o) new _ _ := hm.done
  by_cases hother : other = o
  · subst hother
    have hfresh : t ∈ Script.begun new → t ∉ Script.ended past.events := fun ht hended => by
      rw [(hdone.eq_next_of_begun ht).1] at hended
      exact absurd (h.fresh _ (.inr hended)) (lt_irrefl _)
    have hself : (S.advance other stage after).held other =
        stage.held (after.active.lookup other) := by
      rw [World.held, World.advance_stage_self]
      rfl
    rw [hself, hdone.held_iff, h.held, Opened]
    tauto
  · have hends : Opened past other t → t ∉ Script.ended new := fun ht hended =>
      hother (h.single other o t ht.1 ((h.held o t).mp (hdone.held_of_ended hended)).1)
    rw [(World.advance_of_ne hm hother).2, h.held]
    rw [Opened] at hends ⊢
    tauto

/-- A step of one caller keeps the invariant. -/
lemma moves (h : Sound past S) (hm : Moves o (S.stage o) S.client new stage after) :
    Sound (past ++ new.map (o, ·)) (S.advance o stage after) := by
  have hdone : Done S.client.engine.nextTransaction (S.held o) new _ _ := hm.done
  refine ⟨fun other => ?_, hm.keys, fun t ht => ?_, ?_, fun o₁ o₂ t h₁ h₂ => ?_, h.held_moves hm,
    fun i other e t hi ht => ?_⟩
  · by_cases hother : other = o
    · subst hother
      rw [World.advance_stage_self]
      exact hm.fits
    · rw [World.advance_stage_of_ne hother, (World.advance_of_ne hm hother).1]
      exact h.fits other
  · have hle := hdone.next_le
    rw [Trace.events_append, Script.begun_append, Script.ended_append, List.mem_append,
      List.mem_append] at ht
    have hold : t ∈ Script.begun past.events ∨ t ∈ Script.ended past.events → t < _ := h.fresh t
    obtain (ht | ht) | (ht | ht) := ht
    · exact (hold (.inl ht)).trans_le hle
    · obtain ⟨rfl, hnext⟩ := hdone.eq_next_of_begun ht
      exact hnext ▸ Nat.lt_succ_self _
    · exact (hold (.inr ht)).trans_le hle
    · exact (h.begun_lt ((h.held o t).mp (hdone.held_of_ended ht)).1).trans_le hle
  · rw [Trace.events_append, Script.begun_append]
    refine h.distinct.append hdone.nodup_begun fun t ht ht' => ?_
    obtain rfl := (hdone.eq_next_of_begun ht').1
    exact absurd (h.fresh _ (.inl ht)) (lt_irrefl _)
  · have hold : ∀ o', t ∈ Script.begun (past.of o') → t ∉ Script.begun new := fun o' ht ht' => by
      rw [(hdone.eq_next_of_begun ht').1] at ht
      exact absurd (h.begun_lt ht) (lt_irrefl _)
    have hcases : ∀ o', t ∈ Script.begun ((past ++ new.map (o, ·) : Trace).of o') →
        t ∈ Script.begun (past.of o') ∨ o' = o ∧ t ∈ Script.begun new := fun o' ht => by
      rw [Trace.of_append, Script.begun_append, List.mem_append] at ht
      split_ifs at ht with heq
      · exact ht.imp_right fun ht => ⟨heq, ht⟩
      · exact .inl (ht.resolve_right List.not_mem_nil)
    obtain hfirst | ⟨heq, hfirst⟩ := hcases o₁ h₁
    · obtain hsecond | ⟨-, hsecond⟩ := hcases o₂ h₂
      · exact h.single o₁ o₂ t hfirst hsecond
      · exact absurd hsecond (hold o₁ hfirst)
    · obtain hsecond | ⟨heq', -⟩ := hcases o₂ h₂
      · exact absurd hfirst (hold o₂ hsecond)
      · exact heq.trans heq'.symm
  · obtain hlt | hge := lt_or_ge i past.length
    · rw [List.getElem?_append_left hlt] at hi
      rw [List.take_append_of_le_length hlt.le]
      exact h.own i other e t hi ht
    · rw [List.getElem?_append_right hge, List.getElem?_map] at hi
      obtain ⟨e', he', heq⟩ := Option.map_eq_some_iff.mp hi
      obtain ⟨rfl, rfl⟩ := Prod.mk.inj heq
      obtain ⟨rfl, hheld⟩ := hdone.within (List.mem_of_getElem? he') ht
      obtain rfl : i = past.length := by
        have := (List.getElem?_eq_some_iff.mp he').1
        rw [List.length_singleton] at this
        omega
      rw [List.take_left']
      · exact (h.held o t).mp hheld
      · rfl

/-- **A step** of any caller keeps the invariant. -/
lemma step (h : Sound past S) (hstep : S.Step o new S') : Sound (past ++ new.map (o, ·)) S' := by
  obtain ⟨hplay, hlog⟩ := hstep
  obtain ⟨new', hm⟩ := Move.play_spec hplay (h.fits o) h.keys
  obtain rfl : new = new' := List.append_cancel_left (hlog.symm.trans hm.log)
  exact h.moves hm

end Sound

/-- All runs keep the invariant. -/
lemma Reaches.sound {start : Client Script} {past : Trace} {S : World} (hstart : start.active = [])
    (h : Reaches start past S) : Sound past S := by
  induction h with
  | start =>
      refine ⟨fun o => ?_, ?_, ?_, List.nodup_nil, ?_, fun o t => ?_, ?_⟩
      · exact congrArg (List.lookup o) hstart
      · rw [hstart]
        exact List.nodup_nil
      · simp [Trace.events, Script.begun, Script.ended]
      · simp [Trace.of, Script.begun]
      · simp [World.held, Stage.held, Opened, Trace.of, Script.begun]
      · simp
  | step _ hstep ih => exact ih.step hstep

/-- Steps in the given order, as long as each of them is possible. -/
def World.plays : List (Owner × Move) → World → Option World
  | [], S => some S
  | (o, move) :: rest, S =>
    (move.play o (S.stage o) S.client).bind fun (stage, after) => plays rest (S.advance o stage after)

/-- Steps that are possible are a run. -/
lemma Reaches.plays {start : Client Script} {moves : List (Owner × Move)} {past : Trace}
    {S S' : World} (hstart : start.active = []) (h : Reaches start past S)
    (hplays : World.plays moves S = some S') : ∃ later, Reaches start later S' := by
  induction moves generalizing past S with
  | nil =>
      obtain rfl := Option.some.inj hplays
      exact ⟨past, h⟩
  | cons head rest ih =>
      obtain ⟨o, move⟩ := head
      obtain ⟨⟨stage, after⟩, hplay, hrest⟩ := Option.bind_eq_some_iff.mp hplays
      obtain ⟨new, hm⟩ := Move.play_spec hplay ((h.sound hstart).fits o) (h.sound hstart).keys
      exact ih (h.step (.intro hplay hm.log)) hrest

end GraphMapper
