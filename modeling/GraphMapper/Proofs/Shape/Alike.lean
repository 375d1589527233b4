import GraphMapper.Proofs.Filter.Compiling

/-!
Two compilations side by side.

* `Bindings.SameSize`: as much is bound on both sides, whatever the values are;
* `InStep`, `Alike`: computations that do the same on bindings of one size; `Alike.bind` puts them
  together from parts;
* `Both`: both results are there and hang together, or both are missing.
-/

namespace GraphMapper

variable {α β ε : Type}

/-! ### Results -/

/-- Both computations succeed with results that hang together, or both fail. -/
inductive Both (R : α → β → Prop) : Except ε α → Except ε β → Prop
  | ok {a : α} {b : β} (h : R a b) : Both R (.ok a) (.ok b)
  | error (e e' : ε) : Both R (.error e) (.error e')

/-! ### Bindings of one size -/

/-- As many values are bound, and as many variables of subqueries are given out. -/
structure Bindings.SameSize (b c : Bindings) : Prop where
  values : b.values.length = c.values.length
  subqueries : b.subqueries = c.subqueries

lemma Bindings.SameSize.refl (b : Bindings) : b.SameSize b := ⟨rfl, rfl⟩

/-- From bindings of one size, the computations come to one result and bindings of one size. -/
def InStep (s t : StateM Bindings α) : Prop :=
  ∀ b c : Bindings, b.SameSize c → (s b).1 = (t c).1 ∧ (s b).2.SameSize (t c).2

lemma InStep.pure (a : α) : InStep (pure a) (pure a) := fun _ _ h => ⟨rfl, h⟩

lemma InStep.bind {s t : StateM Bindings α} {f g : α → StateM Bindings β} (hs : InStep s t)
    (hf : ∀ a, InStep (f a) (g a)) : InStep (s >>= f) (t >>= g) := by
  intro b c h
  obtain ⟨he, hafter⟩ := hs b c h
  have hrest := hf (s b).1 _ _ hafter
  change (f (s b).1 (s b).2).1 = (g (t c).1 (t c).2).1 ∧
    (f (s b).1 (s b).2).2.SameSize (g (t c).1 (t c).2).2
  rwa [← he]

/-- The name of a parameter does not depend on its value. -/
lemma InStep.value (v w : Value) : InStep (Compiling.bind v) (Compiling.bind w) := by
  intro b c h
  rw [Compiling.bind_value, Compiling.bind_value, h.values]
  exact ⟨rfl, by simp [h.values], h.subqueries⟩

lemma InStep.fresh (letter : String) :
    InStep (Compiling.fresh letter) (Compiling.fresh letter) := by
  intro b c h
  rw [Compiling.fresh_apply, Compiling.fresh_apply, h.subqueries]
  exact ⟨rfl, h.values, rfl⟩

/-! ### Compilations -/

/-- From bindings of one size, both compilations succeed with one result or both fail, and either
way they end with bindings of one size. -/
def Alike (x y : Compiling α) : Prop :=
  ∀ b c : Bindings, b.SameSize c →
    Both Eq (x.on b).1 (y.on c).1 ∧ (x.on b).2.SameSize (y.on c).2

lemma Alike.pure (a : α) : Alike (pure a) (pure a) := fun _ _ h => ⟨.ok rfl, h⟩

lemma Alike.throw (e e' : CompileError) : Alike (throw e : Compiling α) (throw e') :=
  fun _ _ h => ⟨.error e e', h⟩

lemma InStep.alike {s t : StateM Bindings α} (h : InStep s t) :
    Alike (liftM s : Compiling α) (liftM t) :=
  fun b c hsize => ⟨.ok (h b c hsize).1, (h b c hsize).2⟩

lemma Alike.bind {x y : Compiling α} {f g : α → Compiling β} (hx : Alike x y)
    (hf : ∀ a, Alike (f a) (g a)) : Alike (x >>= f) (y >>= g) := by
  intro b c h
  have hxy := hx b c h
  rw [Compiling.on_bind, Compiling.on_bind]
  generalize x.on b = r at hxy ⊢
  generalize y.on c = q at hxy ⊢
  obtain ⟨r, after⟩ := r
  obtain ⟨q, after'⟩ := q
  obtain ⟨hrq, hsize⟩ := hxy
  cases hrq with
  | ok ha => exact ha ▸ hf _ _ _ hsize
  | error e e' => exact ⟨.error e e', hsize⟩

lemma Alike.map {x y : Compiling α} (f : α → β) (h : Alike x y) : Alike (f <$> x) (f <$> y) := by
  rw [map_eq_pure_bind, map_eq_pure_bind]
  exact h.bind fun a => .pure (f a)

/-- From nothing bound, both compilations come to one result and as many bindings, or to none. -/
lemma Alike.start {x y : Compiling α} (h : Alike x y) :
    Both (fun a a' => a.1 = a'.1 ∧ a.2.SameSize a'.2) x.start y.start := by
  have hxy := h {} {} (.refl _)
  rw [Compiling.start_eq, Compiling.start_eq]
  generalize x.on {} = r at hxy ⊢
  generalize y.on {} = q at hxy ⊢
  obtain ⟨r, after⟩ := r
  obtain ⟨q, after'⟩ := q
  obtain ⟨hrq, hsize⟩ := hxy
  cases hrq with
  | ok ha => exact .ok ⟨ha, hsize⟩
  | error e e' => exact .error e e'

end GraphMapper
