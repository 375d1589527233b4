import Mathlib.Tactic

/-!
Lists that an order sorts in one way only, and lists cut into pieces.

* `Arranges`: an order that decides between any two members of a list;
  `Arranges.mergeSort_eq`: it leaves one way to sort them;
* `Arranges.mergeSort_filter`, `Arranges.mergeSort_flip`: parts of a sorted list, and the order the
  other way round;
* `filter_eq_after`, `filter_eq_before`: what comes after and before one member of a sorted list;
* `chunks`: the pieces of a list, of one length but for the last.
-/

namespace GraphMapper

variable {α : Type}

/-! ### Sorting -/

/-- Any two members of the list are in order one way round, and only equal ones are both ways. -/
structure Arranges (le : α → α → Bool) (l : List α) : Prop where
  total : ∀ a ∈ l, ∀ b ∈ l, le a b ∨ le b a
  antisymm : ∀ a ∈ l, ∀ b ∈ l, le a b → le b a → a = b
  trans : ∀ a ∈ l, ∀ b ∈ l, ∀ c ∈ l, le a b → le b c → le a c

namespace Arranges

variable {le : α → α → Bool} {l l' : List α}

lemma subset (h : Arranges le l) (hsub : ∀ a ∈ l', a ∈ l) : Arranges le l' where
  total a ha b hb := h.total a (hsub a ha) b (hsub b hb)
  antisymm a ha b hb := h.antisymm a (hsub a ha) b (hsub b hb)
  trans a ha b hb c hc := h.trans a (hsub a ha) b (hsub b hb) c (hsub c hc)

lemma flip (h : Arranges le l) : Arranges (fun a b => le b a) l where
  total a ha b hb := h.total b hb a ha
  antisymm a ha b hb hab hba := h.antisymm a ha b hb hba hab
  trans a ha b hb c hc hab hbc := h.trans c hc b hb a ha hbc hab

lemma pairwise_mergeSort (h : Arranges le l) : (l.mergeSort le).Pairwise fun a b => le a b := by
  -- the order is known for the members alone, so these are sorted as members
  have hmembers : l.mergeSort le = (l.attach.mergeSort fun a b => le a b).map Subtype.val := by
    have hmap : (l.attach.mergeSort fun a b => le a b).map Subtype.val =
        (l.attach.map Subtype.val).mergeSort le := List.map_mergeSort fun _ _ _ _ => rfl
    rw [hmap, List.attach_map_subtype_val]
  have htotal (a b : { a // a ∈ l }) : le a b || le b a := by
    rw [Bool.or_eq_true]
    exact h.total a a.2 b b.2
  rw [hmembers, List.pairwise_map]
  exact List.pairwise_mergeSort
    (fun (a b c : { a // a ∈ l }) => h.trans a a.2 b b.2 c c.2) htotal _

/-- There is one way to sort the members. -/
theorem mergeSort_eq (h : Arranges le l) (hperm : l'.Perm l) (hsorted : l'.Pairwise fun a b => le a b) :
    l.mergeSort le = l' := by
  refine List.Perm.eq_of_pairwise (fun a b ha hb => ?_) h.pairwise_mergeSort hsorted
    ((List.mergeSort_perm l le).trans hperm.symm)
  exact h.antisymm a ((List.mergeSort_perm l le).mem_iff.mp ha) b (hperm.mem_iff.mp hb)

/-- A part of the list is sorted as the part of the sorted list. -/
lemma mergeSort_filter (h : Arranges le l) (p : α → Bool) :
    (l.filter p).mergeSort le = (l.mergeSort le).filter p :=
  (h.subset fun _ ha => List.mem_of_mem_filter ha).mergeSort_eq
    ((List.mergeSort_perm l le).filter p) (h.pairwise_mergeSort.filter p)

/-- The order the other way round sorts the list backwards. -/
lemma mergeSort_flip (h : Arranges le l) :
    (l.mergeSort fun a b => le b a) = (l.mergeSort le).reverse :=
  h.flip.mergeSort_eq ((List.reverse_perm _).trans (List.mergeSort_perm l le))
    (List.pairwise_reverse.mpr h.pairwise_mergeSort)

end Arranges

/-! ### One member of a sorted list -/

section

variable {R : α → α → Prop} {p : α → Bool} {pre post : List α} {x : α}

/-- What comes after a member. -/
lemma filter_eq_after (hsorted : (pre ++ x :: post).Pairwise R)
    (hasymm : ∀ a ∈ pre ++ x :: post, ∀ b ∈ pre ++ x :: post, R a b → ¬ R b a)
    (hp : ∀ a ∈ pre ++ x :: post, p a ↔ R x a) : (pre ++ x :: post).filter p = post := by
  obtain ⟨-, hrest, hpre⟩ := List.pairwise_append.mp hsorted
  have hx : x ∈ pre ++ x :: post := by simp
  have hself : ¬ p x := fun h => (fun hR => hasymm x hx x hx hR hR) ((hp x hx).mp h)
  have hbefore : ∀ a ∈ pre, ¬ p a := fun a ha h =>
    hasymm a (by simp [ha]) x hx (hpre a ha x (by simp)) ((hp a (by simp [ha])).mp h)
  have hafter : ∀ a ∈ post, p a := fun a ha =>
    (hp a (by simp [ha])).mpr ((List.pairwise_cons.mp hrest).1 a ha)
  rw [List.filter_append, List.filter_eq_nil_iff.mpr hbefore, List.nil_append,
    List.filter_cons_of_neg hself, List.filter_eq_self.mpr hafter]

/-- What comes before a member. -/
lemma filter_eq_before (hsorted : (pre ++ x :: post).Pairwise R)
    (hasymm : ∀ a ∈ pre ++ x :: post, ∀ b ∈ pre ++ x :: post, R a b → ¬ R b a)
    (hp : ∀ a ∈ pre ++ x :: post, p a ↔ R a x) : (pre ++ x :: post).filter p = pre := by
  -- this is what comes after it in the list backwards
  have hreverse : (pre ++ x :: post).reverse = post.reverse ++ x :: pre.reverse := by simp
  have hmem (a : α) (ha : a ∈ post.reverse ++ x :: pre.reverse) : a ∈ pre ++ x :: post :=
    List.mem_reverse.mp (hreverse ▸ ha)
  have h : (post.reverse ++ x :: pre.reverse).filter p = pre.reverse :=
    filter_eq_after (R := fun a b => R b a) (hreverse ▸ List.pairwise_reverse.mpr hsorted)
      (fun a ha b hb => hasymm b (hmem b hb) a (hmem a ha)) fun a ha => hp a (hmem a ha)
  rw [← hreverse, List.filter_reverse] at h
  exact List.reverse_injective h

end

/-! ### Pieces -/

/-- The pieces of a list: each of the given length, but for a last one that is shorter. -/
def chunks (size : ℕ) : List α → List (List α)
  | [] => []
  | a :: rest => (a :: rest.take (size - 1)) :: chunks size (rest.drop (size - 1))
  termination_by l => l.length

variable {size : ℕ}

lemma chunks_nil : chunks size ([] : List α) = [] := by
  rw [chunks]

lemma chunks_of_ne_nil (hsize : 1 ≤ size) {l : List α} (h : l ≠ []) :
    chunks size l = l.take size :: chunks size (l.drop size) := by
  obtain ⟨size, rfl⟩ := Nat.exists_eq_add_of_le' hsize
  cases l with
  | nil => exact absurd rfl h
  | cons a rest => rw [chunks, List.take_succ_cons, List.drop_succ_cons, Nat.add_sub_cancel]

/-- The pieces put together are the list. -/
lemma flatten_chunks (l : List α) : (chunks size l).flatten = l := by
  fun_induction chunks size l with
  | case1 => rfl
  | case2 a rest ih => rw [List.flatten_cons, ih, List.cons_append, List.take_append_drop]

/-- A piece that another one follows has the full length, and what follows is not empty. -/
lemma chunks_split (hsize : 1 ≤ size) {l : List α} {earlier later : List (List α)}
    {piece next : List α} (h : chunks size l = earlier ++ piece :: next :: later) :
    piece.length = size ∧ next ≠ [] := by
  fun_induction chunks size l generalizing earlier with
  | case1 => simp at h
  | case2 a rest ih =>
      cases earlier with
      | cons first earlier => exact ih (List.cons.inj h).2
      | nil =>
          obtain ⟨rfl, hnext⟩ := List.cons.inj h
          have hrest : rest.drop (size - 1) ≠ [] := fun hnil => by
            simp [hnil, chunks_nil] at hnext
          have hlong : size - 1 < rest.length := by simpa using hrest
          refine ⟨by simp; omega, ?_⟩
          rw [chunks_of_ne_nil hsize hrest] at hnext
          rw [← (List.cons.inj hnext).1]
          simp [hrest]
          omega

end GraphMapper
