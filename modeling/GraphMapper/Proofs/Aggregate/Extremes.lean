import GraphMapper.Proofs.Aggregate.Sum
import GraphMapper.Proofs.Decimal.Nearest

/-!
Least and greatest integers.

* `FirstLeast`, `LastGreatest`: the ends of a stable order; `firstLeast_head?`,
  `lastGreatest_getLast?`: they are where a sorted list begins and ends;
* `sortedBy_rank`, `Aggregate.evaluate_min_rank`, `Aggregate.evaluate_max_rank`: values that are compared by
  ranks are sorted by them, and picked by them;
* `Aggregate.evaluate_min_integers`, `Aggregate.evaluate_max_integers`: integers are picked by the doubles
  nearest to them; `Aggregate.evaluate_min_forall_iff`, `Aggregate.evaluate_max_forall_iff`: when one is
  picked in every order;
* `Aggregate.extremes_of_integers` (**the least and the greatest integer are found by their doubles**),
  and `Aggregate.min_depends_on_order`: large integers that become one double.
-/

namespace GraphMapper

open Decimal (IsWord nearestInt nearestInt_of_le le_add_of_nearestInt_le standsFor_floatOfInt
  floatOfInt_lt_iff lt_of_floatOfInt_lt compareFloats_eq)
open Number (floatOfInt)

/-! ### Ends of a sorted list -/

section

variable {α β γ : Type}

/-- The first of the least members. -/
def FirstLeast (less : α → α → Prop) (items : List α) (a : α) : Prop :=
  ∃ before after, items = before ++ a :: after ∧ (∀ b ∈ before, less a b) ∧ ∀ b ∈ after, ¬ less b a

/-- The last of the greatest members. -/
def LastGreatest (less : α → α → Prop) (items : List α) (a : α) : Prop :=
  ∃ before after, items = before ++ a :: after ∧ (∀ b ∈ before, ¬ less a b) ∧ ∀ b ∈ after, less b a

variable {less less' : α → α → Prop} {items : List α} {a b : α}

lemma FirstLeast.congr (hless : ∀ a ∈ items, ∀ b ∈ items, less a b ↔ less' a b)
    (h : FirstLeast less items a) : FirstLeast less' items a := by
  obtain ⟨before, after, rfl, hbefore, hafter⟩ := h
  refine ⟨before, after, rfl, fun b hb => ?_, fun b hb => ?_⟩
  · exact (hless a (by simp) b (by simp [hb])).mp (hbefore b hb)
  · exact (not_congr (hless b (by simp [hb]) a (by simp))).mp (hafter b hb)

lemma LastGreatest.congr (hless : ∀ a ∈ items, ∀ b ∈ items, less a b ↔ less' a b)
    (h : LastGreatest less items a) : LastGreatest less' items a := by
  obtain ⟨before, after, rfl, hbefore, hafter⟩ := h
  refine ⟨before, after, rfl, fun b hb => ?_, fun b hb => ?_⟩
  · exact (not_congr (hless a (by simp) b (by simp [hb]))).mp (hbefore b hb)
  · exact (hless b (by simp [hb]) a (by simp)).mp (hafter b hb)

lemma FirstLeast.mem (h : FirstLeast less items a) : a ∈ items := by
  obtain ⟨before, after, rfl, -, -⟩ := h
  simp

lemma LastGreatest.mem (h : LastGreatest less items a) : a ∈ items := by
  obtain ⟨before, after, rfl, -, -⟩ := h
  simp

/-- A member it begins with gives way only to a lesser one. -/
lemma FirstLeast.less_head (h : FirstLeast less (b :: items) a) (hne : b ≠ a) : less a b := by
  obtain ⟨before, after, heq, hbefore, -⟩ := h
  rcases List.cons_eq_append_iff.mp heq with ⟨-, hcons⟩ | ⟨before, rfl, -⟩
  · exact absurd (List.cons.inj hcons).1.symm hne
  · exact hbefore b List.mem_cons_self

/-- A member it ends with gives way only to a greater one. -/
lemma LastGreatest.less_getLast (h : LastGreatest less (items ++ [b]) a) (hne : b ≠ a) :
    less b a := by
  obtain ⟨before, after, heq, -, hafter⟩ := h
  rcases List.eq_nil_or_concat' after with rfl | ⟨after, c, rfl⟩
  · exact absurd (List.append_inj_right' heq rfl) (by simpa using hne)
  · rw [← List.cons_append, ← List.append_assoc] at heq
    obtain rfl : b = c := by simpa using List.append_inj_right' heq rfl
    exact hafter b (by simp)

section

variable [LinearOrder γ] {rank : α → γ}

lemma FirstLeast.le (h : FirstLeast (fun a b => rank a < rank b) items a) (hb : b ∈ items) :
    rank a ≤ rank b := by
  obtain ⟨before, after, rfl, hbefore, hafter⟩ := h
  rcases List.mem_append.mp hb with hb | hb
  · exact (hbefore b hb).le
  · rcases List.mem_cons.mp hb with rfl | hb
    · exact le_rfl
    · exact not_lt.mp (hafter b hb)

lemma LastGreatest.le (h : LastGreatest (fun a b => rank a < rank b) items a) (hb : b ∈ items) :
    rank b ≤ rank a := by
  obtain ⟨before, after, rfl, hbefore, hafter⟩ := h
  rcases List.mem_append.mp hb with hb | hb
  · exact not_lt.mp (hbefore b hb)
  · rcases List.mem_cons.mp hb with rfl | hb
    · exact le_rfl
    · exact (hafter b hb).le

omit [LinearOrder γ] in
lemma mergeSort_ne_nil (le : α → α → Bool) (h : items ≠ []) : items.mergeSort le ≠ [] := by
  rwa [← List.length_pos_iff, List.length_mergeSort, List.length_pos_iff]

lemma rank_trans (rank : α → γ) (a b c : α) :
    decide (rank a ≤ rank b) → decide (rank b ≤ rank c) → decide (rank a ≤ rank c) := by
  simpa using le_trans

lemma rank_total (rank : α → γ) (a b : α) : decide (rank a ≤ rank b) || decide (rank b ≤ rank a) := by
  simpa using le_total (rank a) (rank b)

/-- A member in front of a sorted list comes behind the lesser ones and before all others. -/
lemma mergeSort_cons_split (rank : α → γ) (a : α) (items : List α) :
    ∃ front back, (a :: items).mergeSort (rank · ≤ rank ·) = front ++ a :: back ∧
      items.mergeSort (rank · ≤ rank ·) = front ++ back ∧
      (∀ b ∈ items, b ∈ front ∨ b ∈ back) ∧
      (∀ b ∈ front, rank b < rank a) ∧ ∀ b ∈ back, rank a ≤ rank b := by
  obtain ⟨front, back, hcons, hitems, hfront⟩ :=
    List.mergeSort_cons (rank_trans rank) (rank_total rank) a items
  have hsorted := List.pairwise_mergeSort (rank_trans rank) (rank_total rank) (a :: items)
  rw [hcons, List.pairwise_append, List.pairwise_cons] at hsorted
  refine ⟨front, back, hcons, hitems, fun b hb => ?_, fun b hb => by simpa using hfront b hb,
    fun b hb => by simpa using hsorted.2.1.1 b hb⟩
  rw [← List.mem_append, ← hitems]
  exact List.mem_mergeSort.mpr hb

/-- A sorted list begins with the first of the least members. -/
lemma firstLeast_head? (h : (items.mergeSort (rank · ≤ rank ·)).head? = some a) :
    FirstLeast (rank · < rank ·) items a := by
  induction items generalizing a with
  | nil => simp at h
  | cons c items ih =>
      obtain ⟨front, back, hcons, hitems, hmem, hfront, hback⟩ := mergeSort_cons_split rank c items
      rw [hcons] at h
      cases front with
      | nil =>
          obtain rfl : c = a := Option.some.inj h
          exact ⟨[], items, rfl, nofun, fun b hb =>
            not_lt.mpr (hback b ((hmem b hb).resolve_left List.not_mem_nil))⟩
      | cons b front =>
          obtain rfl : b = a := Option.some.inj h
          obtain ⟨before, after, rfl, hbefore, hafter⟩ := ih (by rw [hitems]; rfl)
          exact ⟨c :: before, after, rfl,
            List.forall_mem_cons.mpr ⟨hfront b List.mem_cons_self, hbefore⟩, hafter⟩

/-- A sorted list ends with the last of the greatest members. -/
lemma lastGreatest_getLast? (h : (items.mergeSort (rank · ≤ rank ·)).getLast? = some a) :
    LastGreatest (rank · < rank ·) items a := by
  induction items generalizing a with
  | nil => simp at h
  | cons c items ih =>
      obtain ⟨front, back, hcons, hitems, hmem, hfront, hback⟩ := mergeSort_cons_split rank c items
      rw [hcons] at h
      rcases List.eq_nil_or_concat' back with rfl | ⟨back, b, rfl⟩
      · obtain rfl : c = a := by simpa using h
        exact ⟨[], items, rfl, nofun, fun b hb =>
          hfront b ((hmem b hb).resolve_right List.not_mem_nil)⟩
      · rw [← List.cons_append, ← List.append_assoc, List.getLast?_concat] at h
        obtain rfl : b = a := Option.some.inj h
        obtain ⟨before, after, rfl, hbefore, hafter⟩ := ih (a := b)
          (by rw [hitems, ← List.append_assoc, List.getLast?_concat])
        exact ⟨c :: before, after, rfl,
          List.forall_mem_cons.mpr ⟨not_lt.mpr (hback b (by simp)), hbefore⟩, hafter⟩

end

end

/-! ### Values that are compared by ranks -/

lemma compare_map {α β : Type} [LinearOrder α] [LinearOrder β] {f : α → β} (h : StrictMono f)
    (a b : α) : compare (f a) (f b) = compare a b := by
  rw [← cmp_eq_compare, ← cmp_eq_compare, h.cmp_map_eq]

/-- Values that are compared by ranks are sorted by them. -/
lemma sortedBy_rank {α γ : Type} [LinearOrder γ] {rank : α → γ} {value : α → Value} {items : List α}
    (hrank : ∀ a ∈ items, ∀ b ∈ items, compareValues (value a) (value b) = compare (rank a) (rank b)) :
    sortedBy compareValues id (items.map value) = (items.mergeSort (rank · ≤ rank ·)).map value := by
  refine (List.map_mergeSort fun a ha b hb => ?_).symm
  rw [decide_eq_decide, id, id, hrank a ha b hb, compare_le_iff_le]

namespace Aggregate

variable {values : List Value}

/-- The minimum is where the sorted values begin. -/
lemma evaluate_min (hsome : (values.filter (!·.isNull)).isEmpty = false) :
    Aggregate.min.evaluate values =
      .ok ((sortedBy compareValues id (values.filter (!·.isNull))).head?.getD Aggregate.min.empty) := by
  simp only [evaluate, validate, fraction?, hsome]
  rfl

/-- The maximum is where the sorted values end. -/
lemma evaluate_max (hsome : (values.filter (!·.isNull)).isEmpty = false) :
    Aggregate.max.evaluate values =
      .ok ((sortedBy compareValues id (values.filter (!·.isNull))).getLast?.getD
        Aggregate.max.empty) := by
  simp only [evaluate, validate, fraction?, hsome]
  rfl

section

variable {α γ : Type} [LinearOrder γ] {rank : α → γ} {value : α → Value} {items : List α}
  (hvalues : values.filter (!·.isNull) = items.map value) (hne : items ≠ [])
  (hrank : ∀ a ∈ items, ∀ b ∈ items, compareValues (value a) (value b) = compare (rank a) (rank b))

include hvalues hne hrank

/-- The minimum is the first of the values of least rank. -/
lemma evaluate_min_rank :
    ∃ least, Aggregate.min.evaluate values = .ok (value least) ∧
      FirstLeast (rank · < rank ·) items least := by
  obtain ⟨least, rest, hsorted⟩ := List.exists_cons_of_ne_nil
    (mergeSort_ne_nil (rank · ≤ rank ·) hne)
  refine ⟨least, ?_, firstLeast_head? (congrArg List.head? hsorted)⟩
  rw [evaluate_min (isEmpty_present hvalues hne), hvalues, sortedBy_rank hrank, hsorted]
  rfl

/-- The maximum is the last of the values of greatest rank. -/
lemma evaluate_max_rank :
    ∃ greatest, Aggregate.max.evaluate values = .ok (value greatest) ∧
      LastGreatest (rank · < rank ·) items greatest := by
  obtain ⟨rest, greatest, hsorted⟩ := (List.eq_nil_or_concat' _).resolve_left
    (mergeSort_ne_nil (rank · ≤ rank ·) hne)
  refine ⟨greatest, ?_, lastGreatest_getLast? (by rw [hsorted, List.getLast?_concat])⟩
  rw [evaluate_max (isEmpty_present hvalues hne), hvalues, sortedBy_rank hrank, hsorted, List.map_append,
    List.map_singleton, List.getLast?_concat]
  rfl

end

end Aggregate

/-! ### Integers -/

namespace Aggregate

variable {values : List Value} {numbers : List ℤ} {n : ℤ}

/-- Words are compared by the doubles nearest to them. -/
lemma compareValues_int {m n : ℤ} (hm : IsWord m) (hn : IsWord n) :
    compareValues (.int m) (.int n) = compare (nearestInt m) (nearestInt n) :=
  (compareFloats_eq (standsFor_floatOfInt hm) (standsFor_floatOfInt hn)).trans
    (compare_map Int.cast_strictMono _ _)

lemma int_inj {m n : ℤ} {result : Except CompileError Value} (hm : result = .ok (.int m))
    (hn : result = .ok (.int n)) : m = n := by
  simpa [Value.int] using hm.symm.trans hn

section

variable (h : Integers values numbers) (hne : numbers ≠ []) (hword : ∀ n ∈ numbers, IsWord n)

include h hne hword

/-- The minimum of integers is the first of those whose double is least. -/
lemma evaluate_min_integers :
    ∃ least, Aggregate.min.evaluate values = .ok (.int least) ∧
      FirstLeast (nearestInt · < nearestInt ·) numbers least :=
  evaluate_min_rank h hne fun m hm n hn => compareValues_int (hword m hm) (hword n hn)

/-- The maximum of integers is the last of those whose double is greatest. -/
lemma evaluate_max_integers :
    ∃ greatest, Aggregate.max.evaluate values = .ok (.int greatest) ∧
      LastGreatest (nearestInt · < nearestInt ·) numbers greatest :=
  evaluate_max_rank h hne fun m hm n hn => compareValues_int (hword m hm) (hword n hn)

end

/-- An integer in front is the minimum if no other becomes a lesser double. -/
lemma evaluate_min_cons (hword : ∀ m ∈ n :: numbers, IsWord m)
    (hleast : ∀ m ∈ n :: numbers, nearestInt n ≤ nearestInt m) :
    Aggregate.min.evaluate ((n :: numbers).map .int) = .ok (.int n) := by
  obtain ⟨least, heq, hfirst⟩ :=
    evaluate_min_integers (integers_map (n :: numbers)) (List.cons_ne_nil _ _) hword
  obtain rfl : n = least := by
    by_contra hne
    exact (hfirst.less_head hne).not_ge (hleast least hfirst.mem)
  exact heq

section

variable (hword : ∀ n ∈ numbers, IsWord n) (hn : n ∈ numbers)

include hword hn

/-- One integer is the minimum in every order just if no other has its double or a lesser one. -/
lemma evaluate_min_forall_iff :
    (∀ reordered others, reordered.Perm numbers → Integers others reordered →
        Aggregate.min.evaluate others = .ok (.int n)) ↔
      ∀ m ∈ numbers, m ≠ n → nearestInt n < nearestInt m := by
  have hfirst {reordered others} (hperm : reordered.Perm numbers)
      (hothers : Integers others reordered) :=
    evaluate_min_integers hothers (List.ne_nil_of_mem (hperm.mem_iff.mpr hn))
      fun m hm => hword m (hperm.mem_iff.mp hm)
  constructor
  · intro hall m hm hne
    have hperm := (List.perm_cons_erase hm).symm
    obtain ⟨least, heq, hleast⟩ := hfirst hperm (integers_map _)
    obtain rfl : least = n := int_inj heq (hall _ _ hperm (integers_map _))
    exact hleast.less_head hne
  · intro hless reordered others hperm hothers
    obtain ⟨least, heq, hleast⟩ := hfirst hperm hothers
    by_contra hother
    have hne : least ≠ n := by
      rintro rfl
      exact hother heq
    exact (hless least (hperm.mem_iff.mp hleast.mem) hne).not_ge
      (hleast.le (hperm.mem_iff.mpr hn))

/-- One integer is the maximum in every order just if no other has its double or a greater one. -/
lemma evaluate_max_forall_iff :
    (∀ reordered others, reordered.Perm numbers → Integers others reordered →
        Aggregate.max.evaluate others = .ok (.int n)) ↔
      ∀ m ∈ numbers, m ≠ n → nearestInt m < nearestInt n := by
  have hlast {reordered others} (hperm : reordered.Perm numbers)
      (hothers : Integers others reordered) :=
    evaluate_max_integers hothers (List.ne_nil_of_mem (hperm.mem_iff.mpr hn))
      fun m hm => hword m (hperm.mem_iff.mp hm)
  constructor
  · intro hall m hm hne
    have hperm : (numbers.erase m ++ [m]).Perm numbers :=
      (List.perm_append_singleton _ _).trans (List.perm_cons_erase hm).symm
    obtain ⟨greatest, heq, hgreatest⟩ := hlast hperm (integers_map _)
    obtain rfl : greatest = n := int_inj heq (hall _ _ hperm (integers_map _))
    exact hgreatest.less_getLast hne
  · intro hless reordered others hperm hothers
    obtain ⟨greatest, heq, hgreatest⟩ := hlast hperm hothers
    by_contra hother
    have hne : greatest ≠ n := by
      rintro rfl
      exact hother heq
    exact (hless greatest (hperm.mem_iff.mp hgreatest.mem) hne).not_ge
      (hgreatest.le (hperm.mem_iff.mpr hn))

end

/-- **The least and the greatest integer are found by their doubles**: of words, at least one, with nulls
in between.  The minimum is the first word whose double is least, the maximum the last one whose double
is greatest.  Neither is off by more than 2048, and both are right if no word has more than 53 bits.  A
word is the minimum in whatever order the words come just if every other one is greater and has a greater
double, and so it is with the maximum. -/
theorem extremes_of_integers (h : Integers values numbers) (hne : numbers ≠ [])
    (hword : ∀ n ∈ numbers, IsWord n) :
    (∃ least greatest,
      (Aggregate.min.evaluate values = .ok (.int least) ∧
        FirstLeast (floatOfInt · < floatOfInt ·) numbers least ∧
        ∀ n ∈ numbers, least ≤ n + 2 ^ 11) ∧
      (Aggregate.max.evaluate values = .ok (.int greatest) ∧
        LastGreatest (floatOfInt · < floatOfInt ·) numbers greatest ∧
        ∀ n ∈ numbers, n ≤ greatest + 2 ^ 11) ∧
      ((∀ n ∈ numbers, n.natAbs ≤ 2 ^ 53) →
        IsLeast {n | n ∈ numbers} least ∧ IsGreatest {n | n ∈ numbers} greatest)) ∧
    (∀ n ∈ numbers,
      ((∀ reordered others, reordered.Perm numbers → Integers others reordered →
          Aggregate.min.evaluate others = .ok (.int n)) ↔
        ∀ m ∈ numbers, m ≠ n → n < m ∧ floatOfInt n < floatOfInt m) ∧
      ((∀ reordered others, reordered.Perm numbers → Integers others reordered →
          Aggregate.max.evaluate others = .ok (.int n)) ↔
        ∀ m ∈ numbers, m ≠ n → m < n ∧ floatOfInt m < floatOfInt n)) := by
  have hless {m n} (hm : m ∈ numbers) (hn : n ∈ numbers) :
      nearestInt m < nearestInt n ↔ floatOfInt m < floatOfInt n :=
    (floatOfInt_lt_iff (hword m hm) (hword n hn)).symm
  have hless_and {m n} (hm : m ∈ numbers) (hn : n ∈ numbers) :
      nearestInt m < nearestInt n ↔ m < n ∧ floatOfInt m < floatOfInt n := by
    rw [hless hm hn, iff_and_self]
    exact lt_of_floatOfInt_lt (hword m hm) (hword n hn)
  constructor
  · obtain ⟨least, hmin, hleast⟩ := evaluate_min_integers h hne hword
    obtain ⟨greatest, hmax, hgreatest⟩ := evaluate_max_integers h hne hword
    refine ⟨least, greatest,
      ⟨hmin, hleast.congr fun _ hm _ hn => hless hm hn, fun n hn => ?_⟩,
      ⟨hmax, hgreatest.congr fun _ hm _ hn => hless hm hn, fun n hn => ?_⟩, fun hsmall => ?_⟩
    · exact le_add_of_nearestInt_le (hword _ hleast.mem) (hword n hn) (hleast.le hn)
    · exact le_add_of_nearestInt_le (hword n hn) (hword _ hgreatest.mem) (hgreatest.le hn)
    · have hle {m n} (hm : m ∈ numbers) (hn : n ∈ numbers) (hle : nearestInt m ≤ nearestInt n) :
          m ≤ n := by
        rwa [nearestInt_of_le (hsmall m hm), nearestInt_of_le (hsmall n hn)] at hle
      exact ⟨⟨hleast.mem, fun n hn => hle hleast.mem hn (hleast.le hn)⟩,
        ⟨hgreatest.mem, fun n hn => hle hn hgreatest.mem (hgreatest.le hn)⟩⟩
  · intro n hn
    rw [evaluate_min_forall_iff hword hn, evaluate_max_forall_iff hword hn]
    exact ⟨forall₂_congr fun m hm => imp_congr_right fun _ => hless_and hn hm,
      forall₂_congr fun m hm => imp_congr_right fun _ => hless_and hm hn⟩

/-- Of the least and the greatest word, with two between them that have one double. -/
theorem extremes_of_integers_ends :
    let numbers : List ℤ := [2 ^ 53 + 1, 2 ^ 64 - 1, -2 ^ 63, 2 ^ 53]
    let values := [.int (2 ^ 53 + 1), .null, .int (2 ^ 64 - 1), .int (-2 ^ 63), .int (2 ^ 53), .null]
    Integers values numbers ∧ numbers ≠ [] ∧ (∀ n ∈ numbers, IsWord n) ∧
      Aggregate.min.evaluate values = .ok (.int (-2 ^ 63)) ∧
      Aggregate.max.evaluate values = .ok (.int (2 ^ 64 - 1)) := by
  intro numbers values
  have h : Integers values numbers := rfl
  have hne : numbers ≠ [] := by decide
  have hword : ∀ n ∈ numbers, IsWord n := by decide
  have hall := (extremes_of_integers h hne hword).2
  have hleast : ∀ m ∈ numbers, m ≠ -2 ^ 63 → -2 ^ 63 < m ∧ floatOfInt (-2 ^ 63) < floatOfInt m := by
    decide +kernel
  have hgreatest : ∀ m ∈ numbers, m ≠ 2 ^ 64 - 1 →
      m < 2 ^ 64 - 1 ∧ floatOfInt m < floatOfInt (2 ^ 64 - 1) := by
    decide +kernel
  exact ⟨h, hne, hword, (hall _ (by decide)).1.mpr hleast _ _ (.refl _) h,
    (hall _ (by decide)).2.mpr hgreatest _ _ (.refl _) h⟩

/-- The order can decide: two words that have one double, and the first of them is the minimum, whether
it is the lesser or the greater one. -/
theorem min_depends_on_order :
    let numbers : List ℤ := [2 ^ 53 + 1, 2 ^ 53]
    let reordered : List ℤ := [2 ^ 53, 2 ^ 53 + 1]
    (∀ n ∈ numbers, IsWord n) ∧ IsLeast {n | n ∈ numbers} (2 ^ 53) ∧ reordered.Perm numbers ∧
      Aggregate.min.evaluate (numbers.map .int) = .ok (.int (2 ^ 53 + 1)) ∧
      Aggregate.min.evaluate (reordered.map .int) = .ok (.int (2 ^ 53)) := by
  intro numbers reordered
  have hleast : ∀ m ∈ numbers, 2 ^ 53 ≤ m := by decide
  exact ⟨by decide, ⟨by decide, hleast⟩, by decide, evaluate_min_cons (by decide) (by decide),
    evaluate_min_cons (by decide) (by decide)⟩

end Aggregate

end GraphMapper
