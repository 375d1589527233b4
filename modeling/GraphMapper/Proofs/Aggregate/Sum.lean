import Mathlib.Algebra.Order.BigOperators.Group.List
import Mathlib.Tactic
import GraphMapper.Aggregate.Evaluate

/-!
Sums of integers.

* `Integers`: integers in a list of values, nulls in between;
* `NeverOverflows`: lists whose beginnings all sum up to a signed word; `neverOverflows_perm_iff`: which
  lists are such in every order;
* `exactSum?_eq_some_iff`: when there is an exact sum, and what it is;
* `Aggregate.sum_of_integers` (**a sum that does not overflow on the way is exact**), and
  `Aggregate.sum_depends_on_order`: others are not, even if the whole sum is a signed word.
-/

namespace GraphMapper

open Number (floatOfInt)

/-! ### Integers among values -/

/-- The values are these integers, in this order, with nulls in between. -/
def Integers (values : List Value) (numbers : List ℤ) : Prop :=
  values.filter (!·.isNull) = numbers.map .int

lemma integers_map (numbers : List ℤ) : Integers (numbers.map .int) numbers := by
  refine List.filter_eq_self.mpr fun v hv => ?_
  obtain ⟨n, -, rfl⟩ := List.mem_map.mp hv
  rfl

/-- A signed integer of 64 bits. -/
def IsSigned (n : ℤ) : Prop :=
  -2 ^ 63 ≤ n ∧ n < 2 ^ 63

instance (n : ℤ) : Decidable (IsSigned n) :=
  inferInstanceAs (Decidable (_ ∧ _))

lemma asSigned?_int (n : ℤ) : (Number.int n).asSigned? = if IsSigned n then some n else none :=
  rfl

/-! ### Beginnings of a list -/

/-- Whatever the list begins with, added to a number, is a signed word. -/
def NeverOverflows (start : ℤ) (numbers : List ℤ) : Prop :=
  ∀ front, front <+: numbers → IsSigned (start + front.sum)

instance (start : ℤ) (numbers : List ℤ) : Decidable (NeverOverflows start numbers) :=
  decidable_of_iff (∀ front ∈ numbers.inits, IsSigned (start + front.sum))
    (forall_congr' fun front => by rw [List.mem_inits])

section

variable {start total n : ℤ} {numbers : List ℤ}

lemma neverOverflows_nil : NeverOverflows start [] ↔ IsSigned start := by
  simp [NeverOverflows]

lemma neverOverflows_cons :
    NeverOverflows start (n :: numbers) ↔ IsSigned start ∧ NeverOverflows (start + n) numbers := by
  simp only [NeverOverflows, List.prefix_cons_iff, forall_eq_or_imp, List.sum_nil, add_zero]
  refine and_congr_right fun _ => ?_
  constructor
  · intro h front hfront
    simpa [add_assoc] using h (n :: front) ⟨front, rfl, hfront⟩
  · rintro h _ ⟨front, rfl, hfront⟩
    simpa [add_assoc] using h front hfront

lemma NeverOverflows.isSigned (h : NeverOverflows start numbers) : IsSigned start := by
  simpa using h [] List.nil_prefix

/-! ### Orders of a list -/

lemma filter_neg_sum_le (numbers : List ℤ) : (numbers.filter (· < 0)).sum ≤ numbers.sum := by
  induction numbers with
  | nil => rfl
  | cons n numbers ih =>
      by_cases hn : n < 0
      · simpa [hn] using ih
      · rw [List.filter_cons_of_neg (by simpa using hn), List.sum_cons]
        omega

lemma le_filter_pos_sum (numbers : List ℤ) : numbers.sum ≤ (numbers.filter (0 < ·)).sum := by
  induction numbers with
  | nil => rfl
  | cons n numbers ih =>
      by_cases hn : 0 < n
      · simpa [hn] using ih
      · rw [List.filter_cons_of_neg (by simpa using hn), List.sum_cons]
        omega

/-- No order of a list overflows on the way just if its positive numbers alone do not, nor its negative
ones. -/
theorem neverOverflows_perm_iff :
    (∀ reordered, reordered.Perm numbers → NeverOverflows 0 reordered) ↔
      IsSigned (numbers.filter (0 < ·)).sum ∧ IsSigned (numbers.filter (· < 0)).sum := by
  constructor
  · intro h
    have hfirst (p : ℤ → Bool) : IsSigned (numbers.filter p).sum := by
      have hfront := h _ (List.filter_append_perm p numbers) _ (List.prefix_append _ _)
      rwa [zero_add] at hfront
    exact ⟨hfirst _, hfirst _⟩
  · rintro ⟨hpos, hneg⟩ reordered hperm front ⟨rest, rfl⟩
    rw [zero_add]
    rw [← (hperm.filter _).sum_eq, List.filter_append, List.sum_append] at hpos hneg
    have hpositive : 0 ≤ (rest.filter (0 < ·)).sum :=
      List.sum_nonneg fun n hn => (of_decide_eq_true (List.mem_filter.mp hn).2).le
    have hnegative : (rest.filter (· < 0)).sum ≤ 0 :=
      (List.sum_le_card_nsmul _ 0 fun n hn =>
        (of_decide_eq_true (List.mem_filter.mp hn).2).le).trans_eq (smul_zero _)
    have hmost := le_filter_pos_sum front
    have hleast := filter_neg_sum_le front
    exact ⟨by have := hneg.1; omega, by have := hpos.2; omega⟩

/-! ### Sums in words -/

lemma foldlM_eq_some_iff (hstart : IsSigned start) (hsigned : ∀ n ∈ numbers, IsSigned n) :
    (numbers.map Value.int).foldlM
        (fun total v => do
          let n ← v.asSigned?
          (Number.int (total + n)).asSigned?) start = some total ↔
      NeverOverflows start numbers ∧ total = start + numbers.sum := by
  induction numbers generalizing start with
  | nil => simp [neverOverflows_nil, hstart, eq_comm]
  | cons n numbers ih =>
      obtain ⟨hn, hrest⟩ := List.forall_mem_cons.mp hsigned
      have hvalue : (Value.int n).asSigned? = some n := (asSigned?_int n).trans (if_pos hn)
      rw [List.map_cons, List.foldlM_cons, hvalue, Option.bind_eq_bind, Option.bind_some,
        asSigned?_int, neverOverflows_cons, List.sum_cons, ← add_assoc]
      by_cases hnext : IsSigned (start + n)
      · rw [if_pos hnext]
        exact (ih hnext hrest).trans (and_congr_left fun _ => (and_iff_right hstart).symm)
      · rw [if_neg hnext]
        exact iff_of_false nofun fun h => hnext h.1.2.isSigned

/-- There is an exact sum when no beginning overflows. -/
theorem exactSum?_eq_some_iff (hsigned : ∀ n ∈ numbers, IsSigned n) :
    exactSum? (numbers.map .int) = some total ↔ NeverOverflows 0 numbers ∧ total = numbers.sum := by
  rw [exactSum?, foldlM_eq_some_iff (by decide) hsigned, zero_add]

end

lemma float_ne_int (x : Float) (n : ℤ) : Value.float x ≠ .int n := by
  rw [Value.float, Value.int]
  split_ifs <;> simp

namespace Aggregate

variable {values : List Value} {numbers : List ℤ}

lemma numeric_map (a : Aggregate) (numbers : List ℤ) :
    a.numeric (numbers.map .int) = .ok (numbers.map floatOfInt) := by
  rw [numeric, List.mapM_map]
  induction numbers with
  | nil => rfl
  | cons n numbers ih =>
      rw [List.mapM_cons, ih]
      rfl

lemma isEmpty_present {α : Type} {value : α → Value} {items : List α}
    (h : values.filter (!·.isNull) = items.map value) (hne : items ≠ []) :
    (values.filter (!·.isNull)).isEmpty = false := by
  rwa [h, List.isEmpty_map, List.isEmpty_eq_false_iff]

/-- The sum of integers is their exact sum, or else that of doubles. -/
lemma evaluate_sum (h : Integers values numbers) (hne : numbers ≠ []) :
    Aggregate.sum.evaluate values =
      .ok (match exactSum? (numbers.map .int) with
        | some total => .int total
        | none => .float (floatSum (numbers.map floatOfInt))) := by
  have hsome := isEmpty_present h hne
  have hnumeric := numeric_map .sum numbers
  rw [Integers] at h
  simp only [evaluate, validate, fraction?, h] at hsome ⊢
  rw [hsome, hnumeric]
  rfl

/-- The sum of integers is exact just if it does not overflow on the way. -/
lemma evaluate_sum_eq_iff (h : Integers values numbers) (hne : numbers ≠ [])
    (hsigned : ∀ n ∈ numbers, IsSigned n) :
    Aggregate.sum.evaluate values = .ok (.int numbers.sum) ↔ NeverOverflows 0 numbers := by
  rw [evaluate_sum h hne]
  constructor
  · intro heq
    cases hexact : exactSum? (numbers.map .int) with
    | some total => exact ((exactSum?_eq_some_iff hsigned).mp hexact).1
    | none =>
        rw [hexact] at heq
        exact absurd (Except.ok.inj heq) (float_ne_int _ _)
  · intro hnever
    rw [(exactSum?_eq_some_iff hsigned).mpr ⟨hnever, rfl⟩]

/-- Where the sum of integers overflows on the way, doubles are added. -/
lemma evaluate_sum_of_overflow (h : Integers values numbers) (hsigned : ∀ n ∈ numbers, IsSigned n)
    (hover : ¬ NeverOverflows 0 numbers) :
    Aggregate.sum.evaluate values = .ok (.float (floatSum (numbers.map floatOfInt))) := by
  have hne : numbers ≠ [] := by
    rintro rfl
    exact hover (neverOverflows_nil.mpr (by decide))
  have hnone : exactSum? (numbers.map .int) = none :=
    Option.eq_none_iff_forall_ne_some.mpr fun _ hexact =>
      hover ((exactSum?_eq_some_iff hsigned).mp hexact).1
  rw [evaluate_sum h hne, hnone]

/-- **A sum that does not overflow on the way is exact**: of signed words, at least one, with nulls in
between.  The sum is exact just if every beginning of the list sums up to a signed word; otherwise the
words are added as doubles.  It is exact in whatever order the words come just if the positive ones
alone sum up to a signed word, and the negative ones do. -/
theorem sum_of_integers (h : Integers values numbers) (hne : numbers ≠ [])
    (hsigned : ∀ n ∈ numbers, IsSigned n) :
    (Aggregate.sum.evaluate values = .ok (.int numbers.sum) ↔ NeverOverflows 0 numbers) ∧
    (¬ NeverOverflows 0 numbers →
      Aggregate.sum.evaluate values = .ok (.float (floatSum (numbers.map floatOfInt)))) ∧
    ((∀ reordered others, reordered.Perm numbers → Integers others reordered →
        Aggregate.sum.evaluate others = .ok (.int numbers.sum)) ↔
      IsSigned (numbers.filter (0 < ·)).sum ∧ IsSigned (numbers.filter (· < 0)).sum) := by
  have hexact {reordered others} (hperm : reordered.Perm numbers)
      (hothers : Integers others reordered) :
      Aggregate.sum.evaluate others = .ok (.int numbers.sum) ↔ NeverOverflows 0 reordered := by
    rw [← hperm.sum_eq]
    exact evaluate_sum_eq_iff hothers (fun hnil => hne (hnil ▸ hperm).nil_eq.symm) fun n hn =>
      hsigned n (hperm.mem_iff.mp hn)
  refine ⟨hexact (.refl _) h, evaluate_sum_of_overflow h hsigned, ?_⟩
  rw [← neverOverflows_perm_iff]
  constructor
  · exact fun hall reordered hperm => (hexact hperm (integers_map reordered)).mp
      (hall _ _ hperm (integers_map reordered))
  · exact fun hall reordered others hperm hothers => (hexact hperm hothers).mpr (hall _ hperm)

/-- Of the greatest signed word and of what takes away more than is added afterwards. -/
theorem sum_of_integers_alternating :
    let numbers : List ℤ := [2 ^ 63 - 1, -2, 1]
    let values := [.int (2 ^ 63 - 1), .null, .int (-2), .int 1]
    Integers values numbers ∧ numbers ≠ [] ∧ (∀ n ∈ numbers, IsSigned n) ∧
      Aggregate.sum.evaluate values = .ok (.int (2 ^ 63 - 2)) ∧
      ¬ ∀ reordered others, reordered.Perm numbers → Integers others reordered →
        Aggregate.sum.evaluate others = .ok (.int numbers.sum) := by
  intro numbers values
  have h : Integers values numbers := rfl
  have hne : numbers ≠ [] := by decide
  have hsigned : ∀ n ∈ numbers, IsSigned n := by decide
  obtain ⟨hexact, -, hall⟩ := sum_of_integers h hne hsigned
  exact ⟨h, hne, hsigned, hexact.mpr (by decide), fun h => absurd (hall.mp h).1 (by decide)⟩

/-- The order can decide: the whole sum is a signed word, and the sum is exact in one order of the words
and not in the other. -/
theorem sum_depends_on_order :
    let numbers : List ℤ := [2 ^ 63 - 1, 1, -1]
    let reordered : List ℤ := [2 ^ 63 - 1, -1, 1]
    (∀ n ∈ numbers, IsSigned n) ∧ IsSigned numbers.sum ∧ reordered.Perm numbers ∧
      Aggregate.sum.evaluate (numbers.map .int) ≠ .ok (.int numbers.sum) ∧
      Aggregate.sum.evaluate (reordered.map .int) = .ok (.int numbers.sum) := by
  intro numbers reordered
  have hsigned : ∀ n ∈ numbers, IsSigned n := by decide
  have hperm : reordered.Perm numbers := by decide
  refine ⟨hsigned, by decide, hperm, ?_, ?_⟩
  · rw [ne_eq, evaluate_sum_eq_iff (integers_map numbers) (by decide) hsigned]
    decide
  · rw [← hperm.sum_eq, evaluate_sum_eq_iff (integers_map reordered) (by decide) (by decide)]
    decide

end Aggregate

end GraphMapper
