import GraphMapper.Settings.Retry
import Mathlib.Tactic

/-!
The delays between attempts.

* `RetryPolicy.Draws`: the random parts that a delay can get;
* `RetryPolicy.exponential_add_le_iff`: when there is room for a random part, whichever is drawn;
* `RetryPolicy.backoff_eq_some_iff`: the delay that is made, and when there is one;
* `RetryPolicy.backoff_interval`: settings under which every delay can be expressed, and the interval
  in which a delay is.

The part that doubles stops at the longest delay, the sum with the random part does not.
-/

namespace GraphMapper

namespace RetryPolicy

variable {p : RetryPolicy} {s : RetrySettings} {attempt jitter delay : ℕ}

/-! ### Random parts -/

/-- A number of milliseconds that can be drawn: what is left of a random word of 64 bits. -/
def Draws (p : RetryPolicy) (jitter : ℕ) : Prop :=
  ∃ word < 2 ^ 64, jitter = if p.jitterBound = 0 then 0 else word % p.jitterBound

lemma jitterBound_lt (p : RetryPolicy) : p.jitterBound < 2 ^ 64 :=
  Nat.mod_lt _ (by decide)

/-- Every number below the bound can be drawn, and zero if there is none below it. -/
lemma draws_iff : p.Draws jitter ↔ jitter ≤ p.jitterBound - 1 := by
  constructor
  · rintro ⟨word, -, rfl⟩
    split_ifs with h
    · exact Nat.zero_le _
    · have := Nat.mod_lt word (Nat.pos_of_ne_zero h)
      omega
  · intro h
    have hbound := p.jitterBound_lt
    refine ⟨jitter, by omega, ?_⟩
    split_ifs with hnone
    · omega
    · exact (Nat.mod_eq_of_lt (by omega)).symm

/-- The greatest random part. -/
lemma draws_greatest : p.Draws (p.jitterBound - 1) := draws_iff.mpr le_rfl

/-! ### The sum -/

/-- A delay is made when the sum is not too long, and it is the sum. -/
lemma backoff_eq_some_iff : p.backoff? attempt jitter = some delay ↔
    p.exponential attempt + jitter * nanosPerMilli ≤ longestDelay ∧
      delay = p.exponential attempt + jitter * nanosPerMilli := by
  rw [backoff?]
  split_ifs with h
  · simp [h, eq_comm]
  · simp [h]

lemma backoff_isSome_iff : (p.backoff? attempt jitter).isSome ↔
    p.exponential attempt + jitter * nanosPerMilli ≤ longestDelay := by
  simp [Option.isSome_iff_exists, backoff_eq_some_iff]

/-- Every drawn part leaves a delay when the greatest one does. -/
lemma backoff_isSome_of_greatest :
    (∀ jitter, p.Draws jitter → (p.backoff? attempt jitter).isSome) ↔
      p.exponential attempt + (p.jitterBound - 1) * nanosPerMilli ≤ longestDelay := by
  simp only [backoff_isSome_iff]
  constructor
  · exact fun h => h _ draws_greatest
  · intro h jitter hdraws
    have := Nat.mul_le_mul_right nanosPerMilli (draws_iff.mp hdraws)
    omega

/-! ### Policies of settings -/

/-- How often the first delay has doubled after an attempt. -/
def doublings (attempt : ℕ) : ℕ :=
  min (attempt - 1) greatestExponent

lemma exponential_ofSettings (s : RetrySettings) (attempt : ℕ) :
    (ofSettings s).exponential attempt =
      min (s.delay * 2 ^ doublings attempt * nanosPerMilli) longestDelay := by
  rw [Nat.mul_right_comm]
  rfl

lemma jitterBound_ofSettings (hdelay : s.delay < 2 ^ 64) :
    (ofSettings s).jitterBound = s.delay := by
  have hdiv : s.delay * nanosPerMilli / nanosPerMilli = s.delay :=
    Nat.mul_div_cancel _ (by decide)
  calc (ofSettings s).jitterBound = s.delay * nanosPerMilli / nanosPerMilli % 2 ^ 64 := rfl
    _ = s.delay := by rw [hdiv, Nat.mod_eq_of_lt hdelay]

/-- There is room for the greatest random part when the first delay, doubled and added once more, keeps
within the longest. -/
lemma exponential_add_le_iff (hdelay : s.delay < 2 ^ 64) (attempt : ℕ) :
    (ofSettings s).exponential attempt + (s.delay - 1) * nanosPerMilli ≤ longestDelay ↔
      s.delay * (2 ^ doublings attempt + 1) ≤ 2 ^ 64 * 1000 := by
  have hlongest : longestDelay = 2 ^ 64 * 1000 * 1000000 - 1 := rfl
  have hmilli : nanosPerMilli = 1000000 := rfl
  have hgrown : s.delay ≤ s.delay * 2 ^ doublings attempt :=
    Nat.le_mul_of_pos_right _ (Nat.two_pow_pos _)
  have hzero : s.delay = 0 → s.delay * 2 ^ doublings attempt = 0 := fun h => by rw [h, zero_mul]
  have hone : s.delay = 1 → s.delay * 2 ^ doublings attempt ≤ 2 ^ 16 := fun h => by
    rw [h, one_mul]
    exact Nat.pow_le_pow_right (by decide) (min_le_right _ _)
  rw [exponential_ofSettings, mul_add, mul_one, hlongest, hmilli]
  generalize s.delay * 2 ^ doublings attempt = grown at *
  omega

/-- A delay is at least the part that doubles, and less than the first delay more. -/
lemma backoff_mem (hdelay : s.delay < 2 ^ 64) (hdraws : (ofSettings s).Draws jitter)
    (hbackoff : (ofSettings s).backoff? attempt jitter = some delay) :
    (ofSettings s).exponential attempt ≤ delay ∧
      (0 < s.delay → delay < (ofSettings s).exponential attempt + (ofSettings s).baseDelay) ∧
        (s.delay = 0 → (ofSettings s).exponential attempt = 0 ∧ delay = 0) := by
  obtain ⟨-, rfl⟩ := backoff_eq_some_iff.mp hbackoff
  rw [draws_iff, jitterBound_ofSettings hdelay] at hdraws
  refine ⟨Nat.le_add_right _ _, fun hpos => ?_, fun hnone => ?_⟩
  · have hless : jitter * nanosPerMilli < s.delay * nanosPerMilli :=
      Nat.mul_lt_mul_of_pos_right (by omega) (by decide)
    exact Nat.add_lt_add_left hless _
  · obtain rfl : jitter = 0 := by omega
    have hzero : (ofSettings s).exponential attempt = 0 := by
      rw [exponential_ofSettings, hnone, zero_mul, zero_mul]
      exact Nat.zero_min _
    rw [hzero]
    exact ⟨rfl, rfl⟩

/-- **Delays that can be expressed**: of the settings of a connection, whose first delay `s.delay` is a
word of milliseconds, and after any attempt.  There is a delay for every random part that can be drawn
exactly when `s.delay * (2 ^ n + 1)` milliseconds are, where `n` counts the doublings: so for every
first delay up to the tenth attempt, and after any attempt for one below `2 ^ 64 * 1000 / (2 ^ 16 + 1)`
milliseconds.  A delay there is lies between the part that doubles and the first delay more, and is
zero for no first delay. -/
theorem backoff_interval (s : RetrySettings) (attempt : ℕ) (hdelay : s.delay < 2 ^ 64) :
    ((∀ jitter, (ofSettings s).Draws jitter →
        ((ofSettings s).backoff? attempt jitter).isSome) ↔
      s.delay * (2 ^ doublings attempt + 1) ≤ 2 ^ 64 * 1000) ∧
    (attempt ≤ 10 ∨ s.delay * (2 ^ greatestExponent + 1) ≤ 2 ^ 64 * 1000 →
      ∀ jitter, (ofSettings s).Draws jitter →
        ((ofSettings s).backoff? attempt jitter).isSome) ∧
    ∀ jitter delay, (ofSettings s).Draws jitter →
      (ofSettings s).backoff? attempt jitter = some delay →
        (ofSettings s).exponential attempt ≤ delay ∧
          (0 < s.delay → delay < (ofSettings s).exponential attempt + (ofSettings s).baseDelay) ∧
            (s.delay = 0 → (ofSettings s).exponential attempt = 0 ∧ delay = 0) := by
  have hfits : (∀ jitter, (ofSettings s).Draws jitter →
      ((ofSettings s).backoff? attempt jitter).isSome) ↔
        s.delay * (2 ^ doublings attempt + 1) ≤ 2 ^ 64 * 1000 := by
    rw [backoff_isSome_of_greatest, jitterBound_ofSettings hdelay]
    exact exponential_add_le_iff hdelay attempt
  refine ⟨hfits, fun hsmall => hfits.mpr ?_, fun _ _ => backoff_mem hdelay⟩
  obtain hfew | hshort := hsmall
  · have hpow : 2 ^ doublings attempt ≤ 2 ^ 9 :=
      Nat.pow_le_pow_right (by decide) ((min_le_left _ _).trans (by omega))
    calc s.delay * (2 ^ doublings attempt + 1) ≤ 2 ^ 64 * (2 ^ 9 + 1) :=
          Nat.mul_le_mul hdelay.le (Nat.add_le_add_right hpow 1)
      _ ≤ 2 ^ 64 * 1000 := by decide
  · have hpow : 2 ^ doublings attempt ≤ 2 ^ greatestExponent :=
      Nat.pow_le_pow_right (by decide) (min_le_right _ _)
    exact (Nat.mul_le_mul_left _ (Nat.add_le_add_right hpow 1)).trans hshort

/-- Of the settings a connection has if none are given. -/
theorem backoff_interval_default :
    100 < 2 ^ 64 ∧ ((ofSettings {}).backoff? 3 99).isSome ∧
      (ofSettings {}).exponential 3 = 400 * nanosPerMilli ∧
        ∀ delay, (ofSettings {}).backoff? 3 99 = some delay →
          400 * nanosPerMilli ≤ delay ∧ delay < 500 * nanosPerMilli := by
  have hdelay : ({} : RetrySettings).delay < 2 ^ 64 := by decide
  have hdraws : (ofSettings {}).Draws 99 := ⟨99, by decide, by decide⟩
  obtain ⟨-, hsome, hinterval⟩ := backoff_interval {} 3 hdelay
  refine ⟨hdelay, hsome (.inl (by decide)) 99 hdraws, by decide, fun delay h => ?_⟩
  obtain ⟨hleast, hgreatest, -⟩ := hinterval 99 delay hdraws h
  exact ⟨hleast, hgreatest (by decide)⟩

/-- The random part can be too much: the first delay is the longest word of milliseconds and the part
that doubles has stopped after the eleventh attempt, so a single millisecond more is too long. -/
theorem backoff_overflows : ¬ ∀ (s : RetrySettings) (attempt jitter : ℕ), s.delay < 2 ^ 64 →
    (ofSettings s).Draws jitter → ((ofSettings s).backoff? attempt jitter).isSome := by
  intro h
  have hsome := h { delay := 2 ^ 64 - 1 } 11 1 (by decide) ⟨1, by decide, by decide⟩
  revert hsome
  decide

end RetryPolicy

end GraphMapper
