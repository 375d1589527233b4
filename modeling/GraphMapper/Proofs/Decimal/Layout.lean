import GraphMapper.Decimal.Layout
import GraphMapper.Proofs.Decimal.Shortest

/-!
The text of a double tells which double it is.

* `Numeral`, `Numeral.text_injOn`: decimal texts, and that a text has one reading;
* `Digits.WellFormed.exists_numeral_positional`, `Digits.WellFormed.exists_numeral_scientific`: both
  ways to write digits give such texts, which stand for the number of the digits;
* `Layout.exists_numeral_write`: so does the text of a double; `Layout.mem_write`,
  `Layout.exists_mark_write`: its characters;
* `Layout.write_injOn` (**no two finite doubles have one text**).
-/

namespace GraphMapper.Decimal

/-- Two texts of characters of one kind, each up to the first character of another kind, are equal. -/
lemma append_inj_of_all {p : Char → Bool} {a b s t : List Char} (ha : ∀ c ∈ a, p c)
    (hb : ∀ c ∈ b, p c) (hs : ∀ c ∈ s.head?, ¬ p c) (ht : ∀ c ∈ t.head?, ¬ p c)
    (h : a ++ s = b ++ t) : a = b ∧ s = t := by
  induction a generalizing b with
  | nil =>
      cases b with
      | nil => exact ⟨rfl, h⟩
      | cons c b => exact absurd (hb c List.mem_cons_self) (hs c (congrArg List.head? h))
  | cons c a ih =>
      cases b with
      | nil => exact absurd (ha c List.mem_cons_self) (ht c (congrArg List.head? h.symm))
      | cons d b =>
          obtain ⟨rfl, htail⟩ := List.cons.inj h
          obtain ⟨rfl, rfl⟩ :=
            ih (List.forall_mem_cons.mp ha).2 (List.forall_mem_cons.mp hb).2 htail
          exact ⟨rfl, rfl⟩

lemma toDigits_injective : Function.Injective (Nat.toDigits 10) := fun m n h => by
  rw [← @Nat.ofDigitChars_ten_toDigits m, h, Nat.ofDigitChars_ten_toDigits]

/-! ### Decimal texts -/

/-- What a decimal text is made of: digits, perhaps a point with further digits, perhaps a power of
ten. -/
@[ext]
structure Numeral where
  whole : List Char
  fraction : Option (List Char)
  exponent : Option ℤ

namespace Numeral

/-- A point with the digits after it. -/
def fractionText : Option (List Char) → List Char
  | none => []
  | some digits => '.' :: digits

/-- A power of ten with its sign. -/
def exponentText : Option ℤ → List Char
  | none => []
  | some e => 'e' :: (if e < 0 then '-' else '+') :: Nat.toDigits 10 e.natAbs

def text (n : Numeral) : List Char :=
  n.whole ++ (fractionText n.fraction ++ exponentText n.exponent)

/-- The number that a decimal text stands for. -/
def value (n : Numeral) : ℚ :=
  Nat.ofDigitChars 10 (n.whole ++ n.fraction.getD []) 0 *
    10 ^ (n.exponent.getD 0 - (n.fraction.getD []).length)

structure WellFormed (n : Numeral) : Prop where
  ne_nil : n.whole ≠ []
  whole : ∀ c ∈ n.whole, c.isDigit
  fraction : ∀ c ∈ n.fraction.getD [], c.isDigit

lemma exponentText_injective : Function.Injective exponentText := by
  rintro (_ | e) (_ | e') h
  · rfl
  · simp [exponentText] at h
  · simp [exponentText] at h
  · simp only [exponentText, List.cons.injEq, true_and] at h
    have habs := toDigits_injective h.2
    have hsign : e < 0 ↔ e' < 0 := by
      have := h.1
      split_ifs at this with he he' he'
      · exact iff_of_true he he'
      · exact absurd this (by decide)
      · exact absurd this (by decide)
      · exact iff_of_false he he'
    exact congrArg some (by omega)

lemma head?_exponentText {exponent : Option ℤ} {c : Char}
    (h : c ∈ (exponentText exponent).head?) : c = 'e' := by
  cases exponent with
  | none => cases h
  | some e => exact (Option.some.inj h).symm

lemma not_isDigit_head?_exponentText (exponent : Option ℤ) :
    ∀ c ∈ (exponentText exponent).head?, ¬ c.isDigit := by
  intro c hc
  rw [head?_exponentText hc]
  decide

/-- The digits end where the point, or else the power of ten, begins. -/
lemma not_isDigit_head? (fraction : Option (List Char)) (exponent : Option ℤ) :
    ∀ c ∈ (fractionText fraction ++ exponentText exponent).head?, ¬ c.isDigit := by
  cases fraction with
  | none => exact not_isDigit_head?_exponentText exponent
  | some digits =>
      rintro c ⟨⟩
      decide

lemma eq_of_fractionText {f f' : Option (List Char)} {e e' : Option ℤ}
    (hf : ∀ c ∈ f.getD [], c.isDigit) (hf' : ∀ c ∈ f'.getD [], c.isDigit)
    (h : fractionText f ++ exponentText e = fractionText f' ++ exponentText e') :
    f = f' ∧ e = e' := by
  match f, f' with
  | none, none => exact ⟨rfl, exponentText_injective h⟩
  | some digits, none =>
      have hpoint : '.' ∈ (exponentText e').head? := congrArg List.head? h.symm
      exact absurd (head?_exponentText hpoint) (by decide)
  | none, some digits =>
      have hpoint : '.' ∈ (exponentText e).head? := congrArg List.head? h
      exact absurd (head?_exponentText hpoint) (by decide)
  | some digits, some digits' =>
      obtain ⟨hdigits, hrest⟩ := append_inj_of_all hf hf' (not_isDigit_head?_exponentText e)
        (not_isDigit_head?_exponentText e') (List.cons.inj h).2
      exact ⟨congrArg some hdigits, exponentText_injective hrest⟩

/-- A decimal text begins with a digit. -/
lemma WellFormed.exists_cons {n : Numeral} (h : n.WellFormed) :
    ∃ c rest, n.text = c :: rest ∧ c.isDigit := by
  obtain ⟨c, rest, hwhole⟩ := List.exists_cons_of_ne_nil h.ne_nil
  exact ⟨c, rest ++ _, by rw [text, hwhole, List.cons_append],
    h.whole c (hwhole ▸ List.mem_cons_self)⟩

/-- The characters of decimal texts. -/
lemma WellFormed.mem_text {n : Numeral} (h : n.WellFormed) {c : Char} (hc : c ∈ n.text) :
    c.isDigit ∨ c ∈ ['.', 'e', '-', '+'] := by
  rcases List.mem_append.mp hc with hc | hc
  · exact .inl (h.whole c hc)
  rcases List.mem_append.mp hc with hc | hc
  · cases hfraction : n.fraction with
    | none => simp [hfraction, fractionText] at hc
    | some digits =>
        rw [hfraction, fractionText, List.mem_cons] at hc
        rcases hc with rfl | hc
        · exact .inr (by decide)
        · exact .inl (h.fraction c (by rwa [hfraction]))
  · cases hexponent : n.exponent with
    | none => simp [hexponent, exponentText] at hc
    | some e =>
        rw [hexponent, exponentText, List.mem_cons, List.mem_cons] at hc
        rcases hc with rfl | hsign | hc
        · exact .inr (by decide)
        · right
          rw [hsign]
          split_ifs <;> decide
        · exact .inl (Nat.isDigit_of_mem_toDigits (by decide) (by decide) hc)

/-- A point or a power of ten shows in a decimal text. -/
lemma exists_mark {n : Numeral} (h : n.fraction.isSome ∨ n.exponent.isSome) :
    '.' ∈ n.text ∨ 'e' ∈ n.text := by
  rcases h with h | h
  · obtain ⟨digits, hfraction⟩ := Option.isSome_iff_exists.mp h
    exact .inl (by simp [text, hfraction, fractionText])
  · obtain ⟨e, hexponent⟩ := Option.isSome_iff_exists.mp h
    exact .inr (by simp [text, hexponent, exponentText])

/-- A minus before a decimal text is told apart from the text. -/
lemma WellFormed.signed_inj {n n' : Numeral} (h : n.WellFormed) (h' : n'.WellFormed)
    {negative negative' : Bool}
    (hsame : (if negative then '-' :: n.text else n.text) =
      if negative' then '-' :: n'.text else n'.text) :
    negative = negative' ∧ n.text = n'.text := by
  obtain ⟨c, rest, htext, hc⟩ := h.exists_cons
  obtain ⟨c', rest', htext', hc'⟩ := h'.exists_cons
  cases negative with
  | false =>
      cases negative' with
      | false => exact ⟨rfl, hsame⟩
      | true =>
          obtain rfl : c = '-' := (List.cons.inj (htext.symm.trans hsame)).1
          exact absurd hc (by decide)
  | true =>
      cases negative' with
      | false =>
          obtain rfl : c' = '-' := (List.cons.inj (htext'.symm.trans hsame.symm)).1
          exact absurd hc' (by decide)
      | true => exact ⟨rfl, (List.cons.inj hsame).2⟩

/-- A decimal text has one reading. -/
theorem text_injOn : Set.InjOn text {n | n.WellFormed} := by
  intro n hn n' hn' h
  obtain ⟨hwhole, hrest⟩ := append_inj_of_all hn.whole hn'.whole (not_isDigit_head? _ _)
    (not_isDigit_head? _ _) h
  obtain ⟨hfraction, hexponent⟩ := eq_of_fractionText hn.fraction hn'.fraction hrest
  exact Numeral.ext hwhole hfraction hexponent

end Numeral

/-! ### Texts of digits -/

namespace Digits.WellFormed

variable {d : Digits}

/-- Digits before the point, with zeros up to it. -/
lemma exists_numeral_whole (h : d.WellFormed) (hpower : 0 ≤ d.power) (wholeFraction : Bool) :
    ∃ n : Numeral, n.WellFormed ∧ n.value = d.value ∧
      d.digits ++ List.replicate d.power.toNat '0' ++ (if wholeFraction then ['.', '0'] else []) =
        n.text ∧
      (wholeFraction → n.fraction.isSome) := by
  have hne : d.digits ++ List.replicate d.power.toNat '0' ≠ [] := by simp [h.ne_nil]
  have hdigits : ∀ c ∈ d.digits ++ List.replicate d.power.toNat '0', c.isDigit := by
    intro c hc
    rcases List.mem_append.mp hc with hc | hc
    · exact h.isDigit c hc
    · rw [List.eq_of_mem_replicate hc]
      decide
  have hvalue : (Nat.ofDigitChars 10 (d.digits ++ List.replicate d.power.toNat '0') 0 : ℚ) =
      d.value := by
    rw [Nat.ofDigitChars_append, Nat.ofDigitChars_replicate_zero, value]
    conv_rhs => rw [← Int.toNat_of_nonneg hpower, zpow_natCast]
    push_cast
    ring
  cases wholeFraction
  · refine ⟨⟨_, none, none⟩, ⟨hne, hdigits, by simp⟩, ?_, rfl, by simp⟩
    simp [Numeral.value, hvalue]
  · refine ⟨⟨_, some ['0'], none⟩, ⟨hne, hdigits, by simp⟩, ?_, rfl, fun _ => rfl⟩
    rw [Numeral.value, Option.getD_some, Nat.ofDigitChars_append,
      show ['0'] = List.replicate 1 '0' from rfl, Nat.ofDigitChars_replicate_zero]
    push_cast
    rw [hvalue]
    simp only [Option.getD_none, List.length_singleton, zero_sub, Nat.cast_one, zpow_neg_one]
    ring

/-- Digits around the point. -/
lemma exists_numeral_around (h : d.WellFormed) (hpower : d.power < 0)
    (hwhole : 0 < (d.digits.length : ℤ) + d.power) :
    ∃ n : Numeral, n.WellFormed ∧ n.value = d.value ∧
      d.digits.take (d.digits.length + d.power).toNat ++
        '.' :: d.digits.drop (d.digits.length + d.power).toNat = n.text ∧
      n.fraction.isSome := by
  refine ⟨⟨d.digits.take (d.digits.length + d.power).toNat,
    some (d.digits.drop (d.digits.length + d.power).toNat), none⟩,
    ⟨?_, fun c hc => h.isDigit c (List.mem_of_mem_take hc),
      fun c hc => h.isDigit c (List.mem_of_mem_drop hc)⟩, ?_, ?_, rfl⟩
  · rw [Ne, List.take_eq_nil_iff]
    exact not_or_intro (by omega) h.ne_nil
  · rw [Numeral.value, Option.getD_some, List.take_append_drop, List.length_drop, value,
      Option.getD_none]
    congr 2
    omega
  · simp [Numeral.text, Numeral.fractionText, Numeral.exponentText]

/-- Digits after the point, with zeros from it. -/
lemma exists_numeral_fraction (h : d.WellFormed)
    (hwhole : (d.digits.length : ℤ) + d.power ≤ 0) :
    ∃ n : Numeral, n.WellFormed ∧ n.value = d.value ∧
      '0' :: '.' :: List.replicate (-(d.digits.length + d.power)).toNat '0' ++ d.digits =
        n.text ∧
      n.fraction.isSome := by
  refine ⟨⟨['0'], some (List.replicate (-(d.digits.length + d.power)).toNat '0' ++ d.digits),
    none⟩, ⟨by simp, by simp, ?_⟩, ?_, ?_, rfl⟩
  · intro c hc
    rcases List.mem_append.mp hc with hc | hc
    · rw [List.eq_of_mem_replicate hc]
      decide
    · exact h.isDigit c hc
  · rw [Numeral.value, Option.getD_some, Nat.ofDigitChars_append, Nat.ofDigitChars_append,
      show ['0'] = List.replicate 1 '0' from rfl, Nat.ofDigitChars_replicate_zero,
      Nat.ofDigitChars_replicate_zero, List.length_append, List.length_replicate, value,
      Option.getD_none, Nat.mul_zero]
    congr 2
    omega
  · simp [Numeral.text, Numeral.fractionText, Numeral.exponentText]

/-- Digits with the point at its place are a decimal text of their number. -/
lemma exists_numeral_positional (h : d.WellFormed) (layout : Layout) :
    ∃ n : Numeral, n.WellFormed ∧ n.value = d.value ∧ layout.positional d = n.text ∧
      (layout.wholeFraction → n.fraction.isSome) := by
  rw [Layout.positional]
  by_cases hwhole : 0 ≤ d.power
  · rw [if_pos hwhole]
    exact h.exists_numeral_whole hwhole layout.wholeFraction
  · rw [if_neg hwhole]
    by_cases hpoint : 0 < (d.digits.length : ℤ) + d.power
    · obtain ⟨n, hn, hvalue, htext, hfraction⟩ := h.exists_numeral_around (not_le.mp hwhole) hpoint
      exact ⟨n, hn, hvalue, (if_pos hpoint).trans htext, fun _ => hfraction⟩
    · obtain ⟨n, hn, hvalue, htext, hfraction⟩ := h.exists_numeral_fraction (not_lt.mp hpoint)
      exact ⟨n, hn, hvalue, (if_neg hpoint).trans htext, fun _ => hfraction⟩

/-- Digits with a power of ten behind are one too. -/
lemma exists_numeral_scientific (h : d.WellFormed) :
    ∃ n : Numeral, n.WellFormed ∧ n.value = d.value ∧
      scientific d (d.digits.length + d.power - 1) = n.text ∧ n.exponent.isSome := by
  obtain ⟨digits, power⟩ := d
  match digits, h with
  | [], h => exact absurd rfl h.ne_nil
  | [only], h =>
    refine ⟨⟨[only], none, some _⟩, ⟨by simp, h.isDigit, by simp⟩, ?_, rfl, rfl⟩
    simp [Numeral.value, value]
  | first :: second :: rest, h =>
    obtain ⟨hfirst, hrest⟩ := List.forall_mem_cons.mp h.isDigit
    refine ⟨⟨[first], some (second :: rest), some _⟩, ⟨by simp, by simpa using hfirst, hrest⟩, ?_,
      rfl, rfl⟩
    rw [Numeral.value, value]
    congr 2
    simp only [Option.getD_some, List.length_cons]
    omega

end Digits.WellFormed

/-! ### Texts of doubles -/

/-- A decimal text of a number that rounds to a given one. -/
structure Numeral.RoundsTo (n : Numeral) (m : ℕ) (q : ℤ) : Prop where
  wellFormed : n.WellFormed
  value : if m = 0 then n.value = 0 else (Interval.around m q).Contains n.value

/-- No decimal text rounds to two numbers. -/
lemma Numeral.RoundsTo.unique {n : Numeral} {m m' : ℕ} {q q' : ℤ} (h : n.RoundsTo m q)
    (h' : n.RoundsTo m' q') (hm : Canonical m q) (hm' : Canonical m' q') : m = m' ∧ q = q' := by
  have hvalue := h.value
  have hvalue' := h'.value
  split_ifs at hvalue hvalue' with hzero hzero' hzero'
  · obtain rfl : m = m' := hzero.trans hzero'.symm
    rcases hm.full with hfull | hq
    · omega
    · rcases hm'.full with hfull | hq'
      · omega
      · exact ⟨rfl, hq.trans hq'.symm⟩
  · rw [hvalue] at hvalue'
    exact absurd hvalue' (Interval.not_contains_zero (Nat.pos_of_ne_zero hzero'))
  · rw [hvalue'] at hvalue
    exact absurd hvalue (Interval.not_contains_zero (Nat.pos_of_ne_zero hzero))
  · exact Interval.eq_of_contains hm hm' hvalue hvalue'

namespace Layout

variable {layout : Layout} {m : ℕ} {q : ℤ} {x : Float}

lemma exists_numeral_magnitude (h : Canonical m q) (layout : Layout) :
    ∃ n : Numeral, n.RoundsTo m q ∧ layout.magnitude m q = n.text ∧
      (layout.wholeFraction → n.fraction.isSome ∨ n.exponent.isSome) := by
  rw [magnitude]
  by_cases hzero : m = 0
  · have hdigits : (⟨['0'], 0⟩ : Digits).WellFormed := ⟨by simp, by simp⟩
    obtain ⟨n, hn, hvalue, htext, hfraction⟩ :=
      hdigits.exists_numeral_whole le_rfl layout.wholeFraction
    have hvalue' : n.value = 0 := by rw [hvalue]; simp [Digits.value, Nat.ofDigitChars]
    exact ⟨n, ⟨hn, by rwa [if_pos hzero]⟩, (if_pos hzero).trans htext, fun h => .inl (hfraction h)⟩
  · obtain ⟨hdigits, hcontains⟩ := shortest_spec h (Nat.pos_of_ne_zero hzero) layout.tie
    rw [if_neg hzero]
    dsimp only
    split_ifs
    · obtain ⟨n, hn, hvalue, htext, hfraction⟩ := hdigits.exists_numeral_positional layout
      exact ⟨n, ⟨hn, by rwa [if_neg hzero, hvalue]⟩, htext, fun h => .inl (hfraction h)⟩
    · obtain ⟨n, hn, hvalue, htext, hexponent⟩ := hdigits.exists_numeral_scientific
      exact ⟨n, ⟨hn, by rwa [if_neg hzero, hvalue]⟩, htext, fun _ => .inr hexponent⟩

/-- The text of a finite double is a decimal text, with a minus before it for a negative one. -/
theorem exists_numeral_write (h : x.isFinite) (layout : Layout) :
    ∃ negative m q, ∃ n : Numeral, Binary.ofFloat x = .finite negative m q ∧ Canonical m q ∧
      n.RoundsTo m q ∧ layout.write x = (if negative then '-' :: n.text else n.text) ∧
      (layout.wholeFraction → n.fraction.isSome ∨ n.exponent.isSome) := by
  obtain ⟨negative, m, q, hx, hm⟩ := Binary.ofFloat_of_isFinite h
  obtain ⟨n, hn, htext, hmark⟩ := exists_numeral_magnitude hm layout
  refine ⟨negative, m, q, n, hx, hm, hn, ?_, hmark⟩
  rw [write, hx]
  dsimp only
  rw [htext]

/-- The characters of texts of finite doubles. -/
lemma mem_write (h : x.isFinite) {c : Char} (hc : c ∈ layout.write x) :
    c.isDigit ∨ c ∈ ['.', 'e', '-', '+'] := by
  obtain ⟨negative, m, q, n, -, -, hn, htext, -⟩ := exists_numeral_write h layout
  rw [htext] at hc
  cases negative with
  | false => exact hn.wellFormed.mem_text hc
  | true =>
      rcases List.mem_cons.mp hc with rfl | hc
      · exact .inr (by decide)
      · exact hn.wellFormed.mem_text hc

/-- Where whole numbers keep a digit after the point, the text of a finite double is no integer's. -/
lemma exists_mark_write (h : x.isFinite) (hlayout : layout.wholeFraction) :
    '.' ∈ layout.write x ∨ 'e' ∈ layout.write x := by
  obtain ⟨negative, m, q, n, -, -, -, htext, hmark⟩ := exists_numeral_write h layout
  have hsub : ∀ c ∈ n.text, c ∈ layout.write x := fun c hc => by
    rw [htext]
    split_ifs
    · exact List.mem_cons_of_mem _ hc
    · exact hc
  exact (Numeral.exists_mark (hmark hlayout)).imp (hsub _) (hsub _)

/-- **No two finite doubles have one text.** -/
theorem write_injOn (layout : Layout) : Set.InjOn layout.write {x | x.isFinite} := by
  intro x hx y hy h
  obtain ⟨negative, m, q, n, hofx, hm, hn, htext, -⟩ := exists_numeral_write hx layout
  obtain ⟨negative', m', q', n', hofy, hm', hn', htext', -⟩ := exists_numeral_write hy layout
  rw [htext, htext'] at h
  obtain ⟨rfl, hsame⟩ := hn.wellFormed.signed_inj hn'.wellFormed h
  obtain rfl := Numeral.text_injOn hn.wellFormed hn'.wellFormed hsame
  obtain ⟨rfl, rfl⟩ := hn.unique hn' hm hm'
  exact Binary.ofFloat_injOn hx hy (hofx.trans hofy.symm)

end Layout

end GraphMapper.Decimal
