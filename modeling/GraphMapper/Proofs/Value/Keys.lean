import Mathlib.Data.Set.Function
import GraphMapper.Proofs.Value.Fields
import GraphMapper.Value.Key

/-!
Keys, and lists of them without repetitions.

* `Value.keyText_injOn`: texts and integers are told apart by their key texts;
* `Value.keyTexts`: the texts of keys, by which alone they are compared;
* `Value.Firsts`: of each text that is to be kept the value with it that is met first, in the order in
  which they are met; `Value.distinct_firsts`, `Value.Firsts.filter`: a list without repetitions, and
  without some of its keys;
* `Value.exists_mem_distinctFrom`: of the values with one key text one is kept;
* `Value.mem_distinctKeys`: keys that their texts tell apart are all kept, but for null;
* `Value.distinct_nodup`, `Value.distinct_eq_eraseDups`, `Value.mem_distinct`, `Value.isKeyOf_iff`: each
  key once, where it is met first, and membership.
-/

namespace GraphMapper.Value

/-! ### Texts of keys -/

lemma toString_ne_minus (m : ℕ) (s : String) : toString m ≠ "-" ++ s := by
  intro h
  have hmem : '-' ∈ (toString m).toList := by rw [h]; simp
  rw [Nat.toString_eq_ofList_toDigits, String.toList_ofList] at hmem
  exact absurd (Nat.isDigit_of_mem_toDigits (by decide) (by decide) hmem) (by decide)

lemma toString_int_injective : Function.Injective (toString : ℤ → String) := by
  intro m n h
  cases m with
  | ofNat m =>
      cases n with
      | ofNat n => exact congrArg Int.ofNat (toString_injective h)
      | negSucc n => exact absurd h (toString_ne_minus m _)
  | negSucc m =>
      cases n with
      | ofNat n => exact absurd h.symm (toString_ne_minus n _)
      | negSucc n =>
          have hdigits := toString_injective (append_injective "-" h)
          exact congrArg Int.negSucc (Nat.succ.inj hdigits)

/-- Texts and integers are told apart by their key texts. -/
theorem keyText_injOn : Set.InjOn keyText {v | (∃ s, v = .string s) ∨ ∃ n, v = .int n} := by
  rintro v (⟨s, rfl⟩ | ⟨m, rfl⟩) w (⟨t, rfl⟩ | ⟨n, rfl⟩) h
  · exact congrArg Value.string (append_injective "s:" h)
  · have hchars := congrArg String.toList h
    simp [keyText, Value.int] at hchars
  · have hchars := congrArg String.toList h
    simp [keyText, Value.int] at hchars
  · have hjson : (Value.int m).json = (Value.int n).json := append_injective "v:" h
    rw [json, json, String.ofList_inj] at hjson
    exact congrArg Value.int (toString_int_injective (String.toList_inj.mp hjson))

/-! ### Sets of texts -/

section

variable {values others kept : List Value} {keep wanted : Set String} {v w : Value}

/-- The texts of keys. -/
def keyTexts (values : List Value) : Set String :=
  keyText '' {v | v ∈ values}

lemma keyText_mem (hv : v ∈ values) : v.keyText ∈ keyTexts values :=
  ⟨v, hv, rfl⟩

lemma keyTexts_cons : keyTexts (v :: values) = {v.keyText} ∪ keyTexts values := by
  rw [keyTexts, keyTexts, ← Set.image_singleton, ← Set.image_union]
  exact congrArg (keyText '' ·) (Set.ext fun w => List.mem_cons)

lemma keyTexts_append : keyTexts (values ++ others) = keyTexts values ∪ keyTexts others := by
  rw [keyTexts, keyTexts, keyTexts, ← Set.image_union]
  exact congrArg (keyText '' ·) (Set.ext fun w => List.mem_append)

/-- Lists without a text in common. -/
lemma nodup_append (hvalues : (values.map keyText).Nodup) (hothers : (others.map keyText).Nodup)
    (h : ∀ text ∈ keyTexts values, text ∉ keyTexts others) :
    ((values ++ others).map keyText).Nodup := by
  rw [List.map_append]
  refine hvalues.append hothers fun text hleft hright => ?_
  obtain ⟨v, hv, rfl⟩ := List.mem_map.mp hleft
  obtain ⟨w, hw, hsame⟩ := List.mem_map.mp hright
  exact h _ (keyText_mem hv) (hsame ▸ keyText_mem hw)

lemma eq_nil_of_keyTexts (h : keyTexts values = ∅) : values = [] :=
  List.eq_nil_iff_forall_not_mem.mpr fun _ hv => h.subset (keyText_mem hv)

lemma isKeyOf_iff_mem_keyTexts : isKeyOf values v = true ↔ v.keyText ∈ keyTexts values := by
  rw [isKeyOf, List.any_eq_true]
  exact exists_congr fun _ => and_congr_right fun _ => decide_eq_true_iff

/-! ### First occurrences -/

/-- Whether a value has the text of a key. -/
def sameText (key v : Value) : Bool :=
  v.keyText = key.keyText

lemma sameText_self (v : Value) : sameText v v = true :=
  decide_eq_true rfl

/-- Of each text that is to be kept, the value with it that is met first, in the order in which they are
met. -/
structure Firsts (values : List Value) (keep : Set String) (kept : List Value) : Prop where
  texts : keyTexts kept = keyTexts values ∩ keep
  first : ∀ v ∈ kept, values.find? (sameText v) = some v
  ordered : kept.Pairwise fun v w => values.findIdx (sameText v) < values.findIdx (sameText w)

/-- No text is kept twice. -/
lemma Firsts.nodup (h : Firsts values keep kept) : (kept.map keyText).Nodup := by
  refine List.pairwise_map.mpr (h.ordered.imp fun {v w} hlt hsame => hlt.ne ?_)
  rw [show sameText v = sameText w from funext fun u => by rw [sameText, hsame, sameText]]

section

variable {u : Value} (h : Firsts values keep kept)

include h

lemma Firsts.keyText_mem (hv : v ∈ kept) : v.keyText ∈ keep :=
  (h.texts.subset (Value.keyText_mem hv)).2

/-- Some of the values that are kept. -/
lemma Firsts.filter {p : Value → Bool} (hp : ∀ v, p v = true ↔ v.keyText ∈ wanted) :
    Firsts values (keep ∩ wanted) (kept.filter p) where
  texts := by
    rw [← Set.inter_assoc, ← h.texts]
    ext text
    constructor
    · rintro ⟨v, hv, rfl⟩
      obtain ⟨hkept, hpv⟩ := List.mem_filter.mp hv
      exact ⟨Value.keyText_mem hkept, (hp v).mp hpv⟩
    · rintro ⟨⟨v, hv, rfl⟩, hwanted⟩
      exact Value.keyText_mem (List.mem_filter.mpr ⟨hv, (hp v).mpr hwanted⟩)
  first v hv := h.first v (List.mem_filter.mp hv).1
  ordered := h.ordered.filter p

variable (hu : u.keyText ∉ keep)

include hu

lemma Firsts.sameText_eq_false (hv : v ∈ kept) : sameText v u = false :=
  decide_eq_false fun hsame => hu (hsame ▸ h.keyText_mem hv)

lemma Firsts.ordered_cons :
    kept.Pairwise fun v w => (u :: values).findIdx (sameText v) < (u :: values).findIdx (sameText w) := by
  refine h.ordered.imp_of_mem fun {v w} hv hw hlt => ?_
  rw [List.findIdx_cons, List.findIdx_cons, h.sameText_eq_false hu hv, h.sameText_eq_false hu hw]
  exact Nat.succ_lt_succ hlt

lemma Firsts.first_cons : ∀ v ∈ kept, (u :: values).find? (sameText v) = some v := by
  intro v hv
  rw [List.find?_cons, h.sameText_eq_false hu hv]
  exact h.first v hv

/-- A value in front whose text is not to be kept. -/
lemma Firsts.skip : Firsts (u :: values) keep kept where
  texts := by
    rw [h.texts, keyTexts_cons, Set.union_inter_distrib_right, Set.singleton_inter_eq_empty.mpr hu,
      Set.empty_union]
  first := h.first_cons hu
  ordered := h.ordered_cons hu

/-- A value in front whose text is to be kept as well. -/
lemma Firsts.cons : Firsts (u :: values) ({u.keyText} ∪ keep) (u :: kept) where
  texts := by
    rw [keyTexts_cons, keyTexts_cons, h.texts, Set.union_inter_distrib_left]
  first := by
    refine List.forall_mem_cons.mpr ⟨?_, h.first_cons hu⟩
    rw [List.find?_cons, sameText_self]
  ordered := by
    refine List.pairwise_cons.mpr ⟨fun v hv => ?_, h.ordered_cons hu⟩
    rw [List.findIdx_cons, List.findIdx_cons, sameText_self, h.sameText_eq_false hu hv]
    exact Nat.succ_pos _

end

lemma distinctFrom_firsts (seen : List String) (values : List Value) :
    Firsts values {text | text ∉ seen} (distinctFrom seen values) := by
  induction values generalizing seen with
  | nil => exact ⟨by simp [distinctFrom, keyTexts], nofun, .nil⟩
  | cons u rest ih =>
      rw [distinctFrom]
      split_ifs with hseen
      · exact (ih seen).skip (not_not.mpr (List.contains_iff_mem.mp hseen))
      · -- what was seen has one text more, which is that of the value in front
        have hcons := (ih (u.keyText :: seen)).cons (not_not.mpr List.mem_cons_self)
        convert hcons using 1
        ext text
        by_cases htext : text = u.keyText
        · simpa [htext] using hseen
        · simp [htext]

/-- A list without repetitions. -/
lemma distinct_firsts (values : List Value) : Firsts values Set.univ (distinct values) := by
  simpa [distinct] using distinctFrom_firsts [] values

lemma keyTexts_distinct (values : List Value) : keyTexts (distinct values) = keyTexts values := by
  rw [(distinct_firsts values).texts, Set.inter_univ]

end

/-! ### Lists of keys -/

lemma distinctKeys_singleton {k : Value} (hk : k ≠ .null) : distinctKeys [k] = [k] := by
  cases k <;> simp_all [distinctKeys, distinct, distinctFrom, isNull]

lemma distinctFrom_subset (seen : List String) (values : List Value) :
    distinctFrom seen values ⊆ values := by
  induction values generalizing seen with
  | nil => simp [distinctFrom]
  | cons v rest ih =>
      rw [distinctFrom]
      split_ifs
      · exact List.Subset.trans (ih seen) (List.subset_cons_self _ _)
      · exact List.cons_subset_cons v (ih _)

/-- Of the values with a text that was not seen one is kept. -/
lemma exists_mem_distinctFrom {values : List Value} {v : Value} (hv : v ∈ values)
    {seen : List String} (hseen : v.keyText ∉ seen) :
    ∃ w ∈ distinctFrom seen values, w.keyText = v.keyText :=
  (distinctFrom_firsts seen values).texts.superset ⟨keyText_mem hv, hseen⟩

/-- Keys that their texts tell apart are all kept, but for null. -/
theorem mem_distinctKeys {values : List Value} (hinj : Set.InjOn keyText {v | v ∈ values})
    {v : Value} : v ∈ distinctKeys values ↔ v ∈ values ∧ v ≠ .null := by
  have hfilter {w : Value} : (w ∈ values.filter fun w => !w.isNull) ↔ w ∈ values ∧ w ≠ .null := by
    rw [List.mem_filter]
    exact and_congr_right fun _ => by cases w <;> simp [isNull]
  constructor
  · exact fun h => hfilter.mp (distinctFrom_subset [] _ h)
  · intro h
    obtain ⟨w, hw, htext⟩ := exists_mem_distinctFrom (hfilter.mpr h) List.not_mem_nil
    have hwv := hfilter.mp (distinctFrom_subset [] _ hw)
    exact hinj hwv.1 h.1 htext ▸ hw

/-- What is kept has texts of its own, none of which was seen. -/
lemma keyText_distinctFrom (values : List Value) (seen : List String) :
    ((distinctFrom seen values).map keyText).Nodup ∧
      ∀ w ∈ distinctFrom seen values, w.keyText ∉ seen :=
  ⟨(distinctFrom_firsts seen values).nodup, fun _ => (distinctFrom_firsts seen values).keyText_mem⟩

/-- Nothing is left out of values with texts of their own, none of which was seen. -/
lemma distinctFrom_eq_self {values : List Value} {seen : List String}
    (h : (values.map keyText).Nodup) (hseen : ∀ v ∈ values, v.keyText ∉ seen) :
    distinctFrom seen values = values := by
  induction values generalizing seen with
  | nil => rfl
  | cons v rest ih =>
      obtain ⟨hv, hrest⟩ := List.nodup_cons.mp h
      obtain ⟨hunseen, hseen⟩ := List.forall_mem_cons.mp hseen
      rw [distinctFrom, if_neg (by simpa using hunseen), ih hrest fun w hw hmem => ?_]
      rcases List.mem_cons.mp hmem with hsame | hmem
      · exact hv (hsame ▸ List.mem_map_of_mem hw)
      · exact hseen w hw hmem

lemma distinctKeys_distinctKeys (values : List Value) :
    distinctKeys (distinctKeys values) = distinctKeys values := by
  have hpresent : (distinctKeys values).filter (!·.isNull) = distinctKeys values :=
    List.filter_eq_self.mpr fun v hv => (List.mem_filter.mp (distinctFrom_subset [] _ hv)).2
  rw [distinctKeys, hpresent, distinct]
  exact distinctFrom_eq_self (keyText_distinctFrom _ []).1 fun _ _ => List.not_mem_nil

lemma distinct_nodup (values : List Value) : (distinct values).Nodup :=
  (keyText_distinctFrom values []).1.of_map keyText

/-- Where texts tell values apart, what is kept are the values whose text was not seen, each where it is
met first. -/
lemma distinctFrom_eq_eraseDups {values : List Value} (hinj : Set.InjOn keyText {v | v ∈ values})
    (seen : List String) :
    distinctFrom seen values = (values.filter fun v => !seen.contains v.keyText).eraseDups := by
  induction values generalizing seen with
  | nil => rfl
  | cons v rest ih =>
      have hrest : Set.InjOn keyText {w | w ∈ rest} :=
        hinj.mono fun w hw => List.mem_cons_of_mem v hw
      rw [distinctFrom]
      split_ifs with hseen
      · rw [List.filter_cons, hseen, Bool.not_true, if_neg Bool.false_ne_true, ih hrest]
      · have hunseen : seen.contains v.keyText = false := by simpa using hseen
        rw [List.filter_cons, hunseen, Bool.not_false, if_pos rfl, List.eraseDups_cons, ih hrest,
          List.filter_filter]
        refine congrArg (fun later => v :: List.eraseDups later) (List.filter_congr fun w hw => ?_)
        have hsame : w.keyText = v.keyText ↔ w = v :=
          ⟨fun h => hinj (List.mem_cons_of_mem v hw) List.mem_cons_self h, fun h => h ▸ rfl⟩
        by_cases hwv : w = v
        · simp [hwv]
        · have htext : w.keyText ≠ v.keyText := fun h => hwv (hsame.mp h)
          simp [hwv, htext]

/-- Each value is kept once, where it is met first. -/
lemma distinct_eq_eraseDups {values : List Value} (hinj : Set.InjOn keyText {v | v ∈ values}) :
    distinct values = values.eraseDups := by
  rw [distinct, distinctFrom_eq_eraseDups hinj]
  simp

/-- Keys that their texts tell apart are all kept. -/
lemma mem_distinct {values : List Value} (hinj : Set.InjOn keyText {v | v ∈ values}) {v : Value} :
    v ∈ distinct values ↔ v ∈ values := by
  refine ⟨fun h => distinctFrom_subset [] _ h, fun h => ?_⟩
  obtain ⟨w, hw, htext⟩ := exists_mem_distinctFrom h List.not_mem_nil
  exact hinj (distinctFrom_subset [] _ hw) h htext ▸ hw

lemma isKeyOf_iff {values : List Value} {key : Value}
    (hinj : Set.InjOn keyText ({key} ∪ {v | v ∈ values})) :
    isKeyOf values key = true ↔ key ∈ values := by
  rw [isKeyOf, List.any_eq_true]
  constructor
  · rintro ⟨w, hw, htext⟩
    exact hinj (.inr hw) (.inl rfl) (of_decide_eq_true htext) ▸ hw
  · exact fun h => ⟨key, h, decide_eq_true rfl⟩

end GraphMapper.Value
