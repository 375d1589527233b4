import GraphMapper.Proofs.Aggregate.Extremes
import GraphMapper.Proofs.Value.Json

/-!
The order of values.

* `Value.place`: numbers by size, then texts, then anything else by its JSON text, in one linear order;
* `Value.compareValues_eq`: values are compared by their places, which is to say that the three ways of
  comparing them fit together;
* `Value.sortedBy_pairwise`, `Value.sublist_sortedBy`: a sorted list is in order, and what was in order
  before has kept it;
* `Aggregate.evaluate_min_first`, `Aggregate.evaluate_max_last`: which members are picked;
* `Aggregate.compareValues_preorder` (**values are ordered, and so have a minimum and a maximum**).
-/

namespace GraphMapper

open Decimal (numberOf exists_standsFor_floatOfInt standsFor_numberOf StandsFor compareFloats_eq)

/-! ### Places -/

/-- The number that a number becomes as a double. -/
lemma Number.standsFor {n : Number} (h : n.Finite) :
    StandsFor n.toFloat.toModel.unpack (numberOf n.toFloat) := by
  cases n with
  | int n =>
      obtain ⟨r, hr⟩ := exists_standsFor_floatOfInt n
      exact hr.eq_numberOf ▸ hr
  | float x => exact standsFor_numberOf h

namespace Value

/-- Whether a value is neither a number nor a text. -/
def isOther : Value → Bool
  | .number _ | .string _ => false
  | _ => true

/-- The text by which a value is placed that is no number: a text as it is, behind a quote, and anything
else in JSON. -/
def sortText : Value → String
  | .string s => "\"" ++ s
  | v => v.json

/-- The place of a value: numbers come first, by size. -/
def place : Value → ℚ ⊕ₗ String
  | .number n => toLex (.inl (numberOf n.toFloat))
  | v => toLex (.inr v.sortText)

/-- The JSON text of a value that is neither number nor text comes after whatever begins with a quote. -/
lemma compare_quote {v : Value} (h : v.isOther) (s : String) : compare ("\"" ++ s) v.json = .lt := by
  have hchars : v.json.toList = v.jsonChars := String.toList_ofList
  -- the letters, brackets and braces that begin the other texts all come after the quote
  rw [compare_lt_iff_lt, String.lt_iff_toList_lt, String.toList_append, hchars]
  cases v with
  | null => exact .rel (show '"' < 'n' by decide)
  | bool b =>
      cases b with
      | false => exact .rel (show '"' < 'f' by decide)
      | true => exact .rel (show '"' < 't' by decide)
  | number n => simp [isOther] at h
  | string t => simp [isOther] at h
  | array items => rw [jsonChars]; exact .rel (show '"' < '[' by decide)
  | object fields => rw [jsonChars]; exact .rel (show '"' < '\x7b' by decide)

lemma exists_json_string (s : String) : ∃ t, (string s).json = "\"" ++ t :=
  ⟨String.ofList (s.toList.flatMap Json.escape ++ ['"']), by
    rw [json, jsonChars, Json.quote, ← String.toList_inj]
    simp⟩

/-- A text comes before other values, by their JSON texts and by their places alike. -/
lemma compare_string_other {v : Value} (h : v.isOther) (s : String) :
    compare (string s).json v.json = compare (string s).sortText v.sortText := by
  obtain ⟨t, ht⟩ := exists_json_string s
  have hsort : v.sortText = v.json := by
    cases v with
    | string t => simp [isOther] at h
    | _ => rfl
  rw [ht, hsort, sortText, compare_quote h, compare_quote h]

/-- Of two values that are not both texts the JSON texts decide as the places do. -/
lemma compare_json {v w : Value} (h : v.isOther ∨ w.isOther) :
    compare v.json w.json = compare v.sortText w.sortText := by
  cases v with
  | string s => exact compare_string_other (h.resolve_left (by simp [isOther])) s
  | _ =>
      cases w with
      | string t =>
          -- the same in the other order
          have hswap := congrArg Ordering.swap
            (compare_string_other (h.resolve_right (by simp [isOther])) t)
          rwa [← Std.OrientedOrd.eq_swap, ← Std.OrientedOrd.eq_swap] at hswap
      | _ => rfl

lemma compare_string (s t : String) : compare s t = compare (string s).sortText (string t).sortText := by
  have hmono : StrictMono fun s : String => "\"" ++ s := fun s t h => by
    rw [String.lt_iff_toList_lt, String.toList_append, String.toList_append]
    exact .cons (String.lt_iff_toList_lt.mp h)
  exact (compare_map hmono s t).symm

lemma compare_inr (s t : String) :
    compare (toLex (.inr s) : ℚ ⊕ₗ String) (toLex (.inr t)) = compare s t :=
  compare_map Sum.Lex.inr_strictMono s t

/-- Values are compared by their places. -/
theorem compareValues_eq {v w : Value} (hv : v.Finite) (hw : w.Finite) :
    compareValues v w = compare v.place w.place := by
  cases v with
  | number m =>
      cases w with
      | number n =>
          rw [Finite] at hv hw
          rw [compareValues, compareFloats_eq (Number.standsFor hv) (Number.standsFor hw)]
          exact (compare_map Sum.Lex.inl_strictMono _ _).symm
      | _ => exact (compare_lt_iff_lt.mpr (Sum.Lex.inl_lt_inr _ _)).symm
  | string s =>
      cases w with
      | number n => exact (compare_gt_iff_gt.mpr (Sum.Lex.inl_lt_inr _ _)).symm
      | string t => exact (compare_string s t).trans (compare_inr _ _).symm
      | _ => exact (compare_json (.inr rfl)).trans (compare_inr _ _).symm
  | _ =>
      cases w with
      | number n => exact (compare_gt_iff_gt.mpr (Sum.Lex.inl_lt_inr _ _)).symm
      | _ => exact (compare_json (.inl rfl)).trans (compare_inr _ _).symm

lemma isLE_compareValues {v w : Value} (hv : v.Finite) (hw : w.Finite) :
    (compareValues v w).isLE ↔ v.place ≤ w.place := by
  rw [compareValues_eq hv hw, Ordering.isLE_iff_ne_gt]
  exact compare_le_iff_le

/-! ### Sorted lists -/

section

variable {values : List Value} (h : ∀ v ∈ values, v.Finite)

include h

lemma compareValues_eq_of_mem : ∀ v ∈ values, ∀ w ∈ values,
    compareValues (id v) (id w) = compare v.place w.place :=
  fun v hv w hw => compareValues_eq (h v hv) (h w hw)

/-- A list is sorted by the places of its members. -/
lemma sortedBy_place : sortedBy compareValues id values = values.mergeSort (place · ≤ place ·) := by
  have hsort := sortedBy_rank (compareValues_eq_of_mem h)
  rwa [List.map_id, List.map_id] at hsort

lemma finite_of_mem_sortedBy {v : Value} (hv : v ∈ sortedBy compareValues id values) : v.Finite :=
  h v (List.mem_mergeSort.mp hv)

/-- A sorted list is in order. -/
lemma sortedBy_pairwise :
    (sortedBy compareValues id values).Pairwise fun v w => (compareValues v w).isLE := by
  have hplaces := List.pairwise_mergeSort (rank_trans place) (rank_total place) values
  rw [← sortedBy_place h] at hplaces
  refine hplaces.imp_of_mem fun hv hw hle => ?_
  rw [isLE_compareValues (finite_of_mem_sortedBy h hv) (finite_of_mem_sortedBy h hw)]
  exact of_decide_eq_true hle

/-- Members that are in order already keep it. -/
lemma sublist_sortedBy {kept : List Value} (hkept : kept.Sublist values)
    (hordered : kept.Pairwise fun v w => (compareValues v w).isLE) :
    kept.Sublist (sortedBy compareValues id values) := by
  rw [sortedBy_place h]
  refine List.sublist_mergeSort (rank_trans place) (rank_total place) ?_ hkept
  refine hordered.imp_of_mem fun hv hw hle => decide_eq_true ?_
  rwa [isLE_compareValues (h _ (hkept.subset hv)) (h _ (hkept.subset hw))] at hle

end

end Value

/-! ### Minimum and maximum -/

namespace Aggregate

open Value (place compareValues_eq compareValues_eq_of_mem isLE_compareValues sortedBy_pairwise
  sublist_sortedBy)

variable {values : List Value}

section

variable (h : ∀ v ∈ values, v.Finite) (hsome : values.filter (!·.isNull) ≠ [])

include h hsome

/-- The minimum is the first of the least values. -/
lemma evaluate_min_first :
    ∃ least, Aggregate.min.evaluate values = .ok least ∧
      FirstLeast (place · < place ·) (values.filter (!·.isNull)) least :=
  evaluate_min_rank (List.map_id _).symm hsome
    (compareValues_eq_of_mem fun v hv => h v (List.mem_of_mem_filter hv))

/-- The maximum is the last of the greatest values. -/
lemma evaluate_max_last :
    ∃ greatest, Aggregate.max.evaluate values = .ok greatest ∧
      LastGreatest (place · < place ·) (values.filter (!·.isNull)) greatest :=
  evaluate_max_rank (List.map_id _).symm hsome
    (compareValues_eq_of_mem fun v hv => h v (List.mem_of_mem_filter hv))

end

/-- **Values are ordered**: whatever their kinds, two of them are compared by their places, with opposite
results in the two orders, and the order is total and transitive.  So sorting a list gives its members in
order, and those that are in order already keep it; and of a list with at least one value that is not null
the minimum is such a member below all of them, and the maximum one above all of them. -/
theorem compareValues_preorder :
    (∀ v w : Value, v.Finite → w.Finite →
      compareValues v w = compare v.place w.place ∧
        compareValues w v = (compareValues v w).swap ∧
        ((compareValues v w).isLE ∨ (compareValues w v).isLE)) ∧
    (∀ u v w : Value, u.Finite → v.Finite → w.Finite →
      (compareValues u v).isLE → (compareValues v w).isLE → (compareValues u w).isLE) ∧
    ∀ values : List Value, (∀ v ∈ values, v.Finite) →
      (sortedBy compareValues id values).Perm values ∧
      (sortedBy compareValues id values).Pairwise (fun v w => (compareValues v w).isLE) ∧
      (∀ kept : List Value, kept.Sublist values →
        kept.Pairwise (fun v w => (compareValues v w).isLE) →
        kept.Sublist (sortedBy compareValues id values)) ∧
      (values.filter (!·.isNull) ≠ [] →
        ∃ least ∈ values.filter (!·.isNull), ∃ greatest ∈ values.filter (!·.isNull),
          Aggregate.min.evaluate values = .ok least ∧ Aggregate.max.evaluate values = .ok greatest ∧
          ∀ v ∈ values.filter (!·.isNull),
            (compareValues least v).isLE ∧ (compareValues v greatest).isLE) := by
  refine ⟨fun v w hv hw => ?_, fun u v w hu hv hw huv hvw => ?_, fun values h => ?_⟩
  · rw [isLE_compareValues hv hw, isLE_compareValues hw hv, compareValues_eq hv hw,
      compareValues_eq hw hv]
    exact ⟨rfl, Std.OrientedOrd.eq_swap, le_total _ _⟩
  · rw [isLE_compareValues hu hv] at huv
    rw [isLE_compareValues hv hw] at hvw
    exact (isLE_compareValues hu hw).mpr (huv.trans hvw)
  · refine ⟨List.mergeSort_perm _ _, sortedBy_pairwise h, fun kept => sublist_sortedBy h,
      fun hsome => ?_⟩
    obtain ⟨least, hmin, hleast⟩ := evaluate_min_first h hsome
    obtain ⟨greatest, hmax, hgreatest⟩ := evaluate_max_last h hsome
    have hfinite {v : Value} (hv : v ∈ values.filter (!·.isNull)) : v.Finite :=
      h v (List.mem_of_mem_filter hv)
    refine ⟨least, hleast.mem, greatest, hgreatest.mem, hmin, hmax, fun v hv => ⟨?_, ?_⟩⟩
    · exact (isLE_compareValues (hfinite hleast.mem) (hfinite hv)).mpr (hleast.le hv)
    · exact (isLE_compareValues (hfinite hv) (hfinite hgreatest.mem)).mpr (hgreatest.le hv)

/-- Of values of every kind: numbers come first, then texts, then the others, a map at the end. -/
theorem compareValues_preorder_kinds :
    let values : List Value := [.string "[", .object [("id", .null)], .null, .int 3, .array [.int 1],
      .number (.float 2.5), .bool true, .string ""]
    (∀ v ∈ values, v.Finite) ∧ values.filter (!·.isNull) ≠ [] ∧
      Aggregate.min.evaluate values = .ok (.number (.float 2.5)) ∧
      Aggregate.max.evaluate values = .ok (.object [("id", .null)]) := by
  intro values
  have h : ∀ v ∈ values, v.Finite := by
    have hfloat : (2.5 : Float).isFinite := by decide +kernel
    simp [values, Value.int, Value.Finite, Value.FiniteItems, Value.FiniteFields, Number.Finite, hfloat]
  have hsome : values.filter (!·.isNull) ≠ [] := by decide
  obtain ⟨least, hleast, greatest, hgreatest, hmin, hmax, hall⟩ :=
    (compareValues_preorder.2.2 values h).2.2.2 hsome
  have hbelow : (values.filter (!·.isNull)).filter (fun v =>
      (values.filter (!·.isNull)).all fun w => (compareValues v w).isLE) =
      [.number (.float 2.5)] := by decide +kernel
  have habove : (values.filter (!·.isNull)).filter (fun v =>
      (values.filter (!·.isNull)).all fun w => (compareValues w v).isLE) =
      [.object [("id", .null)]] := by decide +kernel
  obtain rfl := List.mem_singleton.mp (hbelow ▸ List.mem_filter.mpr
    ⟨hleast, List.all_eq_true.mpr fun v hv => (hall v hv).1⟩)
  obtain rfl := List.mem_singleton.mp (habove ▸ List.mem_filter.mpr
    ⟨hgreatest, List.all_eq_true.mpr fun v hv => (hall v hv).2⟩)
  exact ⟨h, hsome, hmin, hmax⟩

end Aggregate

end GraphMapper
