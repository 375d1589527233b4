import Mathlib.Data.String.Basic
import Mathlib.Tactic
import GraphMapper.Filter.Compile

/-!
Named entries and the parameters of bindings.

* `Fields.get?_put_of_ne`, `Fields.names_put_perm`: what an entry more changes; `Fields.get?_drop`: what
  an entry less does;
* `Fields.get?_ofList`, `Fields.names_ofList_perm`: entries of different names are all kept;
* `Fields.names_ofList_congr`: the names of the entries do not depend on what is entered;
* `Fields.mem_names_ofList`, `Fields.names_ofList_sorted`: they are in order, each once;
* `Bindings.get?_parameters`, `Bindings.names_parameters_perm`: the parameters of bindings are the
  values under the names of their numbers;
* `toString_injective`: numbers are told apart by their digits.
-/

namespace GraphMapper

/-! ### Named entries -/

namespace Fields

variable {α β : Type}

lemma get?_put_of_ne (fields : Fields α) {name other : String} (h : other ≠ name) (entry : α) :
    (fields.put name entry).get? other = fields.get? other := by
  have hne : (other == name) = false := beq_eq_false_iff_ne.mpr h
  induction fields with
  | nil => simp [put, get?, List.lookup_cons, hne]
  | cons head rest ih =>
      obtain ⟨key, old⟩ := head
      rw [put]
      split_ifs with h1 h2
      · simp [get?, List.lookup_cons, hne]
      · subst h2
        simp [get?, List.lookup_cons, hne]
      · rw [get?, get?, List.lookup_cons, List.lookup_cons]
        cases other == key with
        | true => rfl
        | false => exact ih

lemma get?_drop (fields : Fields α) {name other : String} (h : other ≠ name) :
    (fields.drop name).get? other = fields.get? other := by
  induction fields with
  | nil => rfl
  | cons head rest ih =>
      obtain ⟨key, entry⟩ := head
      rw [drop, List.filter_cons]
      rw [drop] at ih
      split_ifs with hkey
      · rw [get?, get?, List.lookup_cons, List.lookup_cons]
        cases other == key with
        | true => rfl
        | false => exact ih
      · obtain rfl : key = name := by simpa using hkey
        rw [ih, get?, get?, List.lookup_cons, beq_eq_false_iff_ne.mpr h]

lemma get?_map (fields : Fields α) (f : String → α → β) (name : String) :
    Fields.get? (fields.map fun (key, entry) => (key, f key entry)) name =
      (fields.get? name).map (f name) := by
  induction fields with
  | nil => rfl
  | cons head rest ih =>
      obtain ⟨key, entry⟩ := head
      rw [get?, get?, List.map_cons, List.lookup_cons, List.lookup_cons]
      cases hkey : name == key with
      | true => rw [beq_iff_eq.mp hkey]; rfl
      | false => exact ih

/-- The names after an entry depend on the names alone. -/
lemma names_put_congr {fields : Fields α} {others : Fields β} (h : fields.names = others.names)
    (name : String) (entry : α) (entry' : β) :
    (fields.put name entry).names = (others.put name entry').names := by
  induction fields generalizing others with
  | nil =>
      obtain rfl : others = [] := List.map_eq_nil_iff.mp h.symm
      rfl
  | cons head rest ih =>
      cases others with
      | nil => simp [names] at h
      | cons head' rest' =>
          obtain ⟨key, old⟩ := head
          obtain ⟨key', old'⟩ := head'
          obtain ⟨rfl, hrest⟩ : key = key' ∧ names rest = names rest' := by
            simpa [names] using h
          have ih := ih hrest
          rw [put, put]
          split_ifs
          · simpa [names] using hrest
          · simpa [names] using hrest
          · simpa [names] using ih

/-- A name that has no entry is added to the others. -/
lemma names_put_perm {fields : Fields α} {name : String} (h : name ∉ fields.names) (entry : α) :
    (fields.put name entry).names.Perm (name :: fields.names) := by
  induction fields with
  | nil => exact .refl _
  | cons head rest ih =>
      obtain ⟨key, old⟩ := head
      obtain ⟨hkey, hrest⟩ : name ≠ key ∧ name ∉ names rest := by simpa [names] using h
      rw [put]
      split_ifs with hlt
      · exact .refl _
      · exact ((ih hrest).cons key).trans (.swap _ _ _)

lemma ofList_append_singleton (entries : List (String × α)) (entry : String × α) :
    ofList (entries ++ [entry]) = (ofList entries).put entry.1 entry.2 := by
  rw [ofList, List.foldl_append]
  rfl

lemma names_ofList_congr {entries : List (String × α)} {others : List (String × β)}
    (h : entries.map Prod.fst = others.map Prod.fst) :
    (ofList entries).names = (ofList others).names := by
  induction entries using List.reverseRecOn generalizing others with
  | nil =>
      obtain rfl : others = [] := List.map_eq_nil_iff.mp h.symm
      rfl
  | append_singleton entries entry ih =>
      induction others using List.reverseRecOn with
      | nil => simp at h
      | append_singleton others other _ =>
          simp only [List.map_append, List.map_cons, List.map_nil] at h
          obtain ⟨hinit, hlast⟩ := List.append_inj' h rfl
          obtain hname : entry.1 = other.1 := by simpa using hlast
          rw [ofList_append_singleton, ofList_append_singleton, hname]
          exact names_put_congr (ih hinit) _ _ _

/-- Entries of different names are all kept. -/
lemma names_ofList_perm {entries : List (String × α)} (h : (entries.map Prod.fst).Nodup) :
    (ofList entries).names.Perm (entries.map Prod.fst) := by
  induction entries using List.reverseRecOn with
  | nil => exact .refl _
  | append_singleton entries entry ih =>
      rw [List.map_append, List.map_singleton] at h ⊢
      have hinit := ih h.of_append_left
      have hnew : entry.1 ∉ (ofList entries).names := fun hm =>
        List.disjoint_of_nodup_append h (hinit.mem_iff.mp hm) (by simp)
      rw [ofList_append_singleton]
      exact (names_put_perm hnew _).trans
        ((hinit.cons _).trans (List.perm_append_singleton _ _).symm)

lemma get?_ofList {entries : List (String × α)} (h : (entries.map Prod.fst).Nodup) {name : String}
    {entry : α} (hm : (name, entry) ∈ entries) : (ofList entries).get? name = some entry := by
  induction entries using List.reverseRecOn with
  | nil => simp at hm
  | append_singleton entries last ih =>
      rw [List.map_append, List.map_singleton] at h
      rw [ofList_append_singleton]
      rcases List.mem_append.mp hm with hm | hm
      · have hne : name ≠ last.1 := fun he =>
          List.disjoint_of_nodup_append h (List.mem_map_of_mem (f := Prod.fst) hm) (by simp [he])
        rw [get?_put_of_ne _ hne]
        exact ih h.of_append_left hm
      · obtain rfl : (name, entry) = last := by simpa using hm
        exact get?_put_self _ _ _

lemma has_of_mem_names {fields : Fields α} {name : String} (h : name ∈ fields.names) :
    fields.has name := by
  induction fields with
  | nil => simp [names] at h
  | cons head rest ih =>
      obtain ⟨key, entry⟩ := head
      rw [has, List.lookup_cons]
      cases hkey : name == key with
      | true => rfl
      | false =>
          have hne : name ≠ key := beq_eq_false_iff_ne.mp hkey
          exact ih (by simpa [names, hne] using h)

lemma mem_names_put {fields : Fields α} {name other : String} {entry : α} :
    other ∈ (fields.put name entry).names ↔ other = name ∨ other ∈ fields.names := by
  induction fields with
  | nil => simp [put, names]
  | cons head rest ih =>
      obtain ⟨key, old⟩ := head
      rw [put]
      split_ifs with hlt hsame
      · simp [names]
      · subst hsame
        simp [names]
      · have hrest : other ∈ names ((key, old) :: put rest name entry) ↔
            other = key ∨ other ∈ (put rest name entry).names := by simp [names]
        rw [hrest, ih]
        simp only [names, List.map_cons, List.mem_cons]
        tauto

lemma names_put_sorted {fields : Fields α} (h : fields.names.Pairwise (· < ·)) (name : String)
    (entry : α) : (fields.put name entry).names.Pairwise (· < ·) := by
  induction fields with
  | nil => simp [put, names]
  | cons head rest ih =>
      obtain ⟨key, old⟩ := head
      obtain ⟨hkey, hrest⟩ := List.pairwise_cons.mp h
      rw [put]
      split_ifs with hlt hsame
      · exact List.pairwise_cons.mpr
          ⟨List.forall_mem_cons.mpr ⟨hlt, fun other hother => lt_trans hlt (hkey other hother)⟩, h⟩
      · subst hsame
        exact h
      · refine List.pairwise_cons.mpr ⟨fun other hother => ?_, ih hrest⟩
        rcases mem_names_put.mp hother with rfl | hother
        · exact lt_of_le_of_ne (not_lt.mp hlt) (Ne.symm hsame)
        · exact hkey other hother

lemma mem_names_ofList {entries : List (String × α)} {name : String} :
    name ∈ (ofList entries).names ↔ name ∈ entries.map Prod.fst := by
  induction entries using List.reverseRecOn with
  | nil => rfl
  | append_singleton entries last ih =>
      rw [ofList_append_singleton, mem_names_put, ih, List.map_append, List.mem_append, or_comm]
      simp

lemma names_ofList_sorted (entries : List (String × α)) :
    (ofList entries).names.Pairwise (· < ·) := by
  induction entries using List.reverseRecOn with
  | nil => exact .nil
  | append_singleton entries last ih =>
      rw [ofList_append_singleton]
      exact names_put_sorted ih _ _

lemma mem_names_of_get? {fields : Fields α} {name : String} {entry : α}
    (h : fields.get? name = some entry) : name ∈ fields.names := by
  induction fields with
  | nil => simp [get?] at h
  | cons head rest ih =>
      obtain ⟨key, old⟩ := head
      rw [get?, List.lookup_cons] at h
      cases hkey : name == key with
      | true => simp [names, beq_iff_eq.mp hkey]
      | false =>
          rw [hkey] at h
          exact List.mem_cons_of_mem _ (ih h)

end Fields

/-! ### Parameters -/

namespace Bindings

/-- Parameters of different numbers have different names. -/
lemma parameterName_injective : Function.Injective parameterName := by
  intro i j h
  have hchars : (toString i).toList = (toString j).toList := by
    have := congrArg String.toList h
    rw [parameterName, parameterName, String.toList_append, String.toList_append] at this
    exact List.append_cancel_left this
  rw [Nat.toString_eq_ofList_toDigits, Nat.toString_eq_ofList_toDigits, String.toList_ofList,
    String.toList_ofList] at hchars
  rw [← Nat.ofDigitChars_ten_toDigits (n := i), hchars, Nat.ofDigitChars_ten_toDigits]

/-- The values with the names of their numbers. -/
lemma names_entries (values : List Value) :
    (values.zipIdx.map fun (v, i) => (parameterName i, v)).map Prod.fst =
      (List.range values.length).map parameterName := by
  rw [List.map_map, List.range_eq_range', ← List.zipIdx_map_snd 0 values, List.map_map]
  rfl

lemma nodup_names (count : ℕ) : ((List.range count).map parameterName).Nodup :=
  List.nodup_range.map parameterName_injective

/-- The names of the parameters depend on the number of values alone. -/
lemma names_parameters_congr {b c : Bindings} (h : b.values.length = c.values.length) :
    Fields.names b.parameters = Fields.names c.parameters := by
  rw [parameters, parameters]
  refine Fields.names_ofList_congr ?_
  rw [names_entries, names_entries, h]

/-- The parameters are named by the numbers of the values. -/
lemma names_parameters_perm (b : Bindings) :
    (Fields.names b.parameters).Perm ((List.range b.values.length).map parameterName) := by
  have hnodup : ((b.values.zipIdx.map fun (v, i) => (parameterName i, v)).map Prod.fst).Nodup := by
    rw [names_entries]
    exact nodup_names _
  have hperm := Fields.names_ofList_perm hnodup
  rwa [names_entries] at hperm

lemma get?_parameters {b : Bindings} {i : ℕ} {v : Value} (h : b.values[i]? = some v) :
    Fields.get? b.parameters (parameterName i) = some v := by
  refine Fields.get?_ofList ?_ ?_
  · rw [names_entries]
    exact nodup_names _
  · exact List.mem_map.mpr ⟨(v, i), List.mem_zipIdx_iff_getElem?.mpr h, rfl⟩

end Bindings

/-! ### Numbers in names -/

lemma toString_injective : Function.Injective (toString : ℕ → String) := fun i j h =>
  Bindings.parameterName_injective (by rw [Bindings.parameterName, Bindings.parameterName, h])

lemma append_injective (a : String) : Function.Injective (a ++ ·) := fun b c h =>
  String.toList_inj.mp (by simpa using congrArg String.toList h)

end GraphMapper
