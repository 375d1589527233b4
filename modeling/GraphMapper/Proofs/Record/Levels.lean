import Mathlib.Data.List.Lex
import GraphMapper.Proofs.Value.Fields
import GraphMapper.Record.Loading

/-!
The levels that a list of dotted paths speaks of.

* `mem_beginnings`: the non-empty beginnings of a list;
* `insertPath_sorted`, `mem_insertPath`: paths in dictionary order, each once;
* `mem_labelsOf`, `labelsOf_nodup`: the labels of records, each once;
* `mem_expandPaths`, `expandPaths_nodup`, `expandPaths_sorted`: every beginning of every path is a
  level, none comes twice, and no level comes before a shorter one.
-/

namespace GraphMapper

/-! ### Beginnings -/

lemma mem_beginnings {α : Type} {items beginning : List α} :
    beginning ∈ beginnings items ↔ beginning ≠ [] ∧ beginning <+: items := by
  rw [beginnings, List.mem_map]
  constructor
  · rintro ⟨n, hn, rfl⟩
    refine ⟨fun hnil => ?_, List.take_prefix _ _⟩
    rcases List.take_eq_nil_iff.mp hnil with h | h
    · exact absurd h n.succ_ne_zero
    · simp [h] at hn
  · rintro ⟨hne, hprefix⟩
    have hpos := List.length_pos_iff.mpr hne
    refine ⟨beginning.length - 1, ?_, ?_⟩
    · have hle := hprefix.length_le
      exact List.mem_range.mpr (by omega)
    · rw [Nat.sub_add_cancel hpos]
      exact (List.prefix_iff_eq_take.mp hprefix).symm

/-! ### Paths in dictionary order -/

lemma mem_insertPath {path other : List String} {known : List (List String)} :
    other ∈ insertPath path known ↔ other = path ∨ other ∈ known := by
  induction known with
  | nil => simp [insertPath]
  | cons first rest ih =>
      rw [insertPath]
      split_ifs with hsame
      · subst hsame
        simp
      · simp
      · simp only [List.mem_cons, ih]
        tauto

lemma insertPath_sorted {known : List (List String)} (h : known.Pairwise (· < ·))
    (path : List String) : (insertPath path known).Pairwise (· < ·) := by
  induction known with
  | nil => simp [insertPath]
  | cons first rest ih =>
      obtain ⟨hfirst, hrest⟩ := List.pairwise_cons.mp h
      rw [insertPath]
      split_ifs with hsame hlt
      · exact h
      · exact List.pairwise_cons.mpr
          ⟨List.forall_mem_cons.mpr ⟨hlt, fun other hother => lt_trans hlt (hfirst other hother)⟩, h⟩
      · refine List.pairwise_cons.mpr ⟨fun other hother => ?_, ih hrest⟩
        rcases mem_insertPath.mp hother with rfl | hother
        · exact lt_of_le_of_ne (not_lt.mp hlt) (Ne.symm hsame)
        · exact hfirst other hother

lemma foldl_insertPath (paths : List (List String)) {known : List (List String)}
    (h : known.Pairwise (· < ·)) :
    let all := paths.foldl (fun known path => insertPath path known) known
    all.Pairwise (· < ·) ∧ ∀ path, path ∈ all ↔ path ∈ known ∨ path ∈ paths := by
  induction paths generalizing known with
  | nil => exact ⟨h, fun path => by simp⟩
  | cons first rest ih =>
      obtain ⟨hsorted, hmem⟩ := ih (insertPath_sorted h first)
      refine ⟨hsorted, fun path => (hmem path).trans ?_⟩
      rw [mem_insertPath, List.mem_cons]
      tauto

/-! ### Labels -/

lemma mem_labelsOf {records : List Record} {label : String} :
    label ∈ labelsOf records ↔ ∃ r ∈ records, r.label = label := by
  rw [labelsOf, Fields.mem_names_ofList, List.map_map, List.mem_map]
  rfl

lemma labelsOf_nodup (records : List Record) : (labelsOf records).Nodup :=
  (Fields.names_ofList_sorted _).imp fun hlt => ne_of_lt hlt

/-! ### Levels -/

/-- The levels are the non-empty beginnings of the paths. -/
theorem mem_expandPaths {paths : List String} {level : List String} :
    level ∈ expandPaths paths ↔ level ≠ [] ∧ ∃ path ∈ paths, level <+: pathSegments path := by
  have hmem := (foldl_insertPath (paths.flatMap fun path => beginnings (pathSegments path))
    List.Pairwise.nil).2 level
  rw [expandPaths, (List.mergeSort_perm _ _).mem_iff, hmem, List.mem_flatMap]
  simp only [mem_beginnings, List.not_mem_nil, false_or]
  tauto

lemma expandPaths_nodup (paths : List String) : (expandPaths paths).Nodup := by
  have hsorted := (foldl_insertPath (paths.flatMap fun path => beginnings (pathSegments path))
    List.Pairwise.nil).1
  rw [expandPaths, (List.mergeSort_perm _ _).nodup_iff]
  exact hsorted.imp fun hlt => ne_of_lt hlt

/-- No level comes before a shorter one. -/
lemma expandPaths_sorted (paths : List String) :
    (expandPaths paths).Pairwise fun level later => level.length ≤ later.length := by
  let shorter (a b : List String) : Bool := decide (a.length ≤ b.length)
  have htrans (a b c : List String) (hab : shorter a b) (hbc : shorter b c) : shorter a c :=
    decide_eq_true ((of_decide_eq_true hab).trans (of_decide_eq_true hbc))
  have htotal (a b : List String) : shorter a b || shorter b a := by
    simpa [shorter] using Nat.le_total a.length b.length
  rw [expandPaths]
  exact (List.pairwise_mergeSort htrans htotal _).imp fun hle => of_decide_eq_true hle

end GraphMapper
