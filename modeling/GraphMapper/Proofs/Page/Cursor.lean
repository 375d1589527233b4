import GraphMapper.Proofs.Page.Bound
import GraphMapper.Proofs.Page.Order
import GraphMapper.Proofs.Page.Total

/-!
Pages past a cursor.

* `Interpretation.Compares`, `Selection.Seekable`: values that an engine compares as it sorts them, and
  selections whose nodes can be told apart by such values;
* `Selection.sorted`: the nodes that are matched, sorted by one column;
* `Selection.answers_seeking`: a selection sorted by such a column before anything else;
* `Selection.Seekable.answers_after`, `Selection.Seekable.answers_before`: what a page past a cursor
  and a page before one answer.
-/

namespace GraphMapper

open Cypher (Answer Comparison Expr Graph Interpretation Property SortDirection SortKey Statement
  mayPrecede)

variable {I : Interpretation} {g : Graph}

/-! ### Values that can be compared -/

/-- Whether a value may come before another in a direction. -/
def Cypher.Interpretation.inOrder (I : Interpretation) : SortDirection → Value → Value → Bool
  | .ascending, v, w => I.before v w
  | .descending, v, w => I.before w v

/-- Any two of the values can be compared, and they compare as they are sorted. -/
structure Cypher.Interpretation.Compares (I : Interpretation) (values : List Value) : Prop where
  arranges : Arranges I.before values
  lt_iff : ∀ v ∈ values, ∀ w ∈ values, I.compare .lt v w = .yes ↔ v ≠ w ∧ I.before v w
  gt_iff : ∀ v ∈ values, ∀ w ∈ values, I.compare .gt v w = .yes ↔ v ≠ w ∧ I.before w v

/-- The comparison that holds of what comes past a cursor. -/
def afterSign : SortDirection → Comparison
  | .ascending => .gt
  | .descending => .lt

/-- The comparison that holds of what comes before a cursor. -/
def beforeSign : SortDirection → Comparison
  | .ascending => .lt
  | .descending => .gt

section

variable {values : List Value} {v w : Value}

lemma Cypher.Interpretation.Compares.arranges_inOrder (h : I.Compares values)
    (direction : SortDirection) : Arranges (I.inOrder direction) values := by
  cases direction with
  | ascending => exact h.arranges
  | descending => exact h.arranges.flip

lemma Cypher.Interpretation.Compares.afterSign_iff (h : I.Compares values)
    (direction : SortDirection) (hv : v ∈ values) (hw : w ∈ values) :
    I.compare (afterSign direction) w v = .yes ↔ v ≠ w ∧ I.inOrder direction v w := by
  cases direction with
  | ascending => exact (h.gt_iff w hw v hv).trans (and_congr_left' ne_comm)
  | descending => exact (h.lt_iff w hw v hv).trans (and_congr_left' ne_comm)

lemma Cypher.Interpretation.Compares.beforeSign_iff (h : I.Compares values)
    (direction : SortDirection) (hv : v ∈ values) (hw : w ∈ values) :
    I.compare (beforeSign direction) v w = .yes ↔ v ≠ w ∧ I.inOrder direction v w := by
  cases direction with
  | ascending => exact h.lt_iff v hv w hw
  | descending => exact h.gt_iff v hv w hw

end

lemma mayPrecede_self (keys : List SortKey) (row : Cypher.Env) : mayPrecede I g keys row row := by
  induction keys with
  | nil => rfl
  | cons key rest ih => rwa [mayPrecede, if_pos rfl]

namespace Selection

/-! ### Sorted nodes -/

/-- What a select answers; `none` if it cannot be written. -/
def answers? (I : Interpretation) (g : Graph) (s : Selection) : Option (List Answer) :=
  s.select.toOption.map (Statement.answers I g)

/-- The order of nodes by their values in a column. -/
def nodeOrder (I : Interpretation) (g : Graph) (s : Selection) (column : String)
    (direction : SortDirection) (i j : ℕ) : Bool :=
  I.inOrder direction (s.valueAt g column i) (s.valueAt g column j)

/-- The nodes that are matched, sorted by a column. -/
def sorted (I : Interpretation) (g : Graph) (s : Selection) (column : String)
    (direction : SortDirection) : List ℕ :=
  (s.matched I g).mergeSort (s.nodeOrder I g column direction)

/-- The selection sorted by a column before anything else and cut to `count` rows. -/
def seeking (s : Selection) (count : ℕ) (column : String) (direction : SortDirection) : Selection :=
  { s with orders := ⟨column, direction⟩ :: (s.withoutOrder column).orders, limit := some count }

section

variable {s : Selection} {column : String} {direction : SortDirection} {count : ℕ}

lemma mem_sorted {i : ℕ} : i ∈ s.sorted I g column direction ↔ i ∈ s.matched I g :=
  (List.mergeSort_perm _ _).mem_iff

/-- Nodes that are told apart by their order have different values. -/
lemma valueAt_ne (h : Arranges (s.nodeOrder I g column direction) (s.matched I g)) {i j : ℕ}
    (hi : i ∈ s.matched I g) (hj : j ∈ s.matched I g) (hne : i ≠ j) :
    s.valueAt g column i ≠ s.valueAt g column j := by
  intro heq
  have hself : s.nodeOrder I g column direction i i := or_self_iff.mp (h.total i hi i hi)
  rw [nodeOrder] at hself
  refine hne (h.antisymm i hi j hj ?_ ?_)
  · rwa [nodeOrder, ← heq]
  · rwa [nodeOrder, ← heq]

/-- Where one column tells all nodes apart the orders after it do not matter. -/
lemma mayPrecede_eq (h : Arranges (s.nodeOrder I g column direction) (s.matched I g)) {i j : ℕ}
    (hi : i ∈ s.matched I g) (hj : j ∈ s.matched I g) (rest : List SortKey) :
    mayPrecede I g (⟨Property.ofColumn s.binder column, direction⟩ :: rest) (nodeRow s.binder i)
      (nodeRow s.binder j) = s.nodeOrder I g column direction i j := by
  by_cases hij : i = j
  · subst hij
    rw [mayPrecede_self, or_self_iff.mp (h.total i hi i hi)]
  · rw [mayPrecede]
    exact (if_neg (valueAt_ne h hi hj hij)).trans (by cases direction <;> rfl)

/-- A selection that is sorted by a column which tells its nodes apart answers the first of its sorted
nodes. -/
theorem answers_seeking {r : Option Expr} {b : Bindings} (hc : s.compiled = .ok (r, b))
    (hoffset : s.offset = none) (hdistinct : s.distinct = false) (hnames : s.itemNames.Nodup)
    (h : Arranges (s.nodeOrder I g column direction) (s.matched I g)) :
    (s.seeking count column direction).answers? I g =
      some (((s.sorted I g column direction).take count).map (s.nodeAnswer I g)) := by
  obtain ⟨q, hq⟩ : ∃ q, (s.seeking count column direction).select = .ok q :=
    ⟨_, by rw [select_eq, show (s.seeking count column direction).compiled = .ok (r, b) from hc]; rfl⟩
  let keys := sortKeys s.binder (s.seeking count column direction).orders
  have hrows : (s.seeking count column direction).unsorted I g =
      (s.matched I g).map (s.nodeAnswer I g) := by
    rw [unsorted, show (s.seeking count column direction).distinct = false from hdistinct]
    rfl
  have hordered : ordered I g keys ((s.matched I g).map (s.nodeAnswer I g)) =
      (s.sorted I g column direction).map (s.nodeAnswer I g) := by
    rw [ordered, sorted, List.map_mergeSort fun i hi j hj => ?_]
    exact (mayPrecede_eq h hi hj _).symm
  have hanswers : q.answers I g =
      windowed (some count) none (ordered I g keys ((s.matched I g).map (s.nodeAnswer I g))) := by
    rw [answers_of_select hq hnames, hrows,
      show (s.seeking count column direction).offset = none from hoffset]
    rfl
  rw [answers?, hq, Except.toOption, Option.map_some, hanswers, hordered, List.map_take]
  rfl

/-! ### Cursors -/

lemma after_none : s.after none count column direction = s.seeking count column direction := rfl

lemma spelled_compare {symbol : String} {c : Comparison} (h : Operator.ofSymbol symbol = .compare c)
    (v : Value) : Condition.spelled column symbol v = .test column (.compare c) (.value v) := by
  rw [Condition.spelled, h]
  rfl

lemma after_some (direction : SortDirection) {v : Value} (hv : v ≠ .null) :
    s.after (some v) count column direction =
      (s.restrict (Filter.bound column (afterSign direction) v)).seeking count column direction := by
  have hbound (symbol : String) (c : Comparison) (h : Operator.ofSymbol symbol = .compare c) :
      s.seek (some v) symbol count column direction =
        (s.restrict (Filter.bound column c v)).seeking count column direction := by
    rw [Filter.bound, ← spelled_compare h]
    cases v with
    | null => exact absurd rfl hv
    | _ => rfl
  cases direction with
  | ascending => exact hbound ">" .gt (by decide)
  | descending => exact hbound "<" .lt (by decide)

lemma before_some {v : Value} (hv : v ≠ .null) :
    s.before (some v) count column direction =
      (s.restrict (Filter.bound column (beforeSign direction) v)).seeking count column
        direction.reversed := by
  cases direction with
  | ascending => exact after_some .descending hv
  | descending => exact after_some .ascending hv

/-- The value of a row of an answer that a walk goes on from. -/
def cursorOf (g : Graph) (s : Selection) (column : String) (answer : Answer) : Value :=
  answer.first.value g (Property.ofColumn s.binder column)

end

/-- A selection whose nodes can be told apart by their values in a column, which are not null. -/
structure Seekable (I : Interpretation) (g : Graph) (s : Selection) (column : String) : Prop where
  written : ∃ q, s.select = .ok q
  rawFree : membersRawFree s.filter
  offset : s.offset = none
  distinct : s.distinct = false
  names : s.itemNames.Nodup
  values_nodup : ((s.matched I g).map (s.valueAt g column)).Nodup
  values_ne_null : ∀ i ∈ s.matched I g, s.valueAt g column i ≠ .null
  compares : I.Compares ((s.matched I g).map (s.valueAt g column))

namespace Seekable

variable {s : Selection} {column : String} (h : Seekable I g s column) (direction : SortDirection)

include h

lemma arranges : Arranges (s.nodeOrder I g column direction) (s.matched I g) := by
  obtain ⟨htotal, hantisymm, htrans⟩ := h.compares.arranges_inOrder direction
  have hmem {i : ℕ} (hi : i ∈ s.matched I g) :
      s.valueAt g column i ∈ (s.matched I g).map (s.valueAt g column) := List.mem_map_of_mem hi
  refine ⟨fun i hi j hj => htotal _ (hmem hi) _ (hmem hj), fun i hi j hj hij hji => ?_,
    fun i hi j hj k hk => htrans _ (hmem hi) _ (hmem hj) _ (hmem hk)⟩
  exact List.inj_on_of_nodup_map h.values_nodup hi hj
    (hantisymm _ (hmem hi) _ (hmem hj) hij hji)

/-- The nodes are sorted strictly. -/
lemma pairwise_sorted : (s.sorted I g column direction).Pairwise fun i j =>
    s.valueAt g column i ≠ s.valueAt g column j ∧ s.nodeOrder I g column direction i j := by
  have hnodup : (s.sorted I g column direction).Nodup :=
    (List.mergeSort_perm _ _).nodup_iff.mpr s.matched_nodup
  refine ((h.arranges direction).pairwise_mergeSort.and hnodup).imp_of_mem ?_
  rintro i j hi hj ⟨hle, hne⟩
  exact ⟨valueAt_ne (h.arranges direction) (mem_sorted.mp hi) (mem_sorted.mp hj) hne, hle⟩

/-- The strict order of the nodes goes one way round. -/
lemma not_reversed {i j : ℕ} (hi : i ∈ s.matched I g) (hj : j ∈ s.matched I g)
    (hij : s.valueAt g column i ≠ s.valueAt g column j ∧ s.nodeOrder I g column direction i j) :
    ¬ (s.valueAt g column j ≠ s.valueAt g column i ∧ s.nodeOrder I g column direction j i) :=
  fun hji => hij.1 (congrArg _ ((h.arranges direction).antisymm i hi j hj hij.2 hji.2))

/-- What a bounded selection answers, if the bound leaves a part of the nodes. -/
lemma answers_bound {count : ℕ} {c : Comparison} {x : ℕ} (hx : x ∈ s.matched I g) {part : List ℕ}
    (hpart : ((s.sorted I g column direction).filter fun j =>
      I.compare c (s.valueAt g column j) (s.valueAt g column x) = .yes) = part) :
    ((s.restrict (Filter.bound column c (s.valueAt g column x))).seeking count column
      direction).answers? I g = some ((part.take count).map (s.nodeAnswer I g)) := by
  obtain ⟨q, hq⟩ := h.written
  obtain ⟨r, b, hc⟩ := compiled_of_select hq
  obtain ⟨⟨r', b', hc'⟩, hmatched⟩ := matched_restrict_bound (I := I) (g := g) h.rawFree hc column c
    (h.values_ne_null x hx)
  have harranges : Arranges (s.nodeOrder I g column direction)
      ((s.restrict (Filter.bound column c (s.valueAt g column x))).matched I g) := by
    rw [hmatched]
    exact (h.arranges direction).subset fun _ hi => List.mem_of_mem_filter hi
  have hsorted : (s.restrict (Filter.bound column c (s.valueAt g column x))).sorted I g column
      direction = part := by
    rw [sorted, hmatched]
    exact ((h.arranges direction).mergeSort_filter _).trans hpart
  rw [answers_seeking hc' h.offset h.distinct h.names harranges, hsorted]
  rfl

/-- A page past a node answers the next nodes. -/
theorem answers_after {count : ℕ} {pre post : List ℕ} {x : ℕ}
    (hsplit : s.sorted I g column direction = pre ++ x :: post) :
    (s.after (some (s.valueAt g column x)) count column direction).answers? I g =
      some ((post.take count).map (s.nodeAnswer I g)) := by
  have hmatched {i : ℕ} (hi : i ∈ pre ++ x :: post) : i ∈ s.matched I g :=
    mem_sorted.mp (hsplit ▸ hi)
  have hx : x ∈ pre ++ x :: post := by simp
  rw [after_some direction (h.values_ne_null x (hmatched hx))]
  refine h.answers_bound direction (hmatched hx) ?_
  rw [hsplit]
  refine filter_eq_after (hsplit ▸ h.pairwise_sorted direction)
    (fun i hi j hj => h.not_reversed direction (hmatched hi) (hmatched hj)) fun j hj => ?_
  rw [decide_eq_true_iff]
  exact h.compares.afterSign_iff direction (List.mem_map_of_mem (hmatched hx))
    (List.mem_map_of_mem (hmatched hj))

/-- A page before a node answers the nodes before it, the nearest first. -/
theorem answers_before {count : ℕ} {pre post : List ℕ} {x : ℕ}
    (hsplit : s.sorted I g column direction = pre ++ x :: post) :
    (s.before (some (s.valueAt g column x)) count column direction).answers? I g =
      some ((pre.reverse.take count).map (s.nodeAnswer I g)) := by
  have hmatched {i : ℕ} (hi : i ∈ pre ++ x :: post) : i ∈ s.matched I g :=
    mem_sorted.mp (hsplit ▸ hi)
  have hx : x ∈ pre ++ x :: post := by simp
  have hreversed : s.sorted I g column direction.reversed =
      (s.sorted I g column direction).reverse := by
    cases direction with
    | ascending => exact (h.arranges .ascending).mergeSort_flip
    | descending => exact (h.arranges .descending).mergeSort_flip
  rw [before_some (h.values_ne_null x (hmatched hx))]
  refine h.answers_bound direction.reversed (hmatched hx) ?_
  rw [hreversed, List.filter_reverse, hsplit]
  refine congrArg List.reverse (filter_eq_before (hsplit ▸ h.pairwise_sorted direction)
    (fun i hi j hj => h.not_reversed direction (hmatched hi) (hmatched hj)) fun j hj => ?_)
  rw [decide_eq_true_iff]
  exact h.compares.beforeSign_iff direction (List.mem_map_of_mem (hmatched hj))
    (List.mem_map_of_mem (hmatched hx))

end Seekable

end Selection

end GraphMapper
