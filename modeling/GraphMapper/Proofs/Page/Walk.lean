import GraphMapper.Proofs.Page.Cursor

/-!
Walks along the pages past a cursor.

* `Selection.Walk`: page after page, each past the last row of the one before, up to a page without
  rows, with `Selection.walk_done_iff` and `Selection.walk_turn_iff` for its two cases;
* `Selection.Standing`: where a walk stands in the sorted nodes; `Selection.Seekable.answers_standing`
  and `Selection.Standing.next`: the page that comes next, and where it leads;
* `Selection.Seekable.walk_iff`: there is one walk, along the pieces of the sorted nodes;
* `Selection.walk_visits_all` (**every row once**): the pages of the walk are the rows that are
  matched, sorted by the column, and from the first row of a page the way back leads to the page
  before it.
-/

namespace GraphMapper

open Cypher (Answer Graph Interpretation SortDirection)

namespace Selection

variable {I : Interpretation} {g : Graph} {s : Selection} {column : String}
  {direction : SortDirection} {count : ℕ}

section

variable (I : Interpretation) (g : Graph) (s : Selection) (count : ℕ) (column : String)
  (direction : SortDirection)

/-- The pages that come past a cursor: the next one begins past the last row of the one before, and
there is none after a page without rows. -/
inductive Walk : Option Value → List (List Answer) → Prop where
  | done {cursor : Option Value} :
    (s.after cursor count column direction).answers? I g = some [] → Walk cursor []
  | turn {cursor : Option Value} {page : List Answer} {last : Answer} {pages : List (List Answer)} :
    (s.after cursor count column direction).answers? I g = some page → page.getLast? = some last →
    Walk (some (s.cursorOf g column last)) pages → Walk cursor (page :: pages)

/-- A cursor stands before the given rest of the sorted nodes. -/
def Standing (cursor : Option Value) (rest : List ℕ) : Prop :=
  ∃ passed, s.sorted I g column direction = passed ++ rest ∧
    cursor = passed.getLast?.map (s.valueAt g column)

end

/-- A page without rows ends the walk. -/
lemma walk_done_iff {cursor : Option Value} {pages : List (List Answer)}
    (h : (s.after cursor count column direction).answers? I g = some []) :
    Walk I g s count column direction cursor pages ↔ pages = [] := by
  constructor
  · rintro (_ | ⟨hpage, hlast, -⟩)
    · rfl
    · obtain rfl := Option.some.inj (hpage.symm.trans h)
      simp at hlast
  · rintro rfl
    exact .done h

/-- A page with rows is followed by a walk from its last row. -/
lemma walk_turn_iff {cursor : Option Value} {page : List Answer} {last : Answer}
    {pages : List (List Answer)} (h : (s.after cursor count column direction).answers? I g = some page)
    (hlast : page.getLast? = some last) :
    Walk I g s count column direction cursor pages ↔
      ∃ later, pages = page :: later ∧
        Walk I g s count column direction (some (s.cursorOf g column last)) later := by
  constructor
  · rintro (hnone | ⟨hturn, hlast', hwalk⟩)
    · obtain rfl := Option.some.inj (h.symm.trans hnone)
      simp at hlast
    · obtain rfl := Option.some.inj (hturn.symm.trans h)
      obtain rfl := Option.some.inj (hlast'.symm.trans hlast)
      exact ⟨_, rfl, hwalk⟩
  · rintro ⟨later, rfl, hwalk⟩
    exact .turn h hlast hwalk

lemma standing_none : Standing I g s column direction none (s.sorted I g column direction) :=
  ⟨[], rfl, rfl⟩

/-- The cursor of the last row of a page stands before the nodes after the page. -/
lemma Standing.next {cursor : Option Value} {rest : List ℕ}
    (h : Standing I g s column direction cursor rest) {x : ℕ}
    (hx : (rest.take count).getLast? = some x) :
    Standing I g s column direction (some (s.valueAt g column x)) (rest.drop count) := by
  obtain ⟨passed, hsorted, -⟩ := h
  refine ⟨passed ++ rest.take count, ?_, ?_⟩
  · rw [List.append_assoc, List.take_append_drop, hsorted]
  · rw [List.getLast?_append, hx]
    rfl

namespace Seekable

variable (h : Seekable I g s column)

include h

/-- The page past a cursor answers the first of the nodes that the cursor stands before. -/
lemma answers_standing {cursor : Option Value} {rest : List ℕ}
    (hstanding : Standing I g s column direction cursor rest) :
    (s.after cursor count column direction).answers? I g =
      some ((rest.take count).map (s.nodeAnswer I g)) := by
  obtain ⟨passed, hsorted, rfl⟩ := hstanding
  rcases List.eq_nil_or_concat' passed with rfl | ⟨init, x, rfl⟩
  · obtain ⟨q, hq⟩ := h.written
    obtain ⟨r, b, hc⟩ := compiled_of_select hq
    rw [List.getLast?_nil, Option.map_none, after_none,
      answers_seeking hc h.offset h.distinct h.names (h.arranges direction), hsorted,
      List.nil_append]
  · rw [List.getLast?_concat, Option.map_some]
    have hsplit : s.sorted I g column direction = init ++ x :: rest := by
      rw [hsorted, List.append_assoc, List.singleton_append]
    exact h.answers_after direction hsplit

/-- There is one way to walk on, along the pieces of what is left. -/
theorem walk_iff (hcount : 1 ≤ count) {cursor : Option Value} {rest : List ℕ}
    (hstanding : Standing I g s column direction cursor rest) {pages : List (List Answer)} :
    Walk I g s count column direction cursor pages ↔
      pages = (chunks count rest).map (·.map (s.nodeAnswer I g)) := by
  induction hlength : rest.length using Nat.strong_induction_on generalizing rest cursor pages with
  | _ length ih =>
      have hanswers : (s.after cursor count column direction).answers? I g = _ :=
        h.answers_standing hstanding
      by_cases hrest : rest = []
      · rw [hrest, List.take_nil, List.map_nil] at hanswers
        rw [hrest, chunks_nil, List.map_nil]
        exact walk_done_iff hanswers
      · have hshorter : (rest.drop count).length < length := by
          have := List.length_pos_iff.mpr hrest
          rw [List.length_drop]
          omega
        have hpage : rest.take count ≠ [] := by
          simpa [hrest] using Nat.one_le_iff_ne_zero.mp hcount
        obtain ⟨x, hx⟩ : ∃ x, (rest.take count).getLast? = some x :=
          ⟨_, List.getLast?_eq_some_getLast hpage⟩
        have hlast : ((rest.take count).map (s.nodeAnswer I g)).getLast? =
            some (s.nodeAnswer I g x) := by rw [List.getLast?_map, hx, Option.map_some]
        have hlater (later : List (List Answer)) :
            Walk I g s count column direction (some (s.valueAt g column x)) later ↔
              later = (chunks count (rest.drop count)).map (·.map (s.nodeAnswer I g)) :=
          ih _ hshorter (hstanding.next hx) rfl
        rw [chunks_of_ne_nil hcount hrest, List.map_cons]
        refine (walk_turn_iff hanswers hlast).trans ⟨?_, fun hpages => ⟨_, hpages, ?_⟩⟩
        · rintro ⟨later, rfl, hwalk⟩
          rw [(hlater later).mp hwalk]
        · exact (hlater _).mpr rfl

/-- The way back from a page leads to the page before it. -/
lemma answers_back (hcount : 1 ≤ count) {earlier later : List (List ℕ)} {page next : List ℕ}
    (hpages : chunks count (s.sorted I g column direction) = earlier ++ page :: next :: later) :
    ∃ x, next.head? = some x ∧
      (s.before (some (s.valueAt g column x)) count column direction).answers? I g =
        some (page.map (s.nodeAnswer I g)).reverse := by
  obtain ⟨hlength, hnext⟩ := chunks_split hcount hpages
  obtain ⟨x, rest, rfl⟩ := List.exists_cons_of_ne_nil hnext
  have hsorted : s.sorted I g column direction =
      (earlier.flatten ++ page) ++ x :: (rest ++ later.flatten) := by
    have hflatten := congrArg List.flatten hpages
    rw [flatten_chunks] at hflatten
    simpa using hflatten
  refine ⟨x, rfl, ?_⟩
  rw [h.answers_before direction hsorted, List.reverse_append,
    List.take_append_of_le_length (by rw [List.length_reverse, hlength]),
    List.take_of_length_le (by rw [List.length_reverse, hlength]), List.map_reverse]

end Seekable

/-- **Every row once**: walking along the pages past a cursor, from no cursor on, there is one way to
go.  Its pages put together are the rows of all nodes that are matched, sorted by the column in the
direction of the walk, and the page before the first row of a later page is the page in front of it
backwards. -/
theorem walk_visits_all (h : Seekable I g s column) (hcount : 1 ≤ count)
    (direction : SortDirection) :
    ∃ (order : List ℕ) (pages : List (List Answer)), order.Perm (s.matched I g) ∧
      order.Pairwise (fun i j => s.valueAt g column i ≠ s.valueAt g column j ∧
        I.inOrder direction (s.valueAt g column i) (s.valueAt g column j)) ∧
      (∀ walked, Walk I g s count column direction none walked ↔ walked = pages) ∧
      pages.flatten = order.map (s.nodeAnswer I g) ∧
      ∀ earlier page next later, pages = earlier ++ page :: next :: later →
        ∃ first, next.head? = some first ∧
          (s.before (some (s.cursorOf g column first)) count column direction).answers? I g =
            some page.reverse := by
  refine ⟨s.sorted I g column direction, _, List.mergeSort_perm _ _, h.pairwise_sorted direction,
    fun walked => h.walk_iff hcount standing_none, ?_, ?_⟩
  · rw [← List.map_flatten, flatten_chunks]
  · intro earlier page next later hpages
    obtain ⟨earlier', tail, hsplit, rfl, htail⟩ := List.map_eq_append_iff.mp hpages
    obtain ⟨page', tail', rfl, rfl, htail'⟩ := List.map_eq_cons_iff.mp htail
    obtain ⟨next', later', rfl, rfl, rfl⟩ := List.map_eq_cons_iff.mp htail'
    obtain ⟨x, hx, hback⟩ := h.answers_back hcount hsplit
    exact ⟨s.nodeAnswer I g x, by rw [List.head?_map, hx]; rfl, hback⟩

/-- Users of various ages. -/
def agedUsers : Graph :=
  .ofNodes [("User", [("age", .int 30), ("name", .string "Ada")]),
    ("User", [("age", .int 10), ("name", .string "Bob")]),
    ("User", [("age", .int 15), ("name", .string "Eve")]),
    ("User", [("age", .int 20), ("name", .string "Ada")])]

/-- The users of one name or another. -/
def adaOrBob : Selection :=
  ((Selection.of "User").and (.equals "name" (.string "Ada"))).or (.equals "name" (.string "Bob"))

lemma seekable_adaOrBob : Seekable .json agedUsers adaOrBob "age" := by
  have hmatched : adaOrBob.matched .json agedUsers = [0, 1, 3] := by decide
  have hvalues : [0, 1, 3].map (adaOrBob.valueAt agedUsers "age") = [.int 30, .int 10, .int 20] := by
    decide
  constructor
  · exact ⟨_, rfl⟩
  · rfl
  · rfl
  · rfl
  · decide
  · rw [hmatched, hvalues]
    decide
  · rw [hmatched]
    decide
  · rw [hmatched, hvalues]
    exact ⟨⟨by decide, by decide, by decide⟩, by decide, by decide⟩

theorem walk_visits_all_users :
    ∃ pages, (∀ walked, Walk .json agedUsers adaOrBob 2 "age" .descending none walked ↔
        walked = pages) ∧ pages.flatten.length = 3 := by
  obtain ⟨order, pages, hperm, -, hwalk, hflatten, -⟩ :=
    walk_visits_all seekable_adaOrBob (show 1 ≤ 2 by decide) .descending
  refine ⟨pages, hwalk, ?_⟩
  rw [hflatten, List.length_map, hperm.length_eq]
  decide

end Selection

end GraphMapper
