import GraphMapper.Proofs.Filter.Acceptance
import GraphMapper.Proofs.Graph.Selection

/-!
Selections that are narrowed down.

* `Filter.Readable`: filters of which the nodes matched can be told from the filter;
* `Filter.Fulfilled`, `Selection.mem_matched_iff`: a node is matched if it has the label and fulfils a
  filter that can be written;
* `Filter.fulfilled_and`, `Filter.fulfilled_merge`: one condition more, and one filter more;
* `Filter.Closed`: a filter that no later condition can be an alternative to;
* `Narrowing`, `Selection.mem_matched_narrowed` (**no way around a filter**): what is matched after a
  filter and later conditions fulfils each of them;
* `Selection.mem_matched_restrict_and`: a filter and a condition may be added in either order;
* `Selection.restrict_escaped`: an empty selection takes over the alternatives of a filter as they
  are, and a later condition narrows the last of them alone.
-/

namespace GraphMapper

open Cypher (Connective Env Expr Graph Interpretation Truth)

variable {I : Interpretation} {g : Graph}

/-! ### Filters that are read off -/

/-- The variables that a column may name: all but those that compilations give out. -/
def ownNames : Set String :=
  { name | isGenerated name = false }

/-- A filter without text written by hand, whose columns name no variable that is given out. -/
structure Filter.Readable (filter : Filter) : Prop where
  rawFree : membersRawFree filter
  within : membersWithin ownNames filter

namespace Filter

lemma within_append {names : Set String} {first second : Filter} (h : membersWithin names first)
    (h' : membersWithin names second) : membersWithin names (first ++ second) := by
  induction first with
  | nil => exact h'
  | cons clause rest ih =>
      rw [membersWithin] at h
      rw [List.cons_append, membersWithin]
      exact ⟨h.1, ih h.2⟩

namespace Readable

variable {first second : Filter}

lemma append (h : first.Readable) (h' : second.Readable) : Readable (first ++ second) :=
  ⟨by rw [rawFree_append, h.rawFree, h'.rawFree]; rfl, within_append h.within h'.within⟩

lemma group (h : first.Readable) (joiner : Option Connective) :
    Readable [⟨joiner, false, .group first⟩] where
  rawFree := by simp [membersRawFree, Clause.rawFree, Condition.rawFree, h.rawFree]
  within := by
    rw [membersWithin, Clause.Within, Condition.Within]
    exact ⟨h.within, trivial⟩

lemma merge (h : first.Readable) (h' : second.Readable) : (Filter.merge first second).Readable := by
  rw [Filter.merge]
  split_ifs
  · exact h
  · exact h'
  · exact (h.group _).append (h'.group _)
  · exact h.append (h'.group _)

end Readable

/-! ### Fulfilled filters -/

/-- A filter can be written, and the node with the variable `binder` fulfils it. -/
def Fulfilled (I : Interpretation) (g : Graph) (binder : String) (filter : Filter) (i : ℕ) : Prop :=
  membersAccepted 0 filter ∧ filter.holds I g (nodeRow binder i) i

variable {binder : String} {i : ℕ}

lemma fulfilled_nil : Fulfilled I g binder [] i :=
  ⟨rfl, rfl⟩

/-- **One condition more**: it has to be fulfilled as well as a filter without alternatives. -/
theorem fulfilled_and {filter : Filter} (h : filter.hasAlternatives = false) (c : Condition) :
    (filter.and c).Fulfilled I g binder i ↔
      filter.Fulfilled I g binder i ∧ (Filter.and [] c).Fulfilled I g binder i := by
  have hmore : (filter.and c).hasAlternatives = false :=
    (hasAlternatives_concat_and filter false c).trans h
  rw [Fulfilled, Fulfilled, Fulfilled, holds_iff_of_and hmore, holds_iff_of_and h]
  rw [Filter.and, Filter.and, List.nil_append, accepted_append, accepted_singleton,
    accepted_singleton, Bool.and_eq_true, List.forall_mem_append, List.forall_mem_singleton]
  exact and_and_and_comm

/-- A group is fulfilled if its filter is. -/
lemma fulfilled_group (filter : Filter) :
    (Filter.and [] (.group filter)).Fulfilled I g binder i ↔ filter.Fulfilled I g binder i := by
  rw [Fulfilled, Fulfilled, Filter.and, List.nil_append, accepted_singleton, holds_group,
    Condition.accepted]

/-- **One filter more**: a merge is fulfilled if both filters are. -/
theorem fulfilled_merge (first second : Filter) :
    (merge first second).Fulfilled I g binder i ↔
      first.Fulfilled I g binder i ∧ second.Fulfilled I g binder i := by
  rw [merge]
  split_ifs with hsecond hfirst halternatives
  · rw [List.isEmpty_iff.mp hsecond]
    exact ⟨fun h => ⟨h, fulfilled_nil⟩, fun h => h.1⟩
  · rw [List.isEmpty_iff.mp hfirst]
    exact ⟨fun h => ⟨fulfilled_nil, h⟩, fun h => h.2⟩
  · rw [fulfilled_and rfl, fulfilled_group, fulfilled_group]
  · rw [fulfilled_and (by simpa using halternatives), fulfilled_group]

/-! ### Closed filters -/

/-- A filter that a later condition cannot be an alternative to. -/
structure Closed (filter : Filter) : Prop where
  ne_nil : filter ≠ []
  hasAlternatives : filter.hasAlternatives = false

lemma Closed.and {filter : Filter} (h : filter.Closed) (c : Condition) : (filter.and c).Closed :=
  ⟨by simp [Filter.and], (hasAlternatives_concat_and filter false c).trans h.hasAlternatives⟩

/-- A merge is closed, unless an empty filter takes over what has alternatives. -/
lemma closed_merge {first second : Filter} (hsecond : second ≠ [])
    (hsafe : first ≠ [] ∨ second.hasAlternatives = false) : (merge first second).Closed := by
  rw [merge, if_neg (by simpa using hsecond)]
  split_ifs with hfirst halternatives
  · exact ⟨hsecond, hsafe.resolve_left (not_not_intro (List.isEmpty_iff.mp hfirst))⟩
  · exact ⟨by simp [Filter.and], rfl⟩
  · exact ⟨by simp [Filter.and],
      (hasAlternatives_concat_and first false _).trans (by simpa using halternatives)⟩

lemma Closed.merge {filter : Filter} (h : filter.Closed) (more : Filter) :
    (Filter.merge filter more).Closed := by
  by_cases hmore : more = []
  · rw [hmore, Filter.merge]
    exact h
  · exact closed_merge hmore (.inl h.ne_nil)

end Filter

/-- The nodes that are matched are those of the label that fulfil the filter. -/
theorem Selection.mem_matched_iff {s : Selection} (hbinder : isGenerated s.binder = false)
    (h : Filter.Readable s.filter) {i : ℕ} :
    i ∈ s.matched I g ↔ i ∈ g.labelled s.label ∧ s.filter.Fulfilled I g s.binder i := by
  have hdecided := compileChain_decided s.filter s.binder 0 none {}
  rw [Filter.Fulfilled, ← hdecided]
  cases hc : s.compiled with
  | error e =>
      have hfails : ((compileChain s.binder 0 none s.filter).on {}).1.isOk = false := by
        rw [Selection.compiled, Compiling.start_eq, Filter.compile] at hc
        rcases hon : (compileChain s.binder 0 none s.filter).on {} with ⟨e' | r, b⟩
        · rfl
        · simp [hon] at hc
      simp [Selection.matched, hc, hfails]
  | ok c =>
      obtain ⟨r, b⟩ := c
      have hon := Selection.on_of_compiled hc
      have hsucceeds : ((compileChain s.binder 0 none s.filter).on {}).1.isOk = true := by
        rw [← Filter.compile, hon]
        rfl
      have hsees : Sees ownNames (nodeRow s.binder i) s.binder i 0 (nodeRow s.binder i) :=
        sees_nodeRow hbinder fun _ _ => rfl
      have htruth := Filter.compile_truth (I := I) (g := g) (fun name hname => hname) h.rawFree
        h.within hon b.supplies_parameters hsees
      rw [Selection.matched_of_compiled hc, List.mem_filter, htruth, hsucceeds]
      simp

/-! ### Narrowing down -/

/-- A later narrowing of a selection: one condition, or a whole filter. -/
inductive Narrowing where
  | condition (c : Condition)
  | filter (filter : Filter)

namespace Narrowing

/-- What is asked for on its own. -/
def asked : Narrowing → Filter
  | condition c => Filter.and [] c
  | filter f => f

/-- The filter after a narrowing. -/
def narrow (f : Filter) : Narrowing → Filter
  | condition c => f.and c
  | filter more => Filter.merge f more

/-- The selection after a narrowing. -/
def apply (s : Selection) (call : Narrowing) : Selection :=
  { s with filter := call.narrow s.filter }

variable {f : Filter} {call : Narrowing}

lemma readable_narrow (h : f.Readable) (hcall : Filter.Readable call.asked) :
    Filter.Readable (call.narrow f) := by
  cases call with
  | condition c => exact h.append hcall
  | filter more => exact h.merge hcall

lemma closed_narrow (h : f.Closed) : Filter.Closed (call.narrow f) := by
  cases call with
  | condition c => exact h.and c
  | filter more => exact h.merge more

/-- What is asked for has to be fulfilled as well. -/
lemma fulfilled_narrow (h : f.Closed) {binder : String} {i : ℕ} :
    (call.narrow f).Fulfilled I g binder i ↔
      f.Fulfilled I g binder i ∧ call.asked.Fulfilled I g binder i := by
  cases call with
  | condition c => exact Filter.fulfilled_and h.hasAlternatives c
  | filter more => exact Filter.fulfilled_merge f more

end Narrowing

namespace Selection

variable {s : Selection} {i : ℕ}

/-- The selection with another filter. -/
def withFilter (s : Selection) (filter : Filter) : Selection :=
  { s with filter }

/-- Narrowing down a selection whose filter is closed: what is matched is matched by the selection
and fulfils all that is asked for. -/
theorem mem_matched_foldl (hbinder : isGenerated s.binder = false) (h : Filter.Readable s.filter)
    (hclosed : Filter.Closed s.filter) {calls : List Narrowing}
    (hcalls : ∀ call ∈ calls, Filter.Readable call.asked) :
    i ∈ (calls.foldl (fun s call => call.apply s) s).matched I g ↔
      i ∈ s.matched I g ∧ ∀ call ∈ calls, i ∈ (s.withFilter call.asked).matched I g := by
  induction calls generalizing s with
  | nil => simp
  | cons call rest ih =>
      obtain ⟨hcall, hrest⟩ := List.forall_mem_cons.mp hcalls
      have hnarrow := Narrowing.readable_narrow h hcall
      rw [List.foldl_cons, ih (s := call.apply s) hbinder hnarrow (Narrowing.closed_narrow hclosed)
        hrest, List.forall_mem_cons, ← and_assoc]
      refine and_congr_left fun _ => ?_
      rw [mem_matched_iff (s := call.apply s) hbinder hnarrow, mem_matched_iff hbinder h,
        mem_matched_iff (s := s.withFilter call.asked) hbinder hcall]
      have hfulfilled : (call.apply s).filter.Fulfilled I g (call.apply s).binder i ↔
          s.filter.Fulfilled I g s.binder i ∧ call.asked.Fulfilled I g s.binder i :=
        Narrowing.fulfilled_narrow hclosed
      rw [hfulfilled]
      exact and_and_left

/-- **No way around a filter**: after a filter and later narrowings of a selection, what is matched
fulfils the selection's own filter, the filter that was added and each of the narrowings, and all that
does so is matched.  The filter says something, and a selection without a filter takes one without
alternatives. -/
theorem mem_matched_narrowed (hbinder : isGenerated s.binder = false)
    (h : Filter.Readable s.filter) {filter : Filter} (hfilter : filter.Readable) (hne : filter ≠ [])
    (hsafe : s.filter ≠ [] ∨ filter.hasAlternatives = false) {calls : List Narrowing}
    (hcalls : ∀ call ∈ calls, Filter.Readable call.asked) :
    i ∈ (calls.foldl (fun s call => call.apply s) (s.restrict filter)).matched I g ↔
      i ∈ s.matched I g ∧ i ∈ (s.withFilter filter).matched I g ∧
        ∀ call ∈ calls, i ∈ (s.withFilter call.asked).matched I g := by
  have hclosed : Filter.Closed (s.restrict filter).filter := Filter.closed_merge hne hsafe
  have hreadable : Filter.Readable (s.restrict filter).filter := h.merge hfilter
  rw [mem_matched_foldl (s := s.restrict filter) hbinder hreadable hclosed hcalls, ← and_assoc]
  refine and_congr_left fun _ => ?_
  rw [mem_matched_iff (s := s.restrict filter) hbinder hreadable, mem_matched_iff hbinder h,
    mem_matched_iff (s := s.withFilter filter) hbinder hfilter]
  have hfulfilled : (s.restrict filter).filter.Fulfilled I g (s.restrict filter).binder i ↔
      s.filter.Fulfilled I g s.binder i ∧ filter.Fulfilled I g s.binder i :=
    Filter.fulfilled_merge s.filter filter
  rw [hfulfilled]
  exact and_and_left

/-- A filter and a condition may be added in either order to a selection without alternatives. -/
theorem mem_matched_restrict_and (hbinder : isGenerated s.binder = false)
    (h : Filter.Readable s.filter) (halternatives : s.filter.hasAlternatives = false)
    {filter : Filter} (hfilter : filter.Readable) (hne : filter ≠ [])
    (hsafe : s.filter ≠ [] ∨ filter.hasAlternatives = false) {c : Condition}
    (hc : Filter.Readable (Filter.and [] c)) :
    i ∈ ((s.restrict filter).and c).matched I g ↔ i ∈ ((s.and c).restrict filter).matched I g := by
  have hclosed : Filter.Closed (Filter.merge s.filter filter) := Filter.closed_merge hne hsafe
  rw [mem_matched_iff (s := (s.restrict filter).and c) hbinder ((h.merge hfilter).append hc),
    mem_matched_iff (s := (s.and c).restrict filter) hbinder ((h.append hc).merge hfilter)]
  refine and_congr_right fun _ => ?_
  have hleft : ((Filter.merge s.filter filter).and c).Fulfilled I g s.binder i ↔ _ :=
    Filter.fulfilled_and hclosed.hasAlternatives c
  have hright : (Filter.merge (s.filter.and c) filter).Fulfilled I g s.binder i ↔ _ :=
    Filter.fulfilled_merge (s.filter.and c) filter
  rw [Filter.fulfilled_merge] at hleft
  rw [Filter.fulfilled_and halternatives] at hright
  refine hleft.trans (.trans ?_ hright.symm)
  exact and_right_comm

variable {first second : String}

/-- The filter that asks for one number or another. -/
def eitherOf (first second : String) : Filter :=
  [⟨none, false, .equals first (.int 1)⟩, ⟨some .or, false, .equals second (.int 2)⟩]

/-- A node that a tenant's filter lets through, and one that it does not. -/
def twoTenants : Graph :=
  .ofNodes [("User", [("a", .int 1), ("c", .int 3)]), ("User", [("a", .int 1), ("c", .int 4)])]

lemma readable_eitherOf (h : columnOwner first = "") (h' : columnOwner second = "") :
    Filter.Readable (eitherOf first second) :=
  ⟨rfl, .inl h, .inl h', trivial⟩

/-- The selection of a tenant. -/
def ofTenant : Selection :=
  (Selection.of "User").and (.equals "c" (.int 3))

theorem mem_matched_narrowed_tenant :
    0 ∈ (([.condition (.present "a"), .filter (eitherOf "a" "c")] : List Narrowing).foldl
      (fun s call => call.apply s) (ofTenant.restrict (eitherOf "a" "b"))).matched .json
        twoTenants := by
  have hreadable : Filter.Readable ofTenant.filter := ⟨rfl, .inl (by decide), trivial⟩
  refine (mem_matched_narrowed (by decide) hreadable
    (readable_eitherOf (by decide) (by decide)) (by decide) (.inl (by decide)) ?_).mpr
      ⟨by decide, by decide, by decide⟩
  intro call hcall
  rcases List.mem_pair.mp hcall with rfl | rfl
  · exact ⟨rfl, .inl (by decide), trivial⟩
  · exact readable_eitherOf (by decide) (by decide)

/-- An empty selection takes over the alternatives of a filter as they are, so that a later condition
narrows the last of them alone. -/
theorem restrict_escaped :
    ¬ ∀ (filter : Filter) (c : Condition) (i : ℕ),
      i ∈ (((Selection.of "User").restrict filter).and c).matched .json twoTenants →
        i ∈ ((Selection.of "User").and c).matched .json twoTenants := by
  intro h
  have h1 := h (eitherOf "a" "b") (.equals "c" (.int 3)) 1 (by decide)
  exact absurd h1 (by decide)

end Selection

end GraphMapper
