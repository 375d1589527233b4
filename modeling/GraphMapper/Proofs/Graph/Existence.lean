import GraphMapper.Proofs.Graph.Lookup
import GraphMapper.Proofs.Value.Keys

/-!
The condition that something is related, and the lookup of the same relation.

* `Relation.exists_truth_iff`: the condition is true of the nodes that lead to one that the scope
  allows;
* `Relation.exists_row_iff`: a lookup has a row for a key that leads to such a node;
* `Relation.lookup_iff_having` (**filters and lookups agree**): the lookup of a key has a row for it
  just if the condition is true of a parent with that key.
-/

namespace GraphMapper

open Cypher (Connective Env Expr Graph Interpretation Truth)

variable {I : Interpretation} {g : Graph}

lemma Compiling.start_eq_ok {α : Type} {c : Compiling α} {a : α} {b : Bindings} :
    c.start = .ok (a, b) ↔ c.on {} = (.ok a, b) := by
  rw [Compiling.start_eq]
  rcases c.on {} with ⟨e | a', b'⟩ <;> simp

/-! ### Conditions -/

namespace Relation

variable {r : Relation}

lemma having_accepted (r : Relation) :
    (r.having []).accepted = membersAccepted 0 r.finalScope.filter := by
  rw [having, Condition.accepted, Filter.merge]
  rfl

/-- What is written of the condition is true of a node that leads to one that the scope allows. -/
lemma truth_of_having (hI : I.EqualsJson) (hpivots : r.HasPivots) (hplain : r.Plain)
    {binder : String} (hbinder : isGenerated binder = false) (i : ℕ) {c : Option Expr} {b : Bindings}
    (h : ((r.having []).compile binder).on {} = (.ok c, b)) :
    ∃ e, c = some e ∧ e.truth I g b.parameters (nodeRow binder i) =
      .ofBool ((r.reached g i).any (r.finalScope.filter.holds I g .empty)) := by
  have hraw : (r.having []).rawFree := by
    rw [having, Condition.rawFree]
    exact hplain.rawFree
  have hwithin : (r.having []).Within ∅ := by
    rw [having, Condition.Within]
    exact ⟨r.correlation_within hpivots hplain.keys ∅, hplain.within⟩
  have hmeans : Means I g b.parameters (nodeRow binder i) c ((r.having []).meaning I g .empty i) :=
    Condition.compile_meaning (by simp) _ hraw hwithin h b.supplies_parameters
      (sees_nodeRow hbinder (by simp))
  have hmeaning : (r.having []).meaning I g .empty i =
      some (.ofBool ((r.reached g i).any (r.finalScope.filter.holds I g .empty))) := by
    rw [having, Condition.meaning, r.correlation_reached hI hpivots hplain.keys]
    rfl
  rw [hmeaning] at hmeans
  cases c with
  | none => simp [Means] at hmeans
  | some e =>
      have he : e.operands I g b.parameters (nodeRow binder i) = [(Connective.and, _)] :=
        Option.some.inj hmeans
      exact ⟨e, rfl, by rw [Expr.truth, he, Truth.chain_singleton]⟩

/-- The condition can be written if the scope can, and it is true of the nodes that lead to one that
the scope allows. -/
theorem exists_truth_iff (hI : I.EqualsJson) (hpivots : r.HasPivots) (hplain : r.Plain)
    {binder : String} (hbinder : isGenerated binder = false) (i : ℕ) :
    (∃ e b, ((r.having []).compile binder).start = .ok (some e, b) ∧
        e.truth I g b.parameters (nodeRow binder i) = .yes) ↔
      membersAccepted 0 r.finalScope.filter ∧
        ∃ j ∈ r.reached g i, r.finalScope.filter.holds I g .empty j := by
  have hdecided := (r.having []).compile_decided binder {}
  rw [having_accepted] at hdecided
  rw [← hdecided, ← List.any_eq_true]
  simp only [Compiling.start_eq_ok]
  rcases hc : ((r.having []).compile binder).on {} with ⟨cause | c, b⟩
  · simp [Except.isOk, Except.toBool]
  · obtain ⟨e, rfl, htruth⟩ := truth_of_having (g := g) hI hpivots hplain hbinder i hc
    have hyes : e.truth I g b.parameters (nodeRow binder i) = .yes ↔
        (r.reached g i).any (r.finalScope.filter.holds I g .empty) := by
      rw [htruth]
      simp
    constructor
    · rintro ⟨e', b', hsame, ht⟩
      obtain ⟨rfl, rfl⟩ : e = e' ∧ b = b' := by simpa using hsame
      exact ⟨rfl, hyes.mp ht⟩
    · rintro ⟨-, hany⟩
      exact ⟨e, b, rfl, hyes.mpr hany⟩

/-! ### Lookups -/

/-- A lookup has a row for a key if the key leads to a node that the scope allows. -/
theorem exists_row_iff (hI : I.EqualsJson) (hpivots : r.HasPivots) (hplain : r.Plain) {k : Value}
    (hk : k ≠ .null) :
    (∃ l, r.lookup [k] = .ok l ∧
        ∃ row ∈ l.statement.answer I g, row.get? parentKeyColumn = some k) ↔
      membersAccepted 0 r.finalScope.filter ∧
        ∃ j ∈ (r.anchor g).led g k, r.finalScope.filter.holds I g .empty j := by
  rw [← r.lookup_isOk [k]]
  cases hl : r.lookup [k] with
  | error e => simp [Except.isOk, Except.toBool]
  | ok l =>
      have hanswer := lookup_answer (g := g) hI hpivots hplain hl
      rw [Value.distinctKeys_singleton hk] at hanswer
      have hrow : (∃ row ∈ l.statement.answer I g, row.get? parentKeyColumn = some k) ↔
          ∃ j ∈ (r.anchor g).led g k, r.finalScope.filter.holds I g .empty j := by
        have hparents := hanswer.map Prod.fst
        rw [List.map_map, List.map_map] at hparents
        have hmem := hparents.mem_iff (a := some k)
        simp only [List.mem_map, List.mem_filter, Function.comp_apply, Lookup.told, tells,
          Option.some.injEq, Prod.exists] at hmem
        rw [hmem, ← Anchor.map_snd_filter_hits g (r.anchor g) (List.mem_singleton_self k) hk]
        simp only [List.mem_map, List.mem_filter, Prod.exists, exists_eq_right, decide_eq_true_eq]
        constructor
        · rintro ⟨i, j, ⟨hhit, hholds⟩, hkey⟩
          exact ⟨j, ⟨i, hhit, hkey⟩, hholds⟩
        · rintro ⟨j, ⟨i, hhit, hkey⟩, hholds⟩
          exact ⟨i, j, ⟨hhit, hholds⟩, hkey⟩
      constructor
      · rintro ⟨l', hsame, hex⟩
        obtain rfl := Except.ok.inj hsame
        exact ⟨rfl, hrow.mp hex⟩
      · rintro ⟨-, hex⟩
        exact ⟨l, rfl, hrow.mpr hex⟩

/-- A key of parents leads to what any of these leads to. -/
lemma mem_led_iff (hpivots : r.HasPivots) {p : ℕ} (hp : p ∈ g.labelled r.parentLabel)
    (hk : g.value p r.parentKey ≠ .null) {j : ℕ} :
    j ∈ (r.anchor g).led g (g.value p r.parentKey) ↔
      ∃ i ∈ g.labelled r.parentLabel, g.value i r.parentKey = g.value p r.parentKey ∧
        j ∈ r.reached g i := by
  cases hstart : r.startsAtParent with
  | true =>
      rw [anchor_of_startsAtParent hpivots hstart, Anchor.led, List.mem_flatMap]
      simp only [Cypher.Graph.mem_holding, and_assoc, hk, ne_eq, not_false_eq_true, true_and]
  | false =>
      constructor
      · intro hj
        rw [led_of_not_startsAtParent hpivots hstart] at hj
        exact ⟨p, hp, rfl, hj⟩
      · rintro ⟨i, -, hi, hj⟩
        rwa [← hi, led_of_not_startsAtParent hpivots hstart]

/-- **Filters and lookups agree**: the lookup of a parent's key has a row for it just if the condition
that something is related is true of some parent with that key. -/
theorem lookup_iff_having (hI : I.EqualsJson) (haccepted : r.Accepted) (hplain : r.Plain) {p : ℕ}
    (hp : p ∈ g.labelled r.parentLabel) {k : Value} (hpk : g.value p r.parentKey = k)
    (hk : k ≠ .null)
    {binder : String} (hbinder : isGenerated binder = false) :
    (∃ l, r.lookup [k] = .ok l ∧
        ∃ row ∈ l.statement.answer I g, row.get? parentKeyColumn = some k) ↔
      ∃ i ∈ g.labelled r.parentLabel, g.value i r.parentKey = k ∧
        ∃ e b, ((r.having []).compile binder).start = .ok (some e, b) ∧
          e.truth I g b.parameters (nodeRow binder i) = .yes := by
  subst hpk
  have hpivots := haccepted.hasPivots
  rw [exists_row_iff hI hpivots hplain hk]
  simp only [exists_truth_iff hI hpivots hplain hbinder, mem_led_iff hpivots hp hk]
  constructor
  · rintro ⟨hok, j, ⟨i, hi, hik, hj⟩, hholds⟩
    exact ⟨i, hi, hik, hok, j, hj, hholds⟩
  · rintro ⟨i, hi, hik, hok, j, hj, hholds⟩
    exact ⟨hok, j, ⟨i, hi, hik, hj⟩, hholds⟩

/-- The author of a post. -/
def postAuthor : DirectRelation where
  name := "author"
  kind := .belongsTo
  parentLabel := "Post"
  relatedLabel := "User"
  strategy := .foreignKey ⟨"id", "user_id"⟩
  pivot := none
  scope := {}

/-- The comments of a user. -/
def userComments : DirectRelation where
  name := "comments"
  kind := .hasMany
  parentLabel := "User"
  relatedLabel := "Comment"
  strategy := .foreignKey ⟨"id", "user_id"⟩
  pivot := none
  scope := {}

/-- The comments of the author of a post. -/
def authorComments : Relation :=
  .through ⟨"author_comments", .hasManyThrough, postAuthor, userComments, {}⟩

lemma authorComments_accepted : authorComments.Accepted := by
  have hfirst : Declaration.build
      { name := "author", kind := .belongsTo, parentLabel := "Post", relatedLabel := "User"
        keys := some ⟨"id", "user_id"⟩ } = .ok postAuthor := rfl
  have hsecond : Declaration.build
      { name := "comments", kind := .hasMany, parentLabel := "User", relatedLabel := "Comment"
        keys := some ⟨"id", "user_id"⟩ } = .ok userComments := rfl
  have hthrough : Relation.compose "author_comments" (.through .hasManyThrough) (.direct postAuthor)
      (.direct userComments) = .ok authorComments := rfl
  exact .composed hthrough (.built hfirst) (.built hsecond)

lemma authorComments_plain : authorComments.Plain :=
  ⟨by decide, rfl, trivial⟩

/-- An author with two posts and a comment. -/
def sharedAuthor : Graph :=
  .ofNodes [("User", [("id", .int 1)]),
    ("Post", [("id", .int 1), ("user_id", .int 1)]),
    ("Post", [("id", .int 2), ("user_id", .int 1)]),
    ("Comment", [("id", .int 1), ("user_id", .int 1)])]

theorem lookup_iff_having_shared :
    ∃ l, authorComments.lookup [.int 1] = .ok l ∧
      ∃ row ∈ l.statement.answer .json sharedAuthor, row.get? parentKeyColumn = some (.int 1) :=
  (lookup_iff_having (p := 1) Interpretation.json_equalsJson authorComments_accepted
    authorComments_plain (by decide) (by decide) (by decide)
    (show isGenerated "n" = false by decide)).mpr ⟨1, by decide, by decide, _, _, rfl, by decide⟩

end Relation

end GraphMapper
