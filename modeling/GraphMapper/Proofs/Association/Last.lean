import GraphMapper.Proofs.Association.Calls
import GraphMapper.Proofs.Pivot.Reader
import GraphMapper.Proofs.Store.Database

/-!
The last owner of a record is the one that is stored.

* `Client.Achieves.runLinks`, `Client.persistAssociations_run`: a client writes waiting changes whose
  statements the engine reads;
* `Record.Stored`: the store has a record, and the owners that its waiting changes speak of, each as one
  node; `Family.known`, `Family.apart`: what calls along a family leave can be written;
* `Family.last_association_wins` (**the last owner is stored**): after any calls, and after they are written;
  `associations_collide`: relations that share columns, and a change that waited before.
-/

namespace GraphMapper

open Cypher (Graph Interpretation Statement)

variable {I : Interpretation} {reading : Query → Option Statement} {g g' : Graph}

/-! ### Writing waiting changes -/

namespace Client

/-- Statements that return the rows that they have to are run one after the other. -/
lemma Achieves.runLinks {base : Client (Database I reading)} {owner : Owner} {t : ActiveTransaction}
    (ht : base.active.lookup owner = some t) {links : List LinkStatement}
    (hreads : ∀ s ∈ links, reading s.statement.query = some s.statement)
    (hplay : playLinks I links g = some g') :
    Achieves base owner False (Client.runLinks ⟨owner⟩ links) g fun _ g'' => g'' = g' := by
  induction links generalizing g with
  | nil => exact .pure (Option.some.inj hplay)
  | cons s rest ih =>
      rw [playLinks] at hplay
      obtain ⟨st, hrun, hrest⟩ := Option.bind_eq_some_iff.mp hplay
      have hrow : ¬ (s.linksTo.isSome && (st.answers.getD []).isEmpty) := fun h => by
        rw [if_pos h] at hrest
        cases hrest
      rw [if_neg hrow] at hrest
      have ih := ih (fun s hs => hreads s (List.mem_cons_of_mem _ hs)) hrest
      rw [Client.runLinks]
      refine Achieves.run_bind ht (hreads s List.mem_cons_self)
        (fun hnone => by cases hnone.symm.trans hrun) fun st' hrun' => ?_
      obtain rfl := Option.some.inj (hrun.symm.trans hrun')
      cases hlinks : s.linksTo with
      | none => exact ih
      | some target =>
          dsimp only
          rw [if_neg (by simpa [hlinks] using hrow)]
          exact ih

/-- **Waiting changes are written** by an idle client, and nothing of the record is another but that they
no longer wait. -/
theorem persistAssociations_run {record : Record} {links : List (List LinkStatement)}
    (hlinks : record.pending.mapM (·.statements record.attributes) = .ok links)
    (hplay : playLinks I links.flatten g = some g')
    (hreads : ∀ s ∈ links.flatten, reading s.statement.query = some s.statement)
    {c : Client (Database I reading)} (hidle : c.Idle g) (caller : Owner) :
    ∃ c', persistAssociations record caller c =
        (.ok (record.pending.length, { record with pending := [] }), c') ∧ c'.Idle g' := by
  rw [persistAssociations]
  split_ifs with hempty
  · obtain ⟨label, attributes, relations, pivot, pending⟩ := record
    obtain rfl := List.isEmpty_iff.mp hempty
    obtain rfl := Except.ok.inj hlinks
    obtain rfl := Option.some.inj hplay
    exact ⟨c, rfl, hidle⟩
  · let work (handle : Handle) : Action (Database I reading) Unit := runLinks handle links.flatten
    have hwork (base : Client (Database I reading)) (owner : Owner) (t : ActiveTransaction)
        (ht : base.active.lookup owner = some t) :
        Achieves base owner False (work ⟨owner⟩) g fun _ g'' => g'' = g' :=
      Achieves.runLinks ht hreads hplay
    obtain ⟨r, c', hrun, hr⟩ := write_spec hidle hwork caller
    cases r with
    | error e => exact absurd hr.1 not_false
    | ok x =>
        obtain ⟨_, rfl, hidle'⟩ := hr
        refine ⟨c', ?_, hidle'⟩
        rw [hlinks]
        exact (Action.bind_apply_ok rfl).trans (Action.bind_apply_ok hrun)

end Client

/-! ### Stored records -/

/-- **The store has a record** as one node, known by the keys that the relations of the given changes know
it by, and each new owner as one node.  Where a foreign key of the record is a column by which another
relation knows its owners, the record is none of these. -/
structure Record.Stored (r : Record) (changes : List EdgeChange) (i : ℕ) (g : Graph) : Prop where
  record : ∀ x ∈ changes, ∀ w, x.relation.tie? = some w →
    ∃ v, r.attributes.get? w.parentKey = some v ∧ g.holding w.parentLabel w.parentKey v = [i]
  owner : ∀ d k, .associate d k ∈ changes → ∀ w, d.tie? = some w →
    ∃ j, g.holding w.relatedLabel w.relatedKey k = [j]
  apart : ∀ x ∈ changes, ∀ y ∈ changes, x.relation.name ≠ y.relation.name → ∀ w,
    y.relation.tie? = some w → x.relation.foreign? = some w.relatedKey →
      i ∉ g.labelled w.relatedLabel

namespace Family

variable {family : List DirectRelation} {r after : Record} {done : List OwnerCall} {i : ℕ}

/-- What waits is known to a store that has the record as it was before the calls. -/
lemma known (h : Family family) (hfollows : Follows family r done after)
    (hpending : ∀ x ∈ after.pending, x.relation ∈ family) (hstored : r.Stored after.pending i g) :
    ∀ x ∈ after.pending, ∃ w, x.Known after.attributes i g w := by
  intro x hx
  have hmem := hpending x hx
  obtain ⟨edge, hedge⟩ := Option.isSome_iff_exists.mp (h.edges _ hmem)
  obtain ⟨w, hw⟩ : ∃ w, x.relation.tie? = some w :=
    ⟨_, by rw [DirectRelation.tie?, hedge, Option.map_some]⟩
  obtain ⟨hplain, hforeign⟩ := h.plain _ hmem
  obtain ⟨v, hv, hi⟩ := hstored.record x hx w hw
  refine ⟨w, hw, hplain w hw, hforeign, ⟨v, ?_, hi⟩, fun d k heq => ?_⟩
  · rw [hfollows.spared _ fun d hd => h.record d hd _ hmem w hw, hv]
  · subst heq
    exact hstored.owner d k hx w hw

/-- The changes of different relations do not get in each other's way. -/
lemma apart (h : Family family) (hpending : ∀ x ∈ after.pending, x.relation ∈ family)
    (hnodup : (after.pending.map (·.relation.name)).Nodup)
    (hstored : r.Stored after.pending i g) :
    after.pending.Pairwise (EdgeChange.Apart i g) := by
  refine (List.pairwise_map.mp hnodup).imp_of_mem fun {x y} hx hy hne => ?_
  have hmem := hpending x hx
  have hmem' := hpending y hy
  exact ⟨fun w w' hw hw' heq => hne (h.types _ hmem _ hmem' w w' hw hw' heq),
    fun column hcolumn hcolumn' => hne (h.foreign _ hmem _ hmem' column hcolumn hcolumn'),
    fun w hw => h.record _ hmem _ hmem' w hw, fun w hw => hstored.apart x hx y hy hne w hw⟩

/-- **The last owner is stored**: after any calls along a family of relations, of which any may fail, a
record shows for each relation what the last one did that succeeded.  Once the waiting changes are written
each relation that was touched has just one edge to the last owner, or none, and no other edges are
others. -/
theorem last_association_wins (hI : I.EqualsJson) (h : Family family) {calls : List OwnerCall}
    (hcalls : ∀ call ∈ calls, call.relation ∈ family)
    (hperform : OwnerCall.performAll calls r = (after, done)) :
    Follows family r done after ∧
      ∀ (i : ℕ) (g : Graph) (reading : Query → Option Statement) (c : Client (Database I reading))
        (caller : Owner), (∀ x ∈ r.pending, x.relation ∈ family) →
        (r.pending.map (·.relation.name)).Nodup → r.Stored after.pending i g → c.Idle g →
        (∀ x ∈ after.pending, ∀ links, x.statements after.attributes = .ok links →
          ∀ s ∈ links, reading s.statement.query = some s.statement) →
        ∃ c' g', Client.persistAssociations after caller c =
            (.ok (after.pending.length, { after with pending := [] }), c') ∧ c'.Idle g' ∧
          g.Rewires (EdgeChange.ties after.pending) (EdgeChange.columns after.pending) i g' ∧
          ∀ d ∈ family, ∀ w, d.tie? = some w →
            (after.waiting d.name = [] → ∀ q e, w.Joins g' i q e ↔ w.Joins g i q e) ∧
            ∀ call, lastOn d.name done = some call →
              ∃ x, call.Shown x after ∧ x.Wrote w i g g' := by
  have hfollows := h.follows hcalls r
  rw [hperform] at hfollows
  refine ⟨hfollows, fun i g reading c caller hpending hnodup hstored hidle hreads => ?_⟩
  have hpending := hfollows.pending hpending
  have hnodup := hfollows.once hnodup
  obtain ⟨links, g', hlinks, hmade, hplay, hframe, hwrote⟩ := EdgeChange.run_all hI
    (h.known hfollows hpending hstored) (h.apart hpending hnodup hstored)
  have hreads' : ∀ s ∈ links.flatten, reading s.statement.query = some s.statement := by
    intro s hs
    obtain ⟨made, hmem, hs⟩ := List.mem_flatten.mp hs
    obtain ⟨x, hx, hstatements⟩ := hmade made hmem
    exact hreads x hx made hstatements s hs
  obtain ⟨c', hrun, hidle'⟩ := Client.persistAssociations_run hlinks hplay hreads' hidle caller
  refine ⟨c', g', hrun, hidle', hframe, fun d hd w hw => ⟨fun hnone => hframe.joins ?_ i,
    fun call hlast => ?_⟩⟩
  · intro w' hw' heq
    obtain ⟨x, hx, hw'⟩ := List.mem_filterMap.mp hw'
    have hname := h.types _ (hpending x hx) d hd w' w hw' hw heq
    have hmem : x ∈ after.waiting d.name := List.mem_filter.mpr ⟨hx, decide_eq_true hname⟩
    rw [hnone] at hmem
    cases hmem
  · obtain ⟨rfl, x, hshown⟩ := hfollows.last d hd call hlast
    have hx : x ∈ after.pending :=
      List.mem_of_mem_filter (hshown.waiting.symm ▸ List.mem_singleton_self x)
    exact ⟨x, hshown, hwrote x hx w (OwnerCall.relation_change hshown.change ▸ hw)⟩

/-! ### Posts and their users -/

/-- A relation of posts to an owner, kept in edges, and in a property as well if it has keys. -/
def ofPosts (name relatedLabel edgeType : String) (keys : Option Keys) (ownerKey : String) :
    DirectRelation where
  name := name
  kind := .belongsTo
  parentLabel := "Post"
  relatedLabel := relatedLabel
  strategy := keys.elim (.nativeEdge ⟨edgeType, .outgoing⟩ "id" ownerKey) fun keys =>
    .hybrid keys ⟨edgeType, .outgoing⟩ "id" ownerKey
  pivot := none
  scope := {}

/-- The forms of the statements about the owner along a relation. -/
def ownerForms (d : DirectRelation) : List (List Cypher.Step) :=
  d.tie?.toList.flatMap fun w =>
    [(unlink d w.edge w.parentKey .null).steps,
      (link d w.edge w.parentKey w.relatedKey .null .null).steps] ++
    d.strategy.keys?.toList.map fun keys => (clearReference d keys w.parentKey .null).steps

/-- The author of a post, kept both ways. -/
def authored : DirectRelation :=
  ofPosts "author" "User" "WRITTEN_BY" (some ⟨"id", "user_id"⟩) "id"

/-- The editor of a post, kept in edges. -/
def edited : DirectRelation :=
  ofPosts "editor" "User" "EDITED_BY" none "id"

/-- A user by its number. -/
def userOf (n : ℤ) : Record :=
  .of "User" [("id", .int n)]

/-- A post with the number 1. -/
def draft : Record :=
  .of "Post" [("id", .int 1)]

/-- A post gets an author and an editor, then a user without a key, another author, and no editor. -/
def reassigned : List OwnerCall :=
  [.associate authored (userOf 7), .associate edited (userOf 8), .associate authored (.of "User" []),
    .associate authored (userOf 9), .dissociate edited]

/-- A post with an author and an editor, and a third user. -/
def press : Graph :=
  let g := Graph.ofNodes [("Post", [("id", .int 1)]), ("User", [("id", .int 7)]),
    ("User", [("id", .int 8)]), ("User", [("id", .int 9)])]
  (g.addEdge "WRITTEN_BY" 0 1 (by decide) (by decide)).addEdge "EDITED_BY" 0 2 (by decide) (by decide)

/-- A client of a store whose engine reads the statements of some relations. -/
def client (family : List DirectRelation) (g : Graph) :
    Client (Database .json (Cypher.reader (family.flatMap ownerForms))) :=
  .resting .json _ g

lemma posts : Family [authored, edited] where
  belongsTo := by decide
  edges := by decide
  names := by decide
  types d hd d' hd' := by
    simp only [List.mem_cons, List.not_mem_nil, or_false] at hd hd'
    rcases hd with rfl | rfl <;> rcases hd' with rfl | rfl <;> rintro _ _ ⟨⟩ ⟨⟩ heq
    · rfl
    · exact absurd heq (by decide)
    · exact absurd heq (by decide)
    · rfl
  foreign d hd d' hd' := by
    simp only [List.mem_cons, List.not_mem_nil, or_false] at hd hd'
    rcases hd with rfl | rfl <;> rcases hd' with rfl | rfl <;> rintro _ ⟨⟩ ⟨⟩
    rfl
  record d hd d' hd' := by
    simp only [List.mem_cons, List.not_mem_nil, or_false] at hd hd'
    rcases hd with rfl | rfl <;> rcases hd' with rfl | rfl <;> rintro _ ⟨⟩ <;> decide
  plain d hd := by
    simp only [List.mem_cons, List.not_mem_nil, or_false] at hd
    rcases hd with rfl | rfl
    · refine ⟨?_, ?_⟩
      · rintro _ ⟨⟩
        exact ⟨by decide, by decide⟩
      · rintro _ ⟨⟩
        decide
    · refine ⟨?_, ?_⟩
      · rintro _ ⟨⟩
        exact ⟨by decide, by decide⟩
      · rintro _ ⟨⟩

/-- The post has the third user as its author in the end, and no editor. -/
theorem last_association_wins_posts :
    let after := (OwnerCall.performAll reassigned draft).1
    ∃ c' g', Client.persistAssociations after (.task none) (client [authored, edited] press) =
        (.ok (2, { after with pending := [] }), c') ∧ c'.Idle g' ∧
      after.attributes.get? "user_id" = some (.int 9) ∧
      (∃ e, ∀ q e', Wiring.Joins ⟨"Post", "User", ⟨"WRITTEN_BY", .outgoing⟩, "id", "id"⟩ g' 0 q e' ↔
        q = 3 ∧ e' = e) ∧
      ∀ e, ¬ Wiring.At ⟨"Post", "User", ⟨"EDITED_BY", .outgoing⟩, "id", "id"⟩ g' 0 e := by
  intro after
  have hcalls : ∀ call ∈ reassigned, call.relation ∈ [authored, edited] := by
    simp [reassigned, OwnerCall.relation]
  obtain ⟨-, hstore⟩ := last_association_wins (r := draft) Cypher.Interpretation.json_equalsJson posts
    hcalls (Prod.eta _).symm
  have hpending : after.pending = [.associate authored (.int 9), .dissociate edited] := rfl
  have hstored : draft.Stored after.pending 0 press := by
    rw [hpending]
    refine ⟨fun x hx w hw => ?_, fun d k hx w hw => ?_, fun x hx y hy hne w hw hcolumn => ?_⟩
    · refine ⟨.int 1, ?_⟩
      simp only [List.mem_cons, List.not_mem_nil, or_false] at hx
      rcases hx with rfl | rfl <;> cases hw <;> exact ⟨rfl, by decide +kernel⟩
    · refine ⟨3, ?_⟩
      simp only [List.mem_cons, List.not_mem_nil, or_false, reduceCtorEq] at hx
      obtain ⟨rfl, rfl⟩ := EdgeChange.associate.inj hx
      cases hw
      decide +kernel
    · simp only [List.mem_cons, List.not_mem_nil, or_false] at hx hy
      rcases hx with rfl | rfl <;> rcases hy with rfl | rfl <;> cases hw <;> revert hcolumn <;> decide
  have hdistinct : ((([authored, edited].flatMap ownerForms)).map Cypher.stepsText).Nodup := by
    decide +kernel
  obtain ⟨c', g', hrun, hidle, -, hlast⟩ := hstore 0 press _ (client [authored, edited] press)
    (.task none) (by simp [draft, Record.of]) (by simp [draft, Record.of]) hstored
    (Client.resting_idle press) (fun x hx links hlinks s hs => Cypher.reader_query hdistinct (by
      rw [hpending] at hx
      simp only [List.mem_cons, List.not_mem_nil, or_false] at hx
      rcases hx with rfl | rfl
      · obtain rfl := Except.ok.inj hlinks
        simp only [List.mem_cons, List.not_mem_nil, or_false] at hs
        rcases hs with rfl | rfl
        · exact List.mem_of_getElem? (i := 0) rfl
        · exact List.mem_of_getElem? (i := 1) rfl
      · obtain rfl := Except.ok.inj hlinks
        obtain rfl := List.mem_singleton.mp hs
        exact List.mem_of_getElem? (i := 3) rfl))
  refine ⟨c', g', hrun, hidle, rfl, ?_, ?_⟩
  · obtain ⟨x, hshown, hwrote⟩ := (hlast authored (by simp) _ rfl).2 (.associate authored (userOf 9)) rfl
    obtain rfl := Option.some.inj hshown.change
    obtain ⟨j, e, hj, hjoins⟩ := hwrote.associated authored (.int 9) rfl
    have hthird : press.holding "User" "id" (.int 9) = [3] := by decide +kernel
    obtain rfl : 3 = j := List.singleton_inj.mp (hthird.symm.trans hj)
    exact ⟨e, hjoins⟩
  · obtain ⟨x, hshown, hwrote⟩ := (hlast edited (by simp) _ rfl).2 (.dissociate edited) rfl
    obtain rfl := Option.some.inj hshown.change
    exact hwrote.dissociated edited rfl

/-- The editor of a post, under the foreign key that is the author's as well. -/
def coauthored : DirectRelation :=
  ofPosts "editor" "User" "EDITED_BY" (some ⟨"id", "user_id"⟩) "id"

/-- The author of a post, whose foreign key is the post's own key. -/
def replaced : DirectRelation :=
  ofPosts "author" "User" "WRITTEN_BY" (some ⟨"id", "id"⟩) "id"

/-- The post that a post continues, whose foreign key is the column by which the origin is known. -/
def continued : DirectRelation :=
  ofPosts "previous" "Post" "CONTINUES" (some ⟨"id", "code"⟩) "id"

/-- The post that a post comes from. -/
def derived : DirectRelation :=
  ofPosts "origin" "Post" "COMES_FROM" none "code"

/-- The author of a post, by a column that is named with another variable. -/
def qualified : DirectRelation :=
  ofPosts "author" "User" "WRITTEN_BY" none "users.id"

/-- Three posts and a user. -/
def shelf : Graph :=
  .ofNodes [("Post", [("id", .int 1)]), ("Post", [("id", .int 7)]),
    ("Post", [("code", .int 7), ("id", .int 8)]), ("User", [("id", .int 7), ("users.id", .int 7)])]

/-- The relations can be declared. -/
lemma build_ofPosts (name relatedLabel ownerKey : String) {edgeType : String} {keys : Option Keys}
    (hedge : edgeType.isEmpty = false)
    (hkeys : keys.all (fun keys => !keys.localKey.isEmpty && !keys.foreignKey.isEmpty)) :
    ∃ declaration : Declaration,
      declaration.build = .ok (ofPosts name relatedLabel edgeType keys ownerKey) := by
  let declaration : Declaration :=
    { name, relatedLabel, kind := .belongsTo, parentLabel := "Post", relatedKey := ownerKey
      strategy := if keys.isSome then .hybrid else .nativeEdge
      keys := keys, edge := some ⟨edgeType, .outgoing⟩ }
  have hgiven : declaration.givenKeys? = keys := by
    rw [Declaration.givenKeys?]
    cases keys with
    | none => rfl
    | some keys => exact Option.filter_eq_some_iff.mpr ⟨rfl, hkeys⟩
  have hedge : declaration.givenEdge? = some ⟨edgeType, .outgoing⟩ := by
    rw [Declaration.givenEdge?]
    exact Option.filter_eq_some_iff.mpr ⟨rfl, by simpa using hedge⟩
  refine ⟨declaration, ?_⟩
  rw [Declaration.build, Declaration.resolveStrategy, hgiven, hedge]
  cases keys <;> rfl

/-- Relations that share columns: the foreign key is that of the last call along either of two relations
that share it; one that takes the place of the record's key ties another node to the owner; one that is the
column of another relation's owners makes the record one of these, so that there are two edges; and a
column that is named with another variable finds no owner.  A change that waited before the calls is
written with theirs. -/
theorem associations_collide :
    let shared := OwnerCall.performAll
      [.associate authored (userOf 7), .associate coauthored (userOf 8)] draft
    let own := OwnerCall.performAll [.associate replaced (userOf 7)] draft
    let tied := (Client.persistAssociations own.1 (.task none) (client [replaced] shelf)).2.engine.graph
    let both := OwnerCall.performAll [.associate continued (.of "Post" [("id", .int 7)]),
      .associate derived (.of "Post" [("code", .int 7), ("id", .int 8)])] draft
    let twice := (Client.persistAssociations both.1 (.task none)
      (client [continued, derived] shelf)).2.engine.graph
    let other := OwnerCall.performAll
      [.associate qualified (.of "User" [("users.id", .int 7)])] draft
    let more := OwnerCall.performAll [.associate authored (userOf 9)]
      { draft with pending := [.dissociate edited] }
    let written := (Client.persistAssociations more.1 (.task none)
      (client [authored, edited] press)).2.engine.graph
    (∀ d ∈ [authored, edited, coauthored, replaced, continued, derived, qualified],
      ∃ declaration : Declaration, declaration.build = .ok d) ∧
    (lastOn "author" shared.2 = some (.associate authored (userOf 7)) ∧
      shared.1.attributes.get? "user_id" = some (.int 8)) ∧
    (tied.between "WRITTEN_BY" .outgoing 0 3 = [] ∧
      (tied.between "WRITTEN_BY" .outgoing 1 3).length = 1) ∧
    (shelf.holding "Post" "code" (.int 7) = [2] ∧
      (twice.between "COMES_FROM" .outgoing 0 0).length = 1 ∧
      (twice.between "COMES_FROM" .outgoing 0 2).length = 1) ∧
    (Client.persistAssociations other.1 (.task none) (client [qualified] shelf)).1.isOk = false ∧
    ((press.between "EDITED_BY" .outgoing 0 2).length = 1 ∧
      written.between "EDITED_BY" .outgoing 0 2 = []) := by
  intro shared own tied both twice other more written
  refine ⟨fun d hd => ?_, ⟨rfl, rfl⟩, ⟨by decide +kernel, by decide +kernel⟩,
    ⟨by decide +kernel, by decide +kernel, by decide +kernel⟩, by decide +kernel,
    by decide +kernel, by decide +kernel⟩
  simp only [List.mem_cons, List.not_mem_nil, or_false] at hd
  rcases hd with rfl | rfl | rfl | rfl | rfl | rfl | rfl <;>
    exact build_ofPosts _ _ _ (by decide) (by decide)

end Family

end GraphMapper
