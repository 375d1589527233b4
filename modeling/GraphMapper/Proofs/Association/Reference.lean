import GraphMapper.Proofs.Association.Last

/-!
What a record stores to refer to its owner.

* `EdgeChange.statements_associate_eq_ok`, `EdgeChange.exists_statements`: the statements of a new owner
  are made just for a record with its key, and they are among those of all waiting changes;
* `LinkStatement.Refers`, `link_refers`: the statement that ties a record to its owner sets the foreign key
  to the key of the change;
* `Record.associate_stores_key` (**one key everywhere**): the foreign key in memory, the waiting change and
  the stored foreign key are one key of the owner; `Record.number_not_stored`: it need not be the declared
  one.
-/

namespace GraphMapper

open Cypher (Interpretation Property Step parameterValue)

/-! ### Statements of a new owner -/

namespace EdgeChange

variable {d : DirectRelation} {w : Wiring} {k : Value} {attributes : Row}

lemma statements_associate_eq_ok (hw : d.tie? = some w) {links : List LinkStatement}
    (h : (EdgeChange.associate d k).statements attributes = .ok links) :
    ∃ v, attributes.get? w.parentKey = some v ∧
      ⟨link d w.edge w.parentKey w.relatedKey v k, some (d.relatedLabel, k)⟩ ∈ links := by
  rcases DirectRelation.parentValue_cases d.name w.parentKey attributes with ⟨v, hv, hnull⟩ | hfail
  · rw [statements_associate hw hv hnull] at h
    obtain rfl := Except.ok.inj h
    exact ⟨v, hv, List.mem_cons_of_mem _ (List.mem_singleton_self _)⟩
  · rw [statements, relation, (DirectRelation.tie?_eq_some hw).1] at h
    dsimp only at h
    rw [hfail] at h
    cases h

/-- The statements of a waiting change are among those that are written. -/
lemma exists_statements {changes : List EdgeChange} {links : List (List LinkStatement)}
    (h : changes.mapM (·.statements attributes) = .ok links) {x : EdgeChange} (hx : x ∈ changes) :
    ∃ made ∈ links, x.statements attributes = .ok made := by
  induction changes generalizing links with
  | nil => cases hx
  | cons y rest ih =>
      rw [List.mapM_cons] at h
      cases hy : y.statements attributes with
      | error e =>
          rw [hy] at h
          cases h
      | ok made =>
          cases hrest : rest.mapM (·.statements attributes) with
          | error e =>
              rw [hy, hrest] at h
              cases h
          | ok more =>
              rw [hy, hrest] at h
              obtain rfl := Except.ok.inj h
              rcases List.mem_cons.mp hx with rfl | hx
              · exact ⟨made, List.mem_cons_self, hy⟩
              · obtain ⟨made', hmem, hmade⟩ := ih hrest hx
                exact ⟨made', List.mem_cons_of_mem _ hmem, hmade⟩

end EdgeChange

/-- **A statement makes records refer to an owner**: it sets their foreign key to a key, and a record that
is tied to an owner with this key has it then. -/
structure LinkStatement.Refers (s : LinkStatement) (w : Wiring) (column : String) (v k : Value) :
    Prop where
  step : Step.set [.assign (Property.ofColumn parentVariable column) (.parameter "p2")] ∈
    s.statement.steps
  parameter : parameterValue s.statement.parameters "p2" = k
  stored : ∀ I : Interpretation, I.EqualsJson → w.Plain → columnOwner column = "" →
    ∀ g, ∃ st, s.statement.run I g = some st ∧
      ∀ i ∈ g.holding w.parentLabel w.parentKey v, g.holding w.relatedLabel w.relatedKey k ≠ [] →
        st.graph.value i column = k

lemma link_refers {d : DirectRelation} {keys : Keys} (hkeys : d.strategy.keys? = some keys)
    {w : Wiring} (hw : d.tie? = some w) (v k : Value) (target : Option (String × Value)) :
    LinkStatement.Refers ⟨link d w.edge w.parentKey w.relatedKey v k, target⟩ w keys.foreignKey v k := by
  have hwiring := (DirectRelation.tie?_eq_some hw).2
  have hforeign : d.foreign? = some keys.foreignKey := by rw [DirectRelation.foreign?, hkeys]; rfl
  refine ⟨?_, ?_, fun I hI hplain hcolumn g => ?_⟩
  · change _ ∈ (link d w.edge w.parentKey w.relatedKey v k).steps
    rw [link_steps, hkeys]
    exact List.mem_append_left _ (List.mem_append_right _ (List.mem_singleton_self _))
  · exact link_p2 _ _ _ _ _ _ (by rw [hkeys]; rfl)
  · have hplain : (d.wiring w.edge w.parentKey w.relatedKey).Plain := hwiring.symm ▸ hplain
    obtain ⟨made, g₁, st, -, hrun, -, -, hmade, -, hsets⟩ := link_run hI hplain
      (fun column h => Option.some.inj (hforeign.symm.trans h) ▸ hcolumn) v k g
    refine ⟨st, hrun, fun i hi hne => EdgeChange.value_reference hsets ?_ hforeign⟩
    obtain ⟨j, hj⟩ := List.exists_mem_of_ne_nil _ hne
    -- the record and this owner are one of the couples for which an edge is made
    have hcouple : (i, j) ∈ made.map Prod.fst := by
      rw [hmade, hwiring]
      exact List.mem_product.mpr ⟨hi, hj⟩
    obtain ⟨m, hm, heq⟩ := List.mem_map.mp hcouple
    exact ⟨m, hm, congrArg Prod.fst heq⟩

/-! ### The key of an owner -/

/-- Without edges an owner is known by the declared key. -/
lemma DirectRelation.relatedKey_of_tie?_eq_none {d : DirectRelation} {keys : Keys}
    (hkind : d.kind = .belongsTo) (hkeys : d.strategy.keys? = some keys) (hnone : d.tie? = none) :
    d.relatedKey = keys.localKey := by
  rw [DirectRelation.tie?, Option.map_eq_none_iff] at hnone
  rw [DirectRelation.relatedKey]
  cases hstrategy : d.strategy with
  | foreignKey keys' =>
      rw [hstrategy] at hkeys
      obtain rfl := Option.some.inj hkeys
      simp only [hkind]
  | nativeEdge edge parentKey relatedKey =>
      rw [hstrategy] at hnone
      cases hnone
  | hybrid keys' edge parentKey relatedKey =>
      rw [hstrategy] at hnone
      cases hnone

namespace Record

open Family (ofPosts build_ofPosts draft)

variable {d : DirectRelation} {keys : Keys} {r r' owner : Record}

/-- **One key everywhere**: a record refers to its new owner by the key by which the relation's writes know
owners, in memory and in what is written later.  It is the declared key of the owner where the relation
keeps no edges, and otherwise just if the owner has the same value in both columns. -/
theorem associate_stores_key (hkeys : d.strategy.keys? = some keys)
    (h : r.associate (.direct d) owner = .ok r') :
    ∃ k, owner.get? d.relatedKey = some k ∧ r'.attributes.get? keys.foreignKey = some k ∧
      (r'.attributes.get? keys.foreignKey = owner.get? keys.localKey ↔
        (d.tie?.isSome → owner.get? keys.localKey = owner.get? d.relatedKey)) ∧
      ∀ w, d.tie? = some w → r'.waiting d.name = [.associate d k] ∧
        ∀ (later : Record) (links : List (List LinkStatement)), .associate d k ∈ later.pending →
          later.pending.mapM (·.statements later.attributes) = .ok links →
          ∃ v, later.attributes.get? w.parentKey = some v ∧
            ∃ s ∈ links.flatten, s.Refers w keys.foreignKey v k := by
  have hperform : (OwnerCall.associate d owner).perform r = .ok r' := h
  obtain ⟨hkind, x, hx, rfl⟩ := OwnerCall.perform_eq_ok hperform
  obtain ⟨k, hk, rfl⟩ := Option.map_eq_some_iff.mp hx
  have hforeign : d.foreign? = some keys.foreignKey := by rw [DirectRelation.foreign?, hkeys]; rfl
  have hstored : (r.withOwner d (.associate d k) (some owner)).attributes.get? keys.foreignKey =
      some k := by rw [get?_withOwner, if_pos hforeign]; rfl
  refine ⟨k, hk, hstored, ?_, fun w hw => ⟨?_, fun later links hmem hlinks => ?_⟩⟩
  · change (r.withOwner d (.associate d k) (some owner)).attributes.get? keys.foreignKey = _ ↔ _
    rw [hstored, ← hk]
    cases hw : d.tie? with
    | none =>
        have hsame : d.relatedKey = keys.localKey :=
          DirectRelation.relatedKey_of_tie?_eq_none hkind hkeys hw
        exact ⟨fun _ hsome => absurd hsome Bool.false_ne_true, fun _ => congrArg owner.get? hsame⟩
    | some w => exact ⟨fun heq _ => heq.symm, fun heq => (heq rfl).symm⟩
  · have hedge : d.strategy.edge?.isSome := by rw [(DirectRelation.tie?_eq_some hw).1]; rfl
    exact (waiting_withOwner r _ hedge rfl d.name).trans (if_pos rfl)
  · obtain ⟨made, hmade, hstatements⟩ := EdgeChange.exists_statements hlinks hmem
    obtain ⟨v, hv, hlink⟩ := EdgeChange.statements_associate_eq_ok hw hstatements
    exact ⟨v, hv, _, List.mem_flatten.mpr ⟨made, hmade, hlink⟩, link_refers hkeys hw v k _⟩

/-- The author of a post, whose declared key is the number; the edges know users by their handle. -/
def signed : DirectRelation :=
  ofPosts "author" "User" "WRITTEN_BY" (some ⟨"id", "user_id"⟩) "handle"

/-- A user with a number and a handle. -/
def ada : Record :=
  .of "User" [("handle", .string "ada"), ("id", .int 7)]

/-- The post refers to its author by the handle, in memory and in the store. -/
theorem associate_stores_key_ada :
    ∃ r', draft.associate (.direct signed) ada = .ok r' ∧
      r'.attributes.get? "user_id" = some (.string "ada") ∧
      ∃ links, r'.pending.mapM (·.statements r'.attributes) = .ok links ∧
        ∃ s ∈ links.flatten, ∃ st,
          s.statement.run .json (.ofNodes [("Post", [("id", .int 1)]),
            ("User", [("handle", .string "ada"), ("id", .int 7)])]) = some st ∧
          st.graph.value 0 "user_id" = .string "ada" := by
  set r' := draft.withOwner signed (.associate signed (.string "ada")) (some ada)
  refine ⟨r', rfl, ?_⟩
  have hkeys : signed.strategy.keys? = some ⟨"id", "user_id"⟩ := rfl
  have hassociate : draft.associate (.direct signed) ada = .ok r' := rfl
  obtain ⟨k, hk, hstored, -, hwritten⟩ := associate_stores_key hkeys hassociate
  obtain rfl := Option.some.inj hk
  obtain ⟨-, hlater⟩ := hwritten _ rfl
  obtain ⟨v, hv, s, hs, hrefers⟩ := hlater r' _ (List.mem_singleton_self _) rfl
  obtain rfl := Option.some.inj hv
  obtain ⟨st, hrun, hvalue⟩ := hrefers.stored .json Cypher.Interpretation.json_equalsJson
    ⟨by decide, by decide⟩ (by decide) (.ofNodes [("Post", [("id", .int 1)]),
      ("User", [("handle", .string "ada"), ("id", .int 7)])])
  exact ⟨hstored, _, rfl, s, hs, st, hrun, hvalue 0 (by decide +kernel) (by decide +kernel)⟩

/-- A relation that can be declared, along which a record does not get the declared key of its owner. -/
theorem number_not_stored :
    (∃ declaration : Declaration, declaration.build = .ok signed) ∧
      signed.kind = .belongsTo ∧ signed.strategy.keys? = some ⟨"id", "user_id"⟩ ∧
      ∃ r', draft.associate (.direct signed) ada = .ok r' ∧
        ada.get? "id" = some (.int 7) ∧ r'.attributes.get? "user_id" ≠ some (.int 7) :=
  ⟨build_ofPosts _ _ _ (by decide) (by decide), rfl, rfl, _, rfl, rfl, by decide +kernel⟩

end Record

end GraphMapper
