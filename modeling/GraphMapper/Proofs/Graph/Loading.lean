import GraphMapper.Proofs.Graph.Existence
import GraphMapper.Proofs.Value.Keys
import GraphMapper.Record.Loading

/-!
Related records of the nodes of a graph.

* `Batch.addRows_spec`: the part of a batch under a key text is what the rows tell of it;
* `Record.IsOf`, `LoadsExactly`: records of nodes, and loading that gives each of them just the nodes
  that the relation leads to;
* `Relation.loads_exactly` (**loading is exact**): it does, if the parents are known by the column by
  which they are looked up; `Relation.loaded_twice`: it does not where parents share a key.
-/

namespace GraphMapper

open Cypher (Graph Interpretation)

/-! ### Batches -/

/-- The related record of a row that tells of one. -/
lemma relatedOf_of_told (r : Relation) {row attributes : Row}
    (h : row.get? relatedColumn = some (.object attributes)) :
    ∃ record, relatedOf r (row.drop parentKeyColumn) = .ok record ∧
      record.attributes = attributes ∧ record.label = r.relatedLabel := by
  have hcolumn : (row.drop parentKeyColumn).get? relatedColumn = some (.object attributes) := by
    rw [Fields.get?_drop _ (by decide), h]
  rw [relatedOf, Record.ofColumn, hcolumn]
  dsimp only [bind, Except.bind]
  split_ifs
  · split <;> exact ⟨_, rfl, rfl, rfl⟩
  · exact ⟨_, rfl, rfl, rfl⟩

/-- What a row tells of a key text: the properties of a related node. -/
def Lookup.part (text : String) : Option Value × Option Value → Option Row
  | (some key, some (.object attributes)) => if key.keyText = text then some attributes else none
  | _ => none

namespace Batch

/-- The records under a key text. -/
def under (batch : Batch) (text : String) : List Record :=
  (Fields.get? batch text).getD []

lemma under_add (batch : Batch) (key : Value) (record : Record) (text : String) :
    (batch.add key record).under text =
      batch.under text ++ if key.keyText = text then [record] else [] := by
  rw [add, under]
  split_ifs with htext
  · subst htext
    rw [Fields.get?_put_self]
    rfl
  · rw [Fields.get?_put_of_ne _ (Ne.symm htext), List.append_nil]
    rfl

/-- Records of a label with the properties that are told of, in order. -/
structure Holds (label : String) (records : List Record) (told : List Row) : Prop where
  attributes : records.map (·.attributes) = told
  label : ∀ record ∈ records, record.label = label

/-- Rows that tell of a key and a related node each add that node to the part of the key. -/
theorem addRows_spec (r : Relation) {rows : List Row}
    (hrows : ∀ row ∈ rows, ∃ key attributes,
      Lookup.told row = (some key, some (.object attributes))) (batch : Batch) :
    ∃ after, addRows r batch rows = .ok after ∧ ∀ text, ∃ more,
      after.under text = batch.under text ++ more ∧
        Holds r.relatedLabel more ((rows.map Lookup.told).filterMap (Lookup.part text)) := by
  induction rows generalizing batch with
  | nil => exact ⟨batch, rfl, fun text => ⟨[], by simp, rfl, by simp⟩⟩
  | cons row rest ih =>
      obtain ⟨⟨key, attributes, htold⟩, hrest⟩ := List.forall_mem_cons.mp hrows
      obtain ⟨hkey, hrelated⟩ : row.get? parentKeyColumn = some key ∧
          row.get? relatedColumn = some (.object attributes) := by simpa [Lookup.told] using htold
      obtain ⟨record, hrecord, hattributes, hlabel⟩ := relatedOf_of_told r hrelated
      obtain ⟨after, hafter, hparts⟩ := ih hrest (batch.add key record)
      refine ⟨after, ?_, fun text => ?_⟩
      · rw [addRows, hkey]
        dsimp only
        rw [hrecord]
        exact hafter
      · obtain ⟨more, hmore, hholds⟩ := hparts text
        rw [under_add, List.append_assoc] at hmore
        refine ⟨_, hmore, ?_, ?_⟩
        · rw [List.map_append, hholds.attributes, List.map_cons, htold, List.filterMap_cons,
            Lookup.part]
          split_ifs <;> simp [hattributes]
        · rw [List.forall_mem_append]
          refine ⟨?_, hholds.label⟩
          split_ifs <;> simp [hlabel]

end Batch

/-! ### Loading -/

/-- The nodes of a label are known by a column: each has a value in it, and no two the same. -/
structure Cypher.Graph.KnownBy (g : Graph) (label column : String) : Prop where
  ne_null : ∀ i ∈ g.labelled label, g.value i column ≠ .null
  injOn : Set.InjOn (fun i => g.value i column) {i | i ∈ g.labelled label}

/-- The record of a node, with whatever was loaded for it. -/
structure Record.IsOf (g : Graph) (label : String) (i : ℕ) (record : Record) : Prop where
  mem : i ∈ g.labelled label
  attributes : record.attributes = g.ofNode i

/-- Loading gives each parent just the nodes that the relation leads to and that the scope allows, once
for each path.  A relation to at most one node keeps the first of them. -/
def LoadsExactly {m : Type → Type} [Monad m] (I : Interpretation) (g : Graph)
    (fetch : Query → m (Except Error (List Row))) (parents : List Record) (r : Relation) : Prop :=
  ∃ batch, batchLoad fetch parents r = pure (.ok batch) ∧
    ∀ parent ∈ parents, ∀ i, parent.IsOf g r.parentLabel i →
      ∃ children told, Batch.Holds r.relatedLabel children told ∧
        told.Perm (((r.reached g i).filter (r.finalScope.filter.holds I g .empty)).map g.ofNode) ∧
        (parent.attach r batch).relation? r.name =
          some (if r.isSingle then .one children.head? else .many children)

variable {I : Interpretation} {g : Graph} {i : ℕ}

lemma Cypher.Graph.KnownBy.holding {label column : String} (h : g.KnownBy label column)
    (hi : i ∈ g.labelled label) : g.holding label column (g.value i column) = [i] := by
  have hfilter : g.holding label column (g.value i column) = (g.labelled label).filter (· = i) := by
    refine List.filter_congr fun j hj => decide_eq_decide.mpr ⟨fun hsame => ?_, ?_⟩
    · exact h.injOn hj hi hsame.1
    · rintro rfl
      exact ⟨rfl, h.ne_null _ hj⟩
  rw [hfilter, List.filter_eq, List.count_eq_one_of_mem (g.labelled_nodup label) hi,
    List.replicate_one]

lemma Record.IsOf.get? {label : String} {record : Record} (h : record.IsOf g label i)
    (column : String) :
    record.get? column = if g.value i column = .null then none else some (g.value i column) := by
  rw [Record.get?, h.attributes, Graph.value]
  cases Fields.get? (g.ofNode i) column with
  | none => rfl
  | some v => cases v <;> simp [Value.isNull]

lemma Record.ne_null_of_get? {record : Record} {column : String} {v : Value}
    (h : record.get? column = some v) : v ≠ .null := by
  rw [Record.get?, Option.filter_eq_some_iff] at h
  rintro rfl
  exact absurd h.2 (by simp [Value.isNull])

lemma Record.relation?_attach (parent : Record) (r : Relation) (batch : Batch) :
    (parent.attach r batch).relation? r.name =
      let children := ((parent.get? r.parentKey).map fun key => batch.under key.keyText).getD []
      some (if r.isSingle then .one children.head? else .many children) := by
  rw [Record.attach, Record.setRelation, Record.relation?, Fields.get?_put_self]
  cases parent.get? r.parentKey <;> rfl

namespace Relation

variable {r : Relation}

/-- A parent's key leads to what the relation leads to. -/
lemma led_eq_reached (hpivots : r.HasPivots)
    (hknown : r.startsAtParent → g.KnownBy r.parentLabel r.parentKey)
    (hi : i ∈ g.labelled r.parentLabel) :
    (r.anchor g).led g (g.value i r.parentKey) = r.reached g i := by
  cases hstart : r.startsAtParent with
  | true =>
      rw [anchor_of_startsAtParent hpivots hstart, Anchor.led, (hknown hstart).holding hi,
        List.flatMap_singleton]
  | false => exact led_of_not_startsAtParent hpivots hstart i

/-- What is told of a key is what the key leads to. -/
lemma filterMap_part_tells (r : Relation) {keys : List Value}
    (hinj : Set.InjOn Value.keyText {k | k ∈ keys}) {k : Value} (hk : k ∈ keys) (hnull : k ≠ .null)
    (allowed : ℕ → Bool) :
    ((((r.anchor g).hits g keys).filter fun hit => allowed hit.2).map (r.tells g)).filterMap
        (Lookup.part k.keyText) =
      (((r.anchor g).led g k).filter allowed).map g.ofNode := by
  let hits := (r.anchor g).hits g keys
  let isOf (hit : ℕ × ℕ) : Bool := g.value hit.1 (r.anchor g).column = k
  have hpart : ∀ hit ∈ hits.filter fun hit => allowed hit.2,
      Lookup.part k.keyText (r.tells g hit) = if isOf hit then some (g.ofNode hit.2) else none := by
    intro hit hhit
    have hkey := Anchor.key_mem_of_mem_hits (List.mem_of_mem_filter hhit)
    simp only [tells, Lookup.part, isOf, decide_eq_true_eq, hinj.eq_iff hkey hk]
  calc
    _ = (hits.filter fun hit => allowed hit.2).filterMap fun hit =>
          if isOf hit then some (g.ofNode hit.2) else none := by
        rw [List.filterMap_map]
        exact List.filterMap_congr hpart
    _ = ((hits.filter isOf).filter fun hit => allowed hit.2).map fun hit => g.ofNode hit.2 := by
        rw [← List.filterMap_filter, List.filterMap_eq_map', List.filter_comm]
    _ = (((hits.filter isOf).map Prod.snd).filter allowed).map g.ofNode := by
        rw [List.filter_map, List.map_map]
        rfl
    _ = _ := by rw [Anchor.map_snd_filter_hits g (r.anchor g) hk hnull]

lemma mem_parentKeys {parents : List Record}
    (hinj : Set.InjOn Value.keyText {k | ∃ parent ∈ parents, parent.get? r.parentKey = some k})
    {k : Value} :
    k ∈ parentKeys parents r ↔ ∃ parent ∈ parents, parent.get? r.parentKey = some k := by
  simp only [← List.mem_filterMap] at hinj ⊢
  rw [parentKeys, Value.mem_distinctKeys hinj]
  refine and_iff_left_of_imp fun hk => ?_
  obtain ⟨parent, -, hget⟩ := List.mem_filterMap.mp hk
  exact Record.ne_null_of_get? hget

/-- A batch holds for each key what the key leads to and the scope allows. -/
theorem batchLoad_spec {m : Type → Type} [Monad m] [LawfulMonad m] (hI : I.EqualsJson)
    (hpivots : r.HasPivots) (hplain : r.Plain) (hscope : membersAccepted 0 r.finalScope.filter)
    {parents : List Record} (hinj : Set.InjOn Value.keyText {k | k ∈ parentKeys parents r})
    {fetch : Query → m (Except Error (List Row))}
    (hfetch : ∀ l, r.lookup (parentKeys parents r) = .ok l →
      fetch l.statement.query = pure (.ok (l.statement.answer I g))) :
    ∃ batch, batchLoad fetch parents r = pure (.ok batch) ∧
      ∀ k ∈ parentKeys parents r, k ≠ .null → ∃ told,
        Batch.Holds r.relatedLabel (batch.under k.keyText) told ∧
          told.Perm ((((r.anchor g).led g k).filter (r.finalScope.filter.holds I g .empty)).map
            g.ofNode) := by
  by_cases hempty : (parentKeys parents r).isEmpty
  · refine ⟨[], by rw [batchLoad, if_pos hempty], fun k hk => ?_⟩
    rw [List.isEmpty_iff.mp hempty] at hk
    exact absurd hk (by simp)
  · cases hl : r.lookup (parentKeys parents r) with
    | error e =>
        rw [← r.lookup_isOk (parentKeys parents r), hl] at hscope
        exact absurd hscope (by simp [Except.isOk, Except.toBool])
    | ok l =>
        have hanswer := lookup_answer (g := g) hI hpivots hplain hl
        have hrows : ∀ row ∈ l.statement.answer I g, ∃ key attributes,
            Lookup.told row = (some key, some (.object attributes)) := by
          intro row hrow
          obtain ⟨hit, -, htells⟩ := List.mem_map.mp (hanswer.mem_iff.mp (List.mem_map_of_mem hrow))
          exact ⟨_, _, htells.symm⟩
        obtain ⟨batch, hbatch, hparts⟩ := Batch.addRows_spec r hrows []
        refine ⟨batch, ?_, fun k hk hnull => ?_⟩
        · rw [batchLoad, if_neg hempty, hl]
          dsimp only
          rw [hfetch l hl, pure_bind]
          exact congrArg pure hbatch
        · obtain ⟨more, hmore, hholds⟩ := hparts k.keyText
          obtain rfl : batch.under k.keyText = more := hmore
          have hdistinct {v : Value} := Value.mem_distinctKeys hinj (v := v)
          have hinj' : Set.InjOn Value.keyText
              {v | v ∈ Value.distinctKeys (parentKeys parents r)} :=
            hinj.mono fun v hv => (hdistinct.mp hv).1
          refine ⟨_, hholds, ?_⟩
          rw [← r.filterMap_part_tells hinj' (hdistinct.mpr ⟨hk, hnull⟩) hnull]
          exact hanswer.filterMap _

/-- **Loading is exact**: where the parents are known by the column by which a lookup finds them, and
the texts of their keys tell the keys apart, each parent is given just the nodes that the relation
leads to and that the scope allows, once for each path. -/
theorem loads_exactly {m : Type → Type} [Monad m] [LawfulMonad m] (hI : I.EqualsJson)
    (haccepted : r.Accepted) (hplain : r.Plain) (hscope : membersAccepted 0 r.finalScope.filter)
    (hknown : r.startsAtParent → g.KnownBy r.parentLabel r.parentKey) {parents : List Record}
    (hinj : Set.InjOn Value.keyText {k | ∃ parent ∈ parents, parent.get? r.parentKey = some k})
    {fetch : Query → m (Except Error (List Row))}
    (hfetch : ∀ l, r.lookup (parentKeys parents r) = .ok l →
      fetch l.statement.query = pure (.ok (l.statement.answer I g))) :
    LoadsExactly I g fetch parents r := by
  have hpivots := haccepted.hasPivots
  have hkeys {k : Value} := mem_parentKeys hinj (k := k)
  have hinj' : Set.InjOn Value.keyText {k | k ∈ parentKeys parents r} :=
    hinj.mono fun k hk => hkeys.mp hk
  obtain ⟨batch, hbatch, hparts⟩ := batchLoad_spec hI hpivots hplain hscope hinj' hfetch
  refine ⟨batch, hbatch, fun parent hparent i hof => ?_⟩
  have hled := led_eq_reached hpivots hknown hof.mem
  have hget := hof.get? r.parentKey
  rw [parent.relation?_attach]
  by_cases hnull : g.value i r.parentKey = .null
  · rw [hnull, Anchor.led_null] at hled
    rw [if_pos hnull] at hget
    rw [← hled, hget]
    exact ⟨[], [], ⟨rfl, by simp⟩, .refl _, rfl⟩
  · rw [if_neg hnull] at hget
    obtain ⟨told, hholds, hperm⟩ := hparts _ (hkeys.mpr ⟨parent, hparent, hget⟩) hnull
    rw [hled] at hperm
    rw [hget]
    exact ⟨_, told, hholds, hperm, rfl⟩

/-! ### Posts and the comments of their authors -/

/-- An engine that answers one lookup. -/
def answering (I : Interpretation) (g : Graph) (r : Relation) (keys : List Value) :
    Query → Id (Except Error (List Row)) := fun _ =>
  match r.lookup keys with
  | .error cause => .error (.compile cause)
  | .ok l => .ok (l.statement.answer I g)

/-- The records of nodes of a label. -/
def recordsOf (g : Graph) (label : String) : List Record :=
  (g.labelled label).map fun i => .of label (g.ofNode i)

/-- Two authors with a post and a comment each. -/
def twoAuthors : Graph :=
  .ofNodes [("User", [("id", .int 1)]), ("User", [("id", .int 2)]),
    ("Post", [("id", .int 1), ("user_id", .int 1)]),
    ("Post", [("id", .int 2), ("user_id", .int 2)]),
    ("Comment", [("id", .int 1), ("user_id", .int 1)]),
    ("Comment", [("id", .int 2), ("user_id", .int 2)])]

theorem loads_exactly_authors :
    LoadsExactly .json twoAuthors (authorComments.answering .json twoAuthors [.int 1, .int 2])
      (recordsOf twoAuthors "Post") authorComments := by
  have hkeys : (recordsOf twoAuthors "Post").filterMap (·.get? "user_id") = [.int 1, .int 2] := by
    decide
  have hparents : parentKeys (recordsOf twoAuthors "Post") authorComments = [.int 1, .int 2] := by
    decide
  have hknown : ∀ i ∈ twoAuthors.labelled "Post", ∀ j ∈ twoAuthors.labelled "Post",
      twoAuthors.value i "user_id" = twoAuthors.value j "user_id" → i = j := by decide
  refine loads_exactly Interpretation.json_equalsJson authorComments_accepted authorComments_plain
    rfl (fun _ => ⟨by decide, fun i hi j hj => hknown i hi j hj⟩) ?_ ?_
  · refine Value.keyText_injOn.mono fun k hk => .inr ?_
    have hk : k ∈ [Value.int 1, .int 2] := hkeys ▸ List.mem_filterMap.mpr hk
    rcases List.mem_pair.mp hk with rfl | rfl
    · exact ⟨1, rfl⟩
    · exact ⟨2, rfl⟩
  · intro l hl
    rw [hparents] at hl
    rw [answering, hl]
    rfl

lemma sharedAuthor_knownBy {label : String} (h : label ∈ ["User", "Post", "Comment"]) :
    sharedAuthor.KnownBy label "id" := by
  have hnull : ∀ label ∈ ["User", "Post", "Comment"], ∀ i ∈ sharedAuthor.labelled label,
      sharedAuthor.value i "id" ≠ .null := by decide
  have hinj : ∀ label ∈ ["User", "Post", "Comment"], ∀ i ∈ sharedAuthor.labelled label,
      ∀ j ∈ sharedAuthor.labelled label,
        sharedAuthor.value i "id" = sharedAuthor.value j "id" → i = j := by decide
  exact ⟨hnull label h, fun i hi j hj => hinj label h i hi j hj⟩

/-- The keys of all nodes are different, but two posts have one author: each is given the author's
comment twice. -/
theorem loaded_twice :
    (∀ label ∈ ["User", "Post", "Comment"], sharedAuthor.KnownBy label "id") ∧
      ¬ LoadsExactly .json sharedAuthor (authorComments.answering .json sharedAuthor [.int 1])
        (recordsOf sharedAuthor "Post") authorComments := by
  refine ⟨fun label h => sharedAuthor_knownBy h, ?_⟩
  rintro ⟨batch, hbatch, hall⟩
  let post : Record := .of "Post" (sharedAuthor.ofNode 1)
  have hpost : post ∈ recordsOf sharedAuthor "Post" := List.mem_map.mpr ⟨1, by decide, rfl⟩
  obtain ⟨children, told, hholds, hperm, hplaced⟩ := hall post hpost 1 ⟨by decide, rfl⟩
  have htwo : (batchLoad (m := Id) (authorComments.answering .json sharedAuthor [.int 1])
      (recordsOf sharedAuthor "Post") authorComments).map
        (fun batch => ((post.attach authorComments batch).children authorComments.name).length) =
      .ok 2 := by decide
  rw [hbatch] at htwo
  have hchildren : children.length = 2 := by
    have hlength : ((post.attach authorComments batch).children authorComments.name).length = 2 :=
      Except.ok.inj htwo
    rw [Record.children, hplaced] at hlength
    exact hlength
  have htold : told.length = 1 := hperm.length_eq.trans (by decide)
  rw [← hholds.attributes, List.length_map, hchildren] at htold
  exact absurd htold (by decide)

end Relation

end GraphMapper
