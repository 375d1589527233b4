import GraphMapper.Proofs.Graph.Loading
import GraphMapper.Proofs.Pivot.Reader
import GraphMapper.Proofs.Store.Reading
import GraphMapper.Proofs.Value.Json

/-!
Records by their keys.

* `Cypher.Interpretation.TellsKeys`: the engine takes keys for equal if they are the same;
* `Selection.matched_keyed`, `Selection.matched_keyedAmong`: the nodes that are selected by one key and by
  several; null selects those without a key on its own, and none among others;
* `Client.find_spec`, `Client.findOrFail_spec`, `Client.findManyOrFail_spec`: what the lookups come to;
* `Client.finds_by_key` (**lookups find what has the key**): the two kinds agree on every key but null;
  `Client.found_by_null`: on null they do not.
-/

namespace GraphMapper

open Cypher (Env Expr Graph Interpretation Statement Term Test Truth conditionTruth)

variable {I : Interpretation} {g : Graph} {label : String} {id : Value} {ids : List Value}

/-- The engine takes the key of a node of the label for equal to one of the given keys if they are the
same.  Nothing is equal to null. -/
def Cypher.Interpretation.TellsKeys (I : Interpretation) (g : Graph) (label : String)
    (ids : List Value) : Prop :=
  ∀ i ∈ g.labelled label, ∀ id ∈ ids,
    I.compare .eq (g.value i defaultKey) id = .yes ↔ g.value i defaultKey = id ∧ id ≠ .null

lemma Cypher.Interpretation.EqualsJson.tellsKeys (h : I.EqualsJson) (g : Graph) (label : String)
    (ids : List Value) : I.TellsKeys g label ids := fun i _ id _ => by
  rw [h.eq_yes]
  exact and_congr_right fun hsame => by rw [hsame]

/-! ### Selections by key -/

namespace Selection

/-- The nodes of a label with a key. -/
def keyed (label : String) (id : Value) : Selection :=
  (Selection.of label).and (.equals defaultKey id)

/-- The nodes of a label with one of the keys. -/
def keyedAmong (label : String) (ids : List Value) : Selection :=
  (Selection.of label).and (.oneOf defaultKey ids)

lemma value_nodeRow (i : ℕ) :
    (nodeRow defaultVariable i).value g ⟨defaultVariable, defaultKey⟩ = g.value i defaultKey :=
  Env.value_of_node (Env.set_self _ _ _)

/-- The condition of a test of the key against a value. -/
def keyTest (test : Test) : Expr :=
  .test (.property ⟨defaultVariable, defaultKey⟩) test (.parameter "p0")

lemma conditionTruth_keyTest (test : Test) (v : Value) (i : ℕ) :
    conditionTruth I g (Compiling.bind v {}).2.parameters (some (keyTest test))
        (nodeRow defaultVariable i) =
      test.holds I (g.value i defaultKey) v := by
  have hbound : Cypher.parameterValue (Compiling.bind v {}).2.parameters "p0" = v :=
    parameterValue_bind (Bindings.supplies_parameters _)
  rw [conditionTruth, Option.elim_some, Expr.truth, keyTest, Expr.operands, Term.value, Term.value,
    hbound, value_nodeRow, Truth.chain_singleton]

lemma conditionTruth_isNull (params : Row) (i : ℕ) :
    conditionTruth I g params (some (.isNull ⟨defaultVariable, defaultKey⟩))
        (nodeRow defaultVariable i) =
      .ofBool (g.value i defaultKey).isNull := by
  rw [conditionTruth, Option.elim_some, Expr.truth, Expr.operands, value_nodeRow,
    Truth.chain_singleton]

lemma compiled_keyed (h : id ≠ .null) :
    (keyed label id).compiled = .ok (some (keyTest (.compare .eq)), (Compiling.bind id {}).2) := by
  cases id <;> first | exact absurd rfl h | rfl

lemma compiled_keyed_isOk (label : String) (id : Value) : (keyed label id).compiled.isOk := by
  by_cases h : id = .null
  · subst h
    rfl
  · rw [compiled_keyed h]
    rfl

lemma compiled_keyedAmong_isOk (label : String) (ids : List Value) :
    (keyedAmong label ids).compiled.isOk := by
  cases ids <;> rfl

/-- A key selects the nodes that have it, and null those without one. -/
lemma matched_keyed (h : I.TellsKeys g label [id]) :
    (keyed label id).matched I g =
      (g.labelled label).filter fun i => g.value i defaultKey = id := by
  by_cases hid : id = .null
  · subst hid
    have hcompiled : (keyed label .null).compiled =
        .ok (some (.isNull ⟨defaultVariable, defaultKey⟩), {}) := rfl
    rw [matched_of_compiled hcompiled]
    refine List.filter_congr fun i _ => decide_eq_decide.mpr ?_
    refine (Eq.congr_left (conditionTruth_isNull _ i)).trans ?_
    cases g.value i defaultKey <;> simp [Value.isNull]
  · rw [matched_of_compiled (compiled_keyed hid)]
    refine List.filter_congr fun i hi => decide_eq_decide.mpr ?_
    refine (Eq.congr_left (conditionTruth_keyTest _ id i)).trans ?_
    exact (h i hi id (List.mem_singleton_self id)).trans (and_iff_left hid)

/-- Some keys select the nodes that have one of them. -/
lemma matched_keyedAmong (h : I.TellsKeys g label ids) :
    (keyedAmong label ids).matched I g =
      (g.labelled label).filter fun i => g.value i defaultKey ∈ ids ∧ g.value i defaultKey ≠ .null := by
  cases ids with
  | nil =>
      have hcompiled : (keyedAmong label []).compiled = .ok (some (.constant false), {}) := rfl
      rw [matched_of_compiled hcompiled]
      refine List.filter_congr fun i _ => ?_
      simp [conditionTruth, Expr.truth, Expr.operands]
  | cons first rest =>
      have hcompiled : (keyedAmong label (first :: rest)).compiled =
          .ok (some (keyTest .among), (Compiling.bind (.array (first :: rest)) {}).2) := rfl
      rw [matched_of_compiled hcompiled]
      refine List.filter_congr fun i hi => decide_eq_decide.mpr ?_
      refine (Eq.congr_left (conditionTruth_keyTest _ _ i)).trans ?_
      rw [Test.holds, Truth.any_eq_yes, List.mem_map]
      constructor
      · rintro ⟨id, hid, hequal⟩
        obtain ⟨hsame, hpresent⟩ := (h i hi id hid).mp hequal
        exact hsame ▸ ⟨hid, hpresent⟩
      · rintro ⟨hid, hpresent⟩
        exact ⟨_, hid, (h i hi _ hid).mpr ⟨rfl, hpresent⟩⟩

end Selection

/-! ### Keys of nodes -/

namespace Cypher.Graph

/-- The nodes of a label with the given key; with null, those without one. -/
def withKey (g : Graph) (label : String) (id : Value) : List ℕ :=
  (g.labelled label).filter fun i => g.value i defaultKey = id

/-- The nodes of a label with one of the keys. -/
def withKeyAmong (g : Graph) (label : String) (ids : List Value) : List ℕ :=
  (g.labelled label).filter fun i => g.value i defaultKey ∈ ids ∧ g.value i defaultKey ≠ .null

/-- Whether a value is the key of some node of a label.  Null is the key of none. -/
def Names (g : Graph) (label : String) (id : Value) : Prop :=
  id ≠ .null ∧ ∃ i ∈ g.labelled label, g.value i defaultKey = id

instance (g : Graph) (label : String) (id : Value) : Decidable (g.Names label id) :=
  inferInstanceAs (Decidable (_ ∧ _))

/-- The values among some that are the key of no node, each once and in order of first occurrence. -/
def unnamed (g : Graph) (label : String) (ids : List Value) : List Value :=
  (ids.filter fun id => ¬ g.Names label id).eraseDups

lemma withKey_head?_isSome {g : Graph} {label : String} {id : Value} :
    (g.withKey label id).head?.isSome ↔ ∃ i ∈ g.labelled label, g.value i defaultKey = id := by
  rw [Option.isSome_iff_ne_none, ne_eq, List.head?_eq_none_iff, withKey, List.filter_eq_nil_iff]
  simp

lemma unnamed_eq_nil_iff {g : Graph} {label : String} {ids : List Value} :
    g.unnamed label ids = [] ↔ ∀ id ∈ ids, g.Names label id := by
  rw [List.eq_nil_iff_forall_not_mem]
  simp [unnamed]

end Cypher.Graph

/-- The values that keys are compared with can be written in JSON. -/
structure Cypher.Graph.FiniteKeys (g : Graph) (label : String) (ids : List Value) : Prop where
  given : ∀ id ∈ ids, id.Finite
  stored : ∀ i ∈ g.labelled label, (g.value i defaultKey).Finite

namespace Client

variable {σ : Type} [Engine σ] {caller : Owner} {c : Client σ}

/-! ### Lookups -/

/-- The record of a node as it is found. -/
def foundRecord (g : Graph) (label : String) (i : ℕ) : Record :=
  .of label (g.ofNode i)

lemma foundRecord_isOf {i : ℕ} (hi : i ∈ g.labelled label) :
    (foundRecord g label i).IsOf g label i :=
  ⟨hi, rfl⟩

/-- One of the nodes with the key is found. -/
lemma find_spec (h : AnswersFrom I g caller c ((Selection.keyed label id).take 1))
    (hequals : I.TellsKeys g label [id]) :
    ∃ after, find label id caller c =
      (.ok ((g.withKey label id).head?.map (foundRecord g label)), after) := by
  have hcompiled : ((Selection.keyed label id).take 1).compiled.isOk :=
    Selection.compiled_keyed_isOk label id
  obtain ⟨after, hrecords⟩ := h.records hcompiled (List.nodup_singleton _) rfl
  have harranged : ((Selection.keyed label id).take 1).arranged I g []
      (((Selection.keyed label id).take 1).matched I g) = (g.withKey label id).take 1 := by
    refine (Selection.arranged_unordered _ _).trans ?_
    exact congrArg (List.take 1) (Selection.matched_keyed hequals)
  have hlast : (((g.withKey label id).take 1).map (foundRecord g label)).getLast? =
      (g.withKey label id).head?.map (foundRecord g label) := by
    cases g.withKey label id <;> rfl
  refine ⟨after, ?_⟩
  rw [find, first]
  refine (Action.bind_apply_ok hrecords).trans ?_
  refine (Action.pure_apply _ caller after).trans ?_
  rw [← hlast, ← harranged]
  rfl

/-- One of the nodes with the key is found, or the key is reported. -/
lemma findOrFail_spec (h : AnswersFrom I g caller c ((Selection.keyed label id).take 1))
    (hequals : I.TellsKeys g label [id]) :
    ∃ after, findOrFail label id caller c =
      ((g.withKey label id).head?.elim (.error (.failed (.notFound label [id.label])))
        fun i => .ok (foundRecord g label i), after) := by
  obtain ⟨after, hfind⟩ := find_spec h hequals
  refine ⟨after, ?_⟩
  rw [findOrFail, Action.bind_apply_ok hfind]
  cases (g.withKey label id).head? <;> rfl

/-- A record is found if there is a node with the key, and nothing fails but that. -/
lemma findOrFail_isOk_iff (h : AnswersFrom I g caller c ((Selection.keyed label id).take 1))
    (hequals : I.TellsKeys g label [id]) :
    ((findOrFail label id caller c).1.isOk ↔ ∃ i ∈ g.labelled label, g.value i defaultKey = id) ∧
    ((findOrFail label id caller c).1.isOk ∨
      (findOrFail label id caller c).1 = .error (.failed (.notFound label [id.label]))) := by
  obtain ⟨after, hfind⟩ := findOrFail_spec h hequals
  rw [hfind, ← Cypher.Graph.withKey_head?_isSome]
  cases (g.withKey label id).head? with
  | none => exact ⟨Iff.rfl, .inr rfl⟩
  | some i => exact ⟨Iff.rfl, .inl rfl⟩

/-- The keys of the nodes that are found. -/
lemma foundKeys_eq (ids : List Value) :
    ((g.withKeyAmong label ids).map (foundRecord g label)).filterMap (·.get? defaultKey) =
      (g.withKeyAmong label ids).map fun i => g.value i defaultKey := by
  rw [List.filterMap_map, ← List.filterMap_eq_map]
  refine List.filterMap_congr fun i hi => ?_
  obtain ⟨hmem, hkey⟩ := List.mem_filter.mp hi
  rw [Function.comp_apply, (foundRecord_isOf hmem).get?, if_neg (of_decide_eq_true hkey).2]
  rfl

lemma mem_foundKeys (hid : id ∈ ids) :
    id ∈ (g.withKeyAmong label ids).map (fun i => g.value i defaultKey) ↔ g.Names label id := by
  simp only [Cypher.Graph.withKeyAmong, List.mem_map, List.mem_filter, decide_eq_true_eq]
  constructor
  · rintro ⟨i, ⟨hi, -, hpresent⟩, rfl⟩
    exact ⟨hpresent, i, hi, rfl⟩
  · rintro ⟨hpresent, i, hi, rfl⟩
    exact ⟨i, ⟨hi, hid, hpresent⟩, rfl⟩

/-- The keys that are missed are those of no node. -/
lemma missingKeys_eq (hfinite : g.FiniteKeys label ids) :
    missingKeys ((g.withKeyAmong label ids).map (foundRecord g label)) ids =
      g.unnamed label ids := by
  have hkeys : ∀ v ∈ (g.withKeyAmong label ids).map (fun i => g.value i defaultKey), v.Finite := by
    intro v hv
    obtain ⟨i, hi, rfl⟩ := List.mem_map.mp hv
    exact hfinite.stored i (List.mem_of_mem_filter hi)
  have hmissing : (ids.filter fun id => !Value.isKeyOf
      ((g.withKeyAmong label ids).map fun i => g.value i defaultKey) id) =
        ids.filter fun id => ¬ g.Names label id := by
    refine List.filter_congr fun id hid => ?_
    have hinj : Set.InjOn Value.keyText
        ({id} ∪ {v | v ∈ (g.withKeyAmong label ids).map fun i => g.value i defaultKey}) := by
      have hboth : ∀ v ∈ ({id} ∪ {v | v ∈ (g.withKeyAmong label ids).map
          fun i => g.value i defaultKey} : Set Value), v.Finite := by
        rintro v (rfl | hv)
        · exact hfinite.given _ hid
        · exact hkeys v hv
      exact fun v hv w hw hsame => Value.eq_of_keyText_eq (hboth v hv) (hboth w hw) hsame
    rw [Bool.eq_iff_iff, Bool.not_eq_true', ← Bool.not_eq_true, Value.isKeyOf_iff hinj,
      mem_foundKeys hid, decide_eq_true_iff]
  have hinj : Set.InjOn Value.keyText {v | v ∈ ids.filter fun id => ¬ g.Names label id} :=
    fun v hv w hw hsame => Value.eq_of_keyText_eq (hfinite.given v (List.mem_of_mem_filter hv))
      (hfinite.given w (List.mem_of_mem_filter hw)) hsame
  rw [missingKeys, foundKeys_eq, hmissing, Value.distinct_eq_eraseDups hinj]
  rfl

/-- All nodes with one of the keys are found, or the keys of no node are reported. -/
lemma findManyOrFail_spec (h : AnswersFrom I g caller c (Selection.keyedAmong label ids))
    (hequals : I.TellsKeys g label ids) (hfinite : g.FiniteKeys label ids) :
    ∃ after, findManyOrFail label ids caller c =
      (if ∀ id ∈ ids, g.Names label id then
          .ok ((g.withKeyAmong label ids).map (foundRecord g label))
        else .error (.failed (.notFound label ((g.unnamed label ids).map Value.label))), after) := by
  obtain ⟨after, hrecords⟩ := h.records (Selection.compiled_keyedAmong_isOk label ids)
    (List.nodup_singleton _) rfl
  have harranged : (Selection.keyedAmong label ids).arranged I g []
      ((Selection.keyedAmong label ids).matched I g) = g.withKeyAmong label ids := by
    refine (Selection.arranged_unordered _ _).trans ?_
    exact Selection.matched_keyedAmong hequals
  have hfound : (((Selection.keyedAmong label ids).arranged I g
      (Selection.keyedAmong label ids).orders ((Selection.keyedAmong label ids).matched I g)).map
        ((Selection.keyedAmong label ids).nodeRecord I g)) =
          (g.withKeyAmong label ids).map (foundRecord g label) := by
    rw [← harranged]
    rfl
  rw [hfound] at hrecords
  refine ⟨after, ?_⟩
  rw [findManyOrFail]
  refine (Action.bind_apply_ok hrecords).trans ?_
  rw [missingKeys_eq hfinite]
  split_ifs with hempty hall hall
  · rfl
  · exact absurd (Cypher.Graph.unnamed_eq_nil_iff.mp (List.isEmpty_iff.mp hempty)) hall
  · exact absurd (List.isEmpty_iff.mpr (Cypher.Graph.unnamed_eq_nil_iff.mpr hall)) hempty
  · rfl

/-- All are found if each key is that of a node, and nothing fails but that. -/
lemma findManyOrFail_isOk_iff (h : AnswersFrom I g caller c (Selection.keyedAmong label ids))
    (hequals : I.TellsKeys g label ids) (hfinite : g.FiniteKeys label ids) :
    ((findManyOrFail label ids caller c).1.isOk ↔ ∀ id ∈ ids, g.Names label id) ∧
    ((findManyOrFail label ids caller c).1.isOk ∨
      (findManyOrFail label ids caller c).1 =
        .error (.failed (.notFound label ((g.unnamed label ids).map Value.label)))) := by
  obtain ⟨after, hfind⟩ := findManyOrFail_spec h hequals hfinite
  rw [hfind]
  split_ifs with hall
  · exact ⟨iff_of_true rfl hall, .inl rfl⟩
  · exact ⟨iff_of_false Bool.false_ne_true hall, .inr rfl⟩

/-- **Lookups find what has the key**, if the caller's statements are answered from a graph by an engine
that takes keys for equal just if they are the same.  A record that is found is one of a node of the
label with the key, null being that of a node without one, and there is a record if there is such a node;
otherwise the key is reported.  Several keys are found if each of them is the key of a node, which null is
not, and otherwise those that are not are reported, each once and in order of first occurrence.  So the
two agree on every key but null. -/
theorem finds_by_key (hone : AnswersFrom I g caller c ((Selection.keyed label id).take 1))
    (hmany : AnswersFrom I g caller c (Selection.keyedAmong label ids))
    (hequals : I.TellsKeys g label (id :: ids)) (hfinite : g.FiniteKeys label ids) :
    (∃ found, (find label id caller c).1 = .ok found ∧
      (found.isSome ↔ ∃ i ∈ g.labelled label, g.value i defaultKey = id) ∧
      ∀ r, found = some r → (∃ i, r.IsOf g label i) ∧
        (Fields.get? r.attributes defaultKey).getD .null = id) ∧
    ((findOrFail label id caller c).1.isOk ↔ ∃ i ∈ g.labelled label, g.value i defaultKey = id) ∧
    ((findOrFail label id caller c).1.isOk ∨
      (findOrFail label id caller c).1 = .error (.failed (.notFound label [id.label]))) ∧
    ((findManyOrFail label ids caller c).1.isOk ↔ ∀ id ∈ ids, g.Names label id) ∧
    ((findManyOrFail label ids caller c).1.isOk ∨
      (findManyOrFail label ids caller c).1 =
        .error (.failed (.notFound label ((g.unnamed label ids).map Value.label)))) ∧
    (id ≠ .null → ids = [id] →
      ((findOrFail label id caller c).1.isOk ↔ (findManyOrFail label ids caller c).1.isOk)) := by
  have hequal : I.TellsKeys g label [id] := fun i hi v hv =>
    hequals i hi v (List.mem_singleton.mp hv ▸ List.mem_cons_self)
  have hequals' : I.TellsKeys g label ids := fun i hi v hv =>
    hequals i hi v (List.mem_cons_of_mem id hv)
  obtain ⟨after, hfind⟩ := find_spec hone hequal
  obtain ⟨hnode, hreported⟩ := findOrFail_isOk_iff hone hequal
  obtain ⟨hnodes, hmissing⟩ := findManyOrFail_isOk_iff hmany hequals' hfinite
  refine ⟨⟨_, congrArg Prod.fst hfind, ?_, ?_⟩, hnode, hreported, hnodes, hmissing, ?_⟩
  · rw [Option.isSome_map]
    exact Cypher.Graph.withKey_head?_isSome
  · intro r hr
    obtain ⟨i, hi, rfl⟩ := Option.map_eq_some_iff.mp hr
    obtain ⟨hmem, hkey⟩ := List.mem_filter.mp (List.mem_of_mem_head? hi)
    exact ⟨⟨i, foundRecord_isOf hmem⟩, of_decide_eq_true hkey⟩
  · rintro hpresent rfl
    rw [hnode, hnodes, List.forall_mem_singleton, Cypher.Graph.Names, and_iff_right hpresent]

/-- Lookups among users, one of each form. -/
def userLookups : List Selection :=
  [(Selection.keyed "User" (.int 0)).take 1, (Selection.keyed "User" .null).take 1,
    Selection.keyedAmong "User" [], Selection.keyedAmong "User" [.null]]

/-- The forms of their statements. -/
def lookupForms : List (List Cypher.Step) :=
  userLookups.filterMap fun s => s.select.toOption.map (·.steps)

lemma lookupForms_nodup : (lookupForms.map Cypher.stepsText).Nodup := by
  decide

/-- A client of an engine that stores a graph and reads these forms. -/
def reader (g : Graph) : Client (Database .json (Cypher.reader lookupForms)) :=
  resting .json (Cypher.reader lookupForms) g

lemma reader_answers {s : Selection} (hnames : s.itemNames.Nodup)
    (hform : ∀ q, s.select = .ok q → q.steps ∈ lookupForms) (g : Graph) (caller : Owner) :
    AnswersFrom .json g caller (reader g) s :=
  (resting_idle g).answersFrom caller hnames fun q hq =>
    Cypher.reader_query lookupForms_nodup (hform q hq)

/-- Of two users the first is found, and a third is missed once. -/
theorem finds_by_key_first :
    (findOrFail "User" (.int 1) (.task none) (reader Selection.namesakes)).1.isOk ∧
      ¬ (findManyOrFail "User" [.int 3, .int 1, .int 3] (.task none)
        (reader Selection.namesakes)).1.isOk ∧
      (findManyOrFail "User" [.int 3, .int 1, .int 3] (.task none) (reader Selection.namesakes)).1 =
        .error (.failed (.notFound "User" ["3"])) := by
  have hone : AnswersFrom .json Selection.namesakes (.task none) (reader Selection.namesakes)
      ((Selection.keyed "User" (.int 1)).take 1) := by
    refine reader_answers (by decide) ?_ _ _
    rintro q ⟨⟩
    exact .head _
  have hmany : AnswersFrom .json Selection.namesakes (.task none) (reader Selection.namesakes)
      (Selection.keyedAmong "User" [.int 3, .int 1, .int 3]) := by
    refine reader_answers (by decide) ?_ _ _
    rintro q ⟨⟩
    exact .tail _ (.tail _ (.tail _ (.head _)))
  have hfinite : Selection.namesakes.FiniteKeys "User" [.int 3, .int 1, .int 3] := by
    have hlabelled : Selection.namesakes.labelled "User" = [0, 1] := by decide
    refine ⟨?_, ?_⟩
    · simp [Value.Finite, Value.int, Number.Finite]
    · rw [hlabelled]
      exact List.forall_mem_cons.mpr ⟨trivial, List.forall_mem_singleton.mpr trivial⟩
  obtain ⟨-, hfound, -, hnodes, hmissing, -⟩ := finds_by_key hone hmany
    (Cypher.Interpretation.json_equalsJson.tellsKeys _ _ _) hfinite
  have hnot : ¬ (findManyOrFail "User" [.int 3, .int 1, .int 3] (.task none)
      (reader Selection.namesakes)).1.isOk := fun h => absurd (hnodes.mp h) (by decide)
  exact ⟨hfound.mpr (by decide), hnot, hmissing.resolve_left hnot⟩

/-- A user without a key. -/
def keyless : Graph :=
  .ofNodes [("User", [("name", .string "Ada")])]

/-- A record is found by null if there is a node without a key, and null among several keys is missed. -/
theorem found_by_null :
    ¬ ∀ (g : Graph) (id : Value), AnswersFrom .json g (.task none) (reader g)
        ((Selection.keyed "User" id).take 1) →
      AnswersFrom .json g (.task none) (reader g) (Selection.keyedAmong "User" [id]) →
      ((findOrFail "User" id (.task none) (reader g)).1.isOk ↔
        (findManyOrFail "User" [id] (.task none) (reader g)).1.isOk) := by
  intro h
  have hone : AnswersFrom .json keyless (.task none) (reader keyless)
      ((Selection.keyed "User" .null).take 1) := by
    refine reader_answers (by decide) ?_ _ _
    rintro q ⟨⟩
    exact .tail _ (.head _)
  have hmany : AnswersFrom .json keyless (.task none) (reader keyless)
      (Selection.keyedAmong "User" [.null]) := by
    refine reader_answers (by decide) ?_ _ _
    rintro q ⟨⟩
    exact .tail _ (.tail _ (.tail _ (.head _)))
  have hfinite : keyless.FiniteKeys "User" [.null] := by
    have hlabelled : keyless.labelled "User" = [0] := by decide
    refine ⟨List.forall_mem_singleton.mpr trivial, ?_⟩
    rw [hlabelled]
    exact List.forall_mem_singleton.mpr trivial
  have hequals : Interpretation.json.TellsKeys keyless "User" [.null] :=
    Cypher.Interpretation.json_equalsJson.tellsKeys _ _ _
  have hfound := (findOrFail_isOk_iff hone hequals).1.mpr (by decide)
  have hnamed := (findManyOrFail_isOk_iff hmany hequals hfinite).1.mp ((h _ _ hone hmany).mp hfound)
  exact absurd hnamed (by decide)

end Client

end GraphMapper
