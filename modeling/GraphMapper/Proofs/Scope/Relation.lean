import GraphMapper.Client.Relations
import GraphMapper.Proofs.Graph.Lookup
import GraphMapper.Proofs.Scope.Statement
import GraphMapper.Proofs.Scope.Subquery

/-!
Lookups are closed.

* `PlainColumn`, `DirectRelation.Legible`, `Relation.Legible`: relations without dollar signs in their
  names, whose columns name no variable;
* `DirectRelation.Legible.hop`: a hop leads from its source to its target, and asks for nothing;
* `Searches`, `Relation.Legible.route`: the matches of a lookup lead from the keys to the related node;
* `Relation.Legible.lookup` (**lookups**): every variable that a lookup speaks of is introduced before,
  and it has just the parameters that it asks for.
-/

namespace GraphMapper

open Cypher (Change Expr Item Match Pattern Projection Property Statement Step Term Unmarked
  conditionsScoped_iff conditionsTidy patternsIntroduce routeParameters routeScoped
  routeScoped_append routeTidy stepsScoped stepsScoped_append stepsScoped_find unmarked_append)

/-! ### Names -/

/-- A column without a dollar sign and without a variable of its own. -/
structure PlainColumn (column : String) : Prop where
  unmarked : Unmarked column
  owner : columnOwner column = ""

instance PlainColumn.decidable : DecidablePred PlainColumn := fun column =>
  decidable_of_iff (Unmarked column ∧ columnOwner column = "")
    ⟨fun ⟨h, howner⟩ => ⟨h, howner⟩, fun h => ⟨h.unmarked, h.owner⟩⟩

namespace PlainColumn

variable {column binder : String}

lemma ofColumn (h : PlainColumn column) (binder : String) :
    Property.ofColumn binder column = ⟨binder, column⟩ :=
  ofColumn_of_columnOwner_eq h.owner binder

lemma text (h : PlainColumn column) (hb : Unmarked binder) :
    Unmarked (Property.text ⟨binder, column⟩) :=
  unmarked_property hb h.unmarked

end PlainColumn

lemma parent_unmarked : Unmarked parentVariable := by decide

lemma related_unmarked : Unmarked relatedVariable := by decide

lemma pivot_unmarked : Unmarked pivotVariable := by decide

lemma edge_unmarked : Unmarked edgeVariable := by decide

namespace DirectRelation

/-- The labels and edge types that the statements of a hop name. -/
def labels (d : DirectRelation) : List String :=
  [d.parentLabel, d.relatedLabel] ++
  (match d.strategy.edge? with
    | none => []
    | some (edge, _, _) => [edge.edgeType]) ++
  (d.pivot.map Pivot.label).toList

/-- The columns that the statements of a hop name. -/
def columns (d : DirectRelation) : List String :=
  (match d.strategy.keys? with
    | none => []
    | some keys => [keys.localKey, keys.foreignKey]) ++
  (match d.strategy.edge? with
    | none => []
    | some (_, parentKey, relatedKey) => [parentKey, relatedKey]) ++
  (match d.pivot with
    | none => []
    | some spec => [spec.parentReference, spec.relatedReference])

/-- No dollar sign stands in the names of a hop, and its columns name no variable. -/
structure Legible (d : DirectRelation) : Prop where
  labels : ∀ label ∈ d.labels, Unmarked label
  columns : ∀ column ∈ d.columns, PlainColumn column

namespace Legible

variable {d : DirectRelation} (h : d.Legible)

include h

lemma parentLabel : Unmarked d.parentLabel :=
  h.labels _ (by simp [DirectRelation.labels])

lemma relatedLabel : Unmarked d.relatedLabel :=
  h.labels _ (by simp [DirectRelation.labels])

lemma keys {keys : Keys} (hkeys : d.strategy.keys? = some keys) :
    PlainColumn keys.localKey ∧ PlainColumn keys.foreignKey := by
  constructor <;> exact h.columns _ (by simp [DirectRelation.columns, hkeys])

lemma edge {edge : EdgeSpec} {parentKey relatedKey : String}
    (hedge : d.strategy.edge? = some (edge, parentKey, relatedKey)) :
    Unmarked edge.edgeType ∧ PlainColumn parentKey ∧ PlainColumn relatedKey := by
  refine ⟨h.labels _ ?_, h.columns _ ?_, h.columns _ ?_⟩ <;>
    simp [DirectRelation.labels, DirectRelation.columns, hedge]

lemma parentKey : PlainColumn d.parentKey := by
  rw [DirectRelation.parentKey]
  cases hstrategy : d.strategy with
  | foreignKey keys =>
      have hkeys : d.strategy.keys? = some keys := by rw [hstrategy, Strategy.keys?]
      obtain ⟨hlocal, hforeign⟩ := h.keys hkeys
      cases d.kind with
      | belongsTo => exact hforeign
      | _ => exact hlocal
  | nativeEdge edge parentKey relatedKey =>
      exact (h.edge (by rw [hstrategy, Strategy.edge?])).2.1
  | hybrid keys edge parentKey relatedKey =>
      exact (h.edge (by rw [hstrategy, Strategy.edge?])).2.1

lemma pivot {spec : Pivot} (hpivot : d.pivot = some spec) :
    Unmarked spec.label ∧ PlainColumn spec.parentReference ∧ PlainColumn spec.relatedReference := by
  refine ⟨h.labels _ ?_, h.columns _ ?_, h.columns _ ?_⟩ <;>
    simp [DirectRelation.labels, DirectRelation.columns, hpivot]

end Legible

end DirectRelation

namespace Relation

/-- The hops of a relation. -/
def hops : Relation → List DirectRelation
  | .direct d => [d]
  | .through t => [t.first, t.second]

/-- No dollar sign stands in the names of a relation; its columns name no variable, and its scope holds
no text written by hand. -/
structure Legible (r : Relation) : Prop where
  hops : ∀ d ∈ r.hops, d.Legible
  filter : membersLegible r.finalScope.filter
  within : membersWithin ∅ r.finalScope.filter
  rawFree : membersRawFree r.finalScope.filter
  orders : ∀ order ∈ r.finalScope.orders, PlainColumn order.column

end Relation

/-! ### Patterns -/

lemma unmarked_nodePattern {binder label : String} (hb : Unmarked binder) (hl : Unmarked label) :
    Unmarked (nodePattern binder label).text :=
  unmarked_node hb (some label) (by simpa using hl)

lemma unmarked_path {left right : Cypher.Node} {edge : Cypher.Edge} (hl : Unmarked left.text)
    (he : Unmarked edge.text) (hr : Unmarked right.text) :
    Unmarked (Pattern.path left edge right).text :=
  unmarked_append.mpr ⟨unmarked_append.mpr ⟨hl, he⟩, hr⟩

/-! ### Hops -/

/-- A node with conditions on it and on what is in scope. -/
lemma Way.node {scope : List String} {target : String} (label : String) {conditions : List Expr}
    (h : ∀ e ∈ conditions, e.Scoped False [target] (scope ++ [target])) :
    Way False scope target [⟨nodePattern target label, conditions⟩] := by
  refine ⟨⟨[], _, rfl, rfl⟩, by simp [patternsIntroduce, nodePattern, Pattern.introduces,
    Cypher.Node.introduces], ?_⟩
  rw [routeScoped, conditionsScoped_iff]
  exact ⟨by simp [nodePattern, Pattern.uses, Cypher.Node.uses], h, trivial⟩

/-- Matches that ask for nothing, one after the other. -/
lemma Silent.append {route later : List (Match Expr)} (h : Silent route) (h' : Silent later) :
    Silent (route ++ later) :=
  ⟨by simp [h.ne_nil], routeTidy_append h.tidy h'.tidy, by
    rw [routeParameters_append, h.parameters, h'.parameters, List.append_nil]⟩

/-- A node whose column agrees with one of another node. -/
structure Agreeing (source target : String) (m : Match Expr) : Prop where
  way : Way False [source] target [m]
  silent : Silent [m]

lemma agreeing {source target outer inner label : String} (ho : PlainColumn outer)
    (hi : PlainColumn inner) (hl : Unmarked label) (hs : Unmarked source) (ht : Unmarked target) :
    Agreeing source target
      ⟨nodePattern target label, [columnsEqual target inner source outer]⟩ := by
  have hequal : columnsEqual target inner source outer =
      .test (.property ⟨target, inner⟩) (.compare .eq) (.property ⟨source, outer⟩) := by
    rw [columnsEqual, hi.ofColumn, ho.ofColumn]
    rfl
  rw [hequal]
  refine ⟨.node label (by simp [Expr.Scoped, Term.uses]), by simp, ?_, rfl⟩
  exact ⟨⟨unmarked_nodePattern ht hl, ⟨hi.text ht, ho.text hs⟩, trivial⟩, trivial⟩

namespace DirectRelation

variable {d : DirectRelation} {source target pivot : String}

/-- Where there are no edges there are properties. -/
lemma exists_foreignKey (h : d.strategy.edge? = none) : ∃ keys, d.strategy = .foreignKey keys := by
  cases hstrategy : d.strategy with
  | foreignKey keys => exact ⟨keys, rfl⟩
  | nativeEdge edge parentKey relatedKey => simp [hstrategy, Strategy.edge?] at h
  | hybrid keys edge parentKey relatedKey => simp [hstrategy, Strategy.edge?] at h

/-- A hop leads from its source to its target, and asks for nothing. -/
lemma Legible.hop (h : d.Legible) (hpivot : d.HasPivot) (hs : Unmarked source)
    (ht : Unmarked target) (hp : Unmarked pivot) :
    Way False [source] target (d.hop source target pivot) ∧ Silent (d.hop source target pivot) := by
  cases hedge : d.strategy.edge? with
  | some spot =>
      obtain ⟨edge, parentKey, relatedKey⟩ := spot
      obtain ⟨htype, -⟩ := h.edge hedge
      rw [(overEdges hedge).hop]
      refine ⟨⟨⟨[], _, rfl, rfl⟩, ?_, ?_⟩, by simp, ⟨⟨?_, trivial⟩, trivial⟩, rfl⟩
      · simp [patternsIntroduce, EdgeSpec.between, Pattern.introduces, Cypher.Node.introduces]
      · simp [routeScoped, EdgeSpec.between, conditionsScoped_iff, Pattern.uses, Cypher.Node.uses]
      · have hbinder : Unmarked (if d.kind = .belongsToMany then pivot else "") := by
          split_ifs
          · exact hp
          · decide
        exact unmarked_path (unmarked_node hs none (by simp)) (unmarked_edge hbinder htype _)
          (unmarked_nodePattern ht h.relatedLabel)
  | none =>
      obtain ⟨keys, hstrategy⟩ := exists_foreignKey hedge
      have hkeys : d.strategy.keys? = some keys := by rw [hstrategy, Strategy.keys?]
      obtain ⟨hlocal, hforeign⟩ := h.keys hkeys
      cases hkind : d.kind with
      | belongsTo =>
          rw [(overColumns_of_belongsTo hstrategy hkind).hop]
          obtain ⟨hway, hsilent⟩ := agreeing hforeign hlocal h.relatedLabel hs ht
          exact ⟨hway, hsilent⟩
      | hasOne =>
          rw [(overColumns_of_has hstrategy (.inl hkind)).hop]
          obtain ⟨hway, hsilent⟩ := agreeing hlocal hforeign h.relatedLabel hs ht
          exact ⟨hway, hsilent⟩
      | hasMany =>
          rw [(overColumns_of_has hstrategy (.inr hkind)).hop]
          obtain ⟨hway, hsilent⟩ := agreeing hlocal hforeign h.relatedLabel hs ht
          exact ⟨hway, hsilent⟩
      | belongsToMany =>
          obtain ⟨spec, hspec⟩ := hpivot keys hstrategy hkind
          obtain ⟨hlabel, hparent, hrelated⟩ := h.pivot hspec
          rw [(overPivot hstrategy hkind hspec).hop]
          have hfirst := agreeing hlocal hparent hlabel hs hp
          have hsecond := agreeing hrelated hforeign h.relatedLabel hp ht
          exact ⟨hfirst.way.append hsecond.way, hfirst.silent.append hsecond.silent⟩

/-- Where a hop goes over edges and has pivots, the edge is the pivot. -/
lemma pivot_mem_hop {edge : EdgeSpec} {parentKey relatedKey : String}
    (hedge : d.strategy.edge? = some (edge, parentKey, relatedKey)) (hkind : d.kind = .belongsToMany)
    (hne : pivot ≠ "") : pivot ∈ patternsIntroduce (d.hop source target pivot) := by
  rw [(overEdges hedge).hop, if_pos hkind]
  simp [patternsIntroduce, EdgeSpec.between, Pattern.introduces, Cypher.Edge.introduces, hne]

end DirectRelation

/-! ### Lookups -/

/-- Matches that lead to a node from keys in a parameter. -/
structure Searches (parameter binder : String) (route : List (Match Expr)) : Prop where
  way : Way False [] binder route
  tidy : routeTidy route
  parameters : routeParameters route = [parameter]

namespace Searches

variable {parameter binder column label target : String} {route later : List (Match Expr)}

/-- A search starts from a node with one of the keys in a column. -/
lemma start (hp : Cypher.Identifier.isPlain parameter.toList) (hb : Unmarked binder)
    (hc : PlainColumn column) (hl : Unmarked label) :
    Searches parameter binder [⟨nodePattern binder label, [.oneOf ⟨binder, column⟩ parameter]⟩] where
  way := .node label (by simp [Expr.oneOf, Expr.Scoped, Term.uses])
  tidy := ⟨⟨unmarked_nodePattern hb hl, ⟨hc.text hb, hp⟩, trivial⟩, trivial⟩
  parameters := rfl

lemma append (h : Searches parameter binder route) (hway : Way False [binder] target later)
    (hsilent : Silent later) : Searches parameter target (route ++ later) where
  way := h.way.append hway
  tidy := routeTidy_append h.tidy hsilent.tidy
  parameters := by rw [routeParameters_append, h.parameters, hsilent.parameters, List.append_nil]

end Searches

/-- A property of a variable that matches introduce. -/
structure Offers (route : List (Match Expr)) (p : Property) : Prop where
  owner : p.owner ∈ patternsIntroduce route
  text : Unmarked p.text

/-- The first match offers the property that it looks for. -/
lemma offers_start {binder column label : String} {conditions : List Expr} (hb : Unmarked binder)
    (hc : PlainColumn column) (later : List (Match Expr)) :
    Offers (⟨nodePattern binder label, conditions⟩ :: later) ⟨binder, column⟩ :=
  ⟨by simp [patternsIntroduce, nodePattern, Pattern.introduces, Cypher.Node.introduces], hc.text hb⟩

/-- A search from the parent on. -/
lemma searches_fromParent {parameter column label : String} {hops : List (Match Expr)}
    (hp : Cypher.Identifier.isPlain parameter.toList) (hc : PlainColumn column)
    (hl : Unmarked label) (hway : Way False [parentVariable] relatedVariable hops)
    (hsilent : Silent hops) :
    let key := Property.ofColumn parentVariable column
    let route := ⟨nodePattern parentVariable label, [.oneOf key parameter]⟩ :: hops
    Searches parameter relatedVariable route ∧ Offers route key := by
  rw [hc.ofColumn]
  exact ⟨(Searches.start hp parent_unmarked hc hl).append hway hsilent,
    offers_start parent_unmarked hc hops⟩

/-- The matches of a lookup along one hop lead from the keys to the related node; the key of the parent
and the pivot, if there is one, are theirs. -/
lemma DirectRelation.Legible.route {d : DirectRelation} (h : d.Legible) (hpivot : d.HasPivot)
    {parameter : String} (hp : Cypher.Identifier.isPlain parameter.toList) :
    let found := (Relation.direct d).route parameter
    Searches parameter relatedVariable found.1 ∧ Offers found.1 found.2 ∧
      (d.kind = .belongsToMany → pivotVariable ∈ patternsIntroduce found.1) := by
  cases hedge : d.strategy.edge? with
  | some spot =>
      obtain ⟨hway, hsilent⟩ := h.hop hpivot parent_unmarked related_unmarked pivot_unmarked
      have hfound := searches_fromParent hp h.parentKey h.parentLabel hway hsilent
      rw [Relation.route, (overEdges hedge).directRoute?]
      refine ⟨hfound.1, hfound.2, fun hkind => ?_⟩
      rw [patternsIntroduce, List.flatMap_cons]
      exact List.mem_append_right _ (pivot_mem_hop hedge hkind (by decide))
  | none =>
      obtain ⟨keys, hstrategy⟩ := exists_foreignKey hedge
      have hkeys : d.strategy.keys? = some keys := by rw [hstrategy, Strategy.keys?]
      obtain ⟨hlocal, hforeign⟩ := h.keys hkeys
      cases hkind : d.kind with
      | belongsTo =>
          rw [Relation.route, (overColumns_of_belongsTo hstrategy hkind).directRoute?]
          rw [hlocal.ofColumn]
          exact ⟨.start hp related_unmarked hlocal h.relatedLabel,
            offers_start related_unmarked hlocal [], by simp⟩
      | hasOne =>
          rw [Relation.route, (overColumns_of_has hstrategy (.inl hkind)).directRoute?]
          rw [hforeign.ofColumn]
          exact ⟨.start hp related_unmarked hforeign h.relatedLabel,
            offers_start related_unmarked hforeign [], by simp⟩
      | hasMany =>
          rw [Relation.route, (overColumns_of_has hstrategy (.inr hkind)).directRoute?]
          rw [hforeign.ofColumn]
          exact ⟨.start hp related_unmarked hforeign h.relatedLabel,
            offers_start related_unmarked hforeign [], by simp⟩
      | belongsToMany =>
          obtain ⟨spec, hspec⟩ := hpivot keys hstrategy hkind
          obtain ⟨hlabel, hparentReference, hrelatedReference⟩ := h.pivot hspec
          rw [Relation.route, (overPivot hstrategy hkind hspec).directRoute?]
          rw [hparentReference.ofColumn]
          obtain ⟨hway, hsilent⟩ :=
            agreeing hrelatedReference hforeign h.relatedLabel pivot_unmarked related_unmarked
          have hfirst := Searches.start hp pivot_unmarked hparentReference hlabel
          refine ⟨hfirst.append hway hsilent, offers_start pivot_unmarked hparentReference _,
            fun _ => ?_⟩
          simp [patternsIntroduce, nodePattern, Pattern.introduces, Cypher.Node.introduces]

/-- The same of a lookup along any relation. -/
lemma Relation.Legible.route {r : Relation} (h : r.Legible) (hpivots : r.HasPivots)
    {parameter : String} (hp : Cypher.Identifier.isPlain parameter.toList) :
    Searches parameter relatedVariable (r.route parameter).1 ∧
      Offers (r.route parameter).1 (r.route parameter).2 ∧
      (r.withPivot → pivotVariable ∈ patternsIntroduce (r.route parameter).1) := by
  cases r with
  | direct d =>
      obtain ⟨hsearches, hoffers, hpivot⟩ := (h.hops d (by simp [Relation.hops])).route hpivots hp
      exact ⟨hsearches, hoffers, fun hkind => hpivot (by simpa [Relation.withPivot, Relation.kind]
        using hkind)⟩
  | through t =>
      obtain ⟨hfirst, hsecond⟩ := hpivots
      have hf := h.hops t.first (by simp [Relation.hops])
      have hs := h.hops t.second (by simp [Relation.hops])
      have hmiddle : Unmarked "mid0" := by decide
      have hpivots : Unmarked "pivot0" ∧ Unmarked pivotVariable := by decide
      have hone := hf.hop hfirst parent_unmarked hmiddle hpivots.1
      have htwo := hs.hop hsecond hmiddle related_unmarked hpivots.2
      have hfound := searches_fromParent hp hf.parentKey hf.parentLabel (hone.1.append htwo.1)
        (hone.2.append htwo.2)
      exact ⟨hfound.1, hfound.2, by simp [Relation.withPivot, Relation.kind]⟩

/-- Matches that are looked for one after the other ask for their parameters. -/
lemma stepsTell_route {route : List (Match Expr)} {ps : List String} (h : routeTidy route)
    (hps : routeParameters route = ps) : StepsTell (route.map Step.find) ps := by
  subst hps
  induction route with
  | nil => exact stepsTell_nil
  | cons m rest ih =>
      rw [routeTidy] at h
      rw [List.map_cons, routeParameters]
      have hfind : (Step.find m).Tidy := h.1
      exact (stepsTell_singleton hfind).append (ih h.2)

namespace Searches

variable {parameter binder : String} {route : List (Match Expr)}

lemma ne_nil (h : Searches parameter binder route) : route ≠ [] := by
  obtain ⟨front, m, rfl, -⟩ := h.way.arrives
  simp

/-- A search with a condition on the node that it leads to asks for the parameters of the condition after
its own. -/
lemma tells (h : Searches parameter binder route) {scope : Option Expr} {ps : List String}
    (hscope : OptionTells scope ps) :
    StepsTell ((addCondition route scope).map Step.find) ([parameter] ++ ps) := by
  cases scope with
  | none =>
      obtain rfl : ps = [] := hscope
      exact stepsTell_route h.tidy h.parameters
  | some e =>
      obtain ⟨htidy, hparameters⟩ := addCondition_tells h.ne_nil h.tidy hscope
      exact stepsTell_route htidy (by rw [hparameters, h.parameters])

end Searches

lemma patternsIntroduce_addCondition (route : List (Match Expr)) (scope : Option Expr) :
    patternsIntroduce (addCondition route scope) = patternsIntroduce route := by
  cases scope with
  | none => rfl
  | some e =>
      induction route using List.reverseRecOn with
      | nil => rfl
      | append_singleton front m _ =>
          rw [Cypher.addCondition_concat]
          simp [patternsIntroduce]

namespace Relation

variable {r : Relation}

/-- The result columns of a lookup ask for nothing. -/
lemma stepsTell_lookupItems {key : Property} (h : Unmarked key.text) :
    StepsTell [.project false (r.lookupItems key)] [] := by
  have hitems : ∀ item ∈ r.lookupItems key, item.Tidy ∧ item.parameters = [] := by
    have hkey : (Item.named (.property key) parentKeyColumn).Tidy :=
      tidy_named (by decide) h (by simp)
    have hproperties {binder name : String} (hb : Unmarked binder) (hn : Unmarked name) :
        (Item.named (.properties binder) name).Tidy :=
      tidy_named hn (Selection.Legible.unmarked_properties hb) (by simp)
    rw [lookupItems]
    intro item hitem
    rcases List.mem_append.mp hitem with hitem | hitem
    · simp only [List.mem_cons, List.not_mem_nil, or_false] at hitem
      rcases hitem with rfl | rfl
      · exact ⟨hkey, rfl⟩
      · exact ⟨hproperties (by decide) (by decide), rfl⟩
    · split_ifs at hitem
      · obtain rfl := List.mem_singleton.mp hitem
        exact ⟨hproperties (by decide) (by decide), rfl⟩
      · simp at hitem
  refine ⟨fun step hstep => ?_, ?_⟩
  · obtain rfl := List.mem_singleton.mp hstep
    exact fun item hitem => (hitems item hitem).1
  · simpa [Step.parameters] using fun item hitem => (hitems item hitem).2

/-- The result columns of a lookup speak of what its matches introduce. -/
lemma lookupItems_uses {scope : List String} {key : Property} (hkey : key.owner ∈ scope)
    (hrelated : relatedVariable ∈ scope) (hpivot : r.withPivot → pivotVariable ∈ scope) :
    ∀ item ∈ r.lookupItems key, item.value.uses ⊆ scope := by
  rw [lookupItems]
  refine List.forall_mem_append.mpr ⟨?_, ?_⟩
  · simp [Item.named, Projection.uses, hkey, hrelated]
  · split_ifs with hwith
    · simp [Item.named, Projection.uses, hpivot hwith]
    · simp

namespace Legible

lemma sort_scoped (h : r.Legible) {scope : List String} (hrelated : relatedVariable ∈ scope) :
    stepsScoped scope (sortStep relatedVariable r.finalScope.orders) := by
  rw [sortStep]
  split_ifs
  · trivial
  · refine ⟨fun key hkey => ?_, trivial⟩
    obtain ⟨order, horder, rfl⟩ := List.mem_map.mp hkey
    rw [(h.orders order horder).ofColumn]
    exact hrelated

/-- **Lookups**: the statement of a lookup is closed and has its parameters. -/
theorem lookup (h : r.Legible) (hpivots : r.HasPivots) {keys : List Value} {l : Lookup}
    (hl : r.lookup keys = .ok l) : l.statement.Closed ∧ l.statement.Bound := by
  have hp0 : Bindings.parameterName 0 = "p0" := by decide
  have hplain : Cypher.Identifier.isPlain "p0".toList := by decide
  have hraw : False ∨ membersRawFree r.finalScope.filter := .inr h.rawFree
  obtain ⟨hsearch, hkey, hpivot⟩ := h.route hpivots hplain
  have hscoped := (r.finalScope.filter.compile_enclosed relatedVariable (keyBindings keys) h.within
    hraw).result
  obtain ⟨hgrows, htells⟩ := Filter.compile_numbers h.filter related_unmarked (keyBindings keys)
  rw [lookup_eq] at hl
  rcases hr : (r.finalScope.filter.compile relatedVariable).on (keyBindings keys) with ⟨e | scope, b⟩
  · rw [hr] at hl
    cases hl
  rw [hr] at hl hscoped hgrows htells
  obtain rfl := Except.ok.inj hl
  rw [lookupOf, hp0]
  constructor
  · have hroute := hsearch.way.addCondition fun e he => (hscoped scope rfl e he).inScope
    have hafter := Cypher.after_find [] (addCondition (r.route "p0").1 scope)
    rw [patternsIntroduce_addCondition, List.nil_append] at hafter
    refine stepsScoped_append.mpr ⟨stepsScoped_append.mpr ⟨stepsScoped_find.mpr hroute, ?_, trivial⟩,
      ?_⟩
    · rw [hafter]
      exact lookupItems_uses hkey.owner hsearch.way.reaches hpivot
    · rw [List.foldl_append, hafter]
      exact h.sort_scoped hsearch.way.reaches
  · refine bound_of_names (b := b) rfl ?_
    have hsort := stepsTell_sort related_unmarked
      fun order horder => (h.orders order horder).unmarked
    obtain ⟨htidy, hps⟩ := ((hsearch.tells (htells scope rfl)).append_silent
      (stepsTell_lookupItems (r := r) hkey.text)).append_silent hsort
    have hstart : Bindings.since {} (keyBindings keys) = ["p0"] := by
      simp [Bindings.since, keyBindings, Compiling.bind_value, hp0]
    have hsince := Bindings.since_append (b := {}) List.nil_prefix hgrows
    rw [hstart] at hsince
    refine (Cypher.asks_steps htidy).names.trans ?_
    rw [hps, hsince]
    simp [Bindings.since, List.range_eq_range']

end Legible

end Relation

end GraphMapper
