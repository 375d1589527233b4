import GraphMapper.Proofs.Filter.Compiling
import GraphMapper.Proofs.Parameter.Text
import GraphMapper.Proofs.Value.Fields

/-!
Compilations number their parameters in the order of the text.

* `Bindings.since`: the names of the parameters bound from some bindings to later ones;
* `Numbers`: a compilation that keeps what was bound, and whose result says something about the
  parameters bound meanwhile; `Numbers.bind` puts two of them together;
* `Condition.Legible`, `membersLegible`: filters without a dollar sign in what is written of them;
* `Condition.compile_numbers`, `Clause.compile_numbers`, `compileChain_numbers`: the induction over
  the filter; what is written of it asks for just the parameters bound meanwhile.
-/

namespace GraphMapper

open Cypher (Asks Expr Match Piece Property Stops Term Test Unmarked piecesParameters
  piecesTidy routeParameters routeTidy unmarked_append)

variable {α β : Type}

/-! ### Parameters bound meanwhile -/

/-- The names of the parameters bound from `b` on. -/
def Bindings.since (b after : Bindings) : List String :=
  (List.range' b.values.length (after.values.length - b.values.length)).map Bindings.parameterName

lemma Bindings.since_of_eq {b after : Bindings} (h : after.values = b.values) :
    b.since after = [] := by
  simp [since, h]

lemma Bindings.since_append {b mid after : Bindings} (hb : b.values <+: mid.values)
    (hm : mid.values <+: after.values) : b.since mid ++ mid.since after = b.since after := by
  have hbm := hb.length_le
  have hma := hm.length_le
  have hrange := List.range'_append_1 (s := b.values.length)
    (m := mid.values.length - b.values.length) (n := after.values.length - mid.values.length)
  rw [show b.values.length + (mid.values.length - b.values.length) = mid.values.length by omega,
    show mid.values.length - b.values.length + (after.values.length - mid.values.length) =
      after.values.length - b.values.length by omega] at hrange
  rw [since, since, since, ← List.map_append, hrange]

/-- A compilation that keeps what was bound.  Its result, if there is one, is as `P` says given the
parameters bound meanwhile. -/
def Numbers (x : Compiling α) (P : α → List String → Prop) : Prop :=
  ∀ b, b.values <+: (x.on b).2.values ∧ ∀ a, (x.on b).1 = .ok a → P a (b.since (x.on b).2)

lemma Numbers.pure {P : α → List String → Prop} {a : α} (h : P a []) : Numbers (pure a) P := by
  intro b
  refine ⟨List.prefix_rfl, fun r hr => ?_⟩
  obtain rfl : a = r := by simpa using hr
  rwa [Compiling.on_pure, Bindings.since_of_eq rfl]

lemma Numbers.throw (e : CompileError) (P : α → List String → Prop) :
    Numbers (throw e : Compiling α) P := by
  intro b
  refine ⟨List.prefix_rfl, fun r hr => ?_⟩
  simp at hr

lemma Numbers.bind {P : α → List String → Prop} {Q : β → List String → Prop} {x : Compiling α}
    {f : α → Compiling β} (hx : Numbers x P)
    (hf : ∀ a ps, P a ps → Numbers (f a) fun r qs => Q r (ps ++ qs)) : Numbers (x >>= f) Q := by
  intro b
  obtain ⟨hgrow, hresult⟩ := hx b
  rw [Compiling.on_bind]
  generalize x.on b = r at hgrow hresult ⊢
  obtain ⟨r, mid⟩ := r
  cases r with
  | error e => exact ⟨hgrow, fun a ha => by simp at ha⟩
  | ok a =>
      obtain ⟨hgrow', hresult'⟩ := hf a _ (hresult a rfl) mid
      refine ⟨hgrow.trans hgrow', fun r hr => ?_⟩
      have hsince : b.since mid ++ mid.since ((f a).on mid).2 = b.since ((f a).on mid).2 :=
        Bindings.since_append hgrow hgrow'
      exact hsince ▸ hresult' r hr

lemma Numbers.mono {P Q : α → List String → Prop} {x : Compiling α} (hx : Numbers x P)
    (h : ∀ a ps, P a ps → Q a ps) : Numbers x Q := fun b =>
  ⟨(hx b).1, fun a ha => h a _ ((hx b).2 a ha)⟩

lemma Numbers.map {P : α → List String → Prop} {Q : β → List String → Prop} {x : Compiling α}
    (f : α → β) (hx : Numbers x P) (h : ∀ a ps, P a ps → Q (f a) ps) : Numbers (f <$> x) Q := by
  rw [map_eq_pure_bind]
  exact hx.bind fun a ps hp => .pure (by simpa using h a ps hp)

/-- A computation that cannot fail, in two parts. -/
lemma Numbers.lift_bind {P : α → List String → Prop} {Q : β → List String → Prop}
    {s : StateM Bindings α} {f : α → StateM Bindings β} (hs : Numbers (liftM s) P)
    (hf : ∀ a ps, P a ps → Numbers (liftM (f a)) fun r qs => Q r (ps ++ qs)) :
    Numbers (liftM (s >>= f)) Q := by
  change Numbers (liftM s >>= fun a => liftM (f a)) Q
  exact hs.bind hf

lemma Numbers.lift_pure {P : α → List String → Prop} {a : α} (h : P a []) :
    Numbers (liftM (Pure.pure a : StateM Bindings α)) P :=
  Numbers.pure h

lemma isPlain_parameterName (i : ℕ) :
    Cypher.Identifier.isPlain (Bindings.parameterName i).toList := by
  have hdigits : ∀ c ∈ (toString i).toList, Cypher.Identifier.isPart c := by
    intro c hc
    rw [Nat.toString_eq_ofList_toDigits, String.toList_ofList] at hc
    have hdigit := Nat.isDigit_of_mem_toDigits (by decide) (by decide) hc
    simp [Cypher.Identifier.isPart, Char.isAlphanum, hdigit]
  have hp : Cypher.Identifier.isStart 'p' := by decide
  simpa [Bindings.parameterName, Cypher.Identifier.isPlain, hp] using hdigits

/-- Binding a value gives out its parameter. -/
lemma Numbers.value (v : Value) : Numbers (liftM (Compiling.bind v)) fun name ps =>
    Cypher.Identifier.isPlain name.toList ∧ ps = [name] := by
  intro b
  rw [Compiling.on_lift, Compiling.bind_value]
  refine ⟨List.prefix_append _ _, fun name hname => ?_⟩
  obtain rfl : Bindings.parameterName b.values.length = name := by simpa using hname
  exact ⟨isPlain_parameterName _, by simp [Bindings.since]⟩

lemma Numbers.fresh {letter : String} (h : Unmarked letter) :
    Numbers (liftM (Compiling.fresh letter)) fun name ps => Unmarked name ∧ ps = [] := by
  intro b
  rw [Compiling.on_lift, Compiling.fresh_apply]
  refine ⟨List.prefix_rfl, fun name hname => ?_⟩
  obtain rfl : letter ++ toString b.subqueries = name := by simpa using hname
  exact ⟨unmarked_append.mpr ⟨h, Cypher.unmarked_toString _⟩, Bindings.since_of_eq rfl⟩

/-! ### Filters without a dollar sign -/

/-- No letter, digit or underscore directly follows a marked place. -/
def Raw.Separated (places : List (Option Char)) : Prop :=
  places.IsChain fun place next =>
    place = none → ∀ c ∈ next, Cypher.Identifier.isPart c = false

instance Raw.decidableSeparated : DecidablePred Raw.Separated := fun places =>
  decidable_of_iff
    (places.IsChain fun place next =>
      place = none → next.all (fun c => !Cypher.Identifier.isPart c) = true) <| by
    have hsame : ∀ place next : Option Char,
        (place = none → next.all (fun c => !Cypher.Identifier.isPart c) = true) ↔
          (place = none → ∀ c ∈ next, Cypher.Identifier.isPart c = false) := by
      intro place next
      rw [Option.all_eq_true]
      simp only [Bool.not_eq_true', Option.mem_def]
    simp only [Raw.Separated, hsame]

/-- No dollar sign stands in the names of a correlation. -/
def Correlation.Legible : Correlation → Prop
  | .column outer inner => Unmarked outer ∧ Unmarked inner
  | .edge edgeType _ => Unmarked edgeType
  | .through first label second => first.Legible ∧ Unmarked label ∧ second.Legible

mutual

/-- No dollar sign stands in the names and texts of a condition, and the marked places of a text
written by hand can be told from what follows. -/
def Condition.Legible : Condition → Prop
  | .test column _ _ => Unmarked column
  | .columns first _ second => Unmarked first ∧ Unmarked second
  | .group filter => membersLegible filter
  | .raw text _ => Unmarked text ∧ Raw.Separated (Raw.places none text.toList)
  | .related label correlation filter =>
    Unmarked label ∧ correlation.Legible ∧ membersLegible filter

def Clause.Legible : Clause Condition → Prop
  | ⟨_, _, condition⟩ => condition.Legible

/-- The same of all members of a filter. -/
def membersLegible : List (Clause Condition) → Prop
  | [] => True
  | clause :: rest => clause.Legible ∧ membersLegible rest

end

/-! ### Leaves -/

/-- A condition that asks for just these parameters. -/
def Tells (e : Expr) (ps : List String) : Prop :=
  e.Tidy ∧ e.parameters = ps

lemma unmarked_property {p : Property} (ho : Unmarked p.owner) (hn : Unmarked p.name) :
    Unmarked p.text := by
  rw [Property.text, unmarked_append, unmarked_append]
  exact ⟨⟨ho, by decide⟩, Cypher.unmarked_quote hn⟩

lemma unmarked_ofColumn {binder column : String} (hb : Unmarked binder) (hc : Unmarked column) :
    Unmarked (Property.ofColumn binder column).text := by
  have hwhole : Unmarked (Property.text ⟨binder, column⟩) := unmarked_property hb hc
  rw [Property.ofColumn]
  split
  · rename_i dot c rest hdrop
    split_ifs
    · have howner : Unmarked (String.ofList (column.toList.takeWhile (· ≠ '.'))) := by
        rw [Unmarked, String.toList_ofList]
        exact fun hm => hc ((List.takeWhile_prefix _).subset hm)
      have hname : Unmarked (String.ofList (c :: rest)) := by
        rw [Unmarked, String.toList_ofList]
        intro hm
        have hdrop' : '$' ∈ column.toList.dropWhile (· ≠ '.') := by
          rw [hdrop]
          exact List.mem_cons_of_mem _ hm
        exact hc ((List.dropWhile_suffix _).subset hdrop')
      exact unmarked_property howner hname
    · exact hwhole
  · exact hwhole

/-- A test of a property against a parameter. -/
lemma tells_test {p : Property} (hp : Unmarked p.text) (t : Test) {name : String}
    (hn : Cypher.Identifier.isPlain name.toList) :
    Tells (.test (.property p) t (.parameter name)) [name] :=
  ⟨⟨hp, hn⟩, rfl⟩

lemma tells_likeExpr {p : Property} (hp : Unmarked p.text) (op : Operator)
    (kind : Like.Shape.Kind) {name : String} (hn : Cypher.Identifier.isPlain name.toList) :
    Tells (likeExpr op p kind name) [name] := by
  cases op <;> cases kind <;> exact ⟨⟨hp, hn⟩, rfl⟩

/-- What a test comes to is written with its parameters in the order in which they are bound. -/
lemma TestForm.emit_numbers {p : Property} (hp : Unmarked p.text) (form : TestForm) :
    Numbers (liftM (form.emit p)) Tells := by
  cases form with
  | isNull => exact .lift_pure ⟨hp, rfl⟩
  | isNotNull => exact .lift_pure ⟨hp, rfl⟩
  | constant b => exact .lift_pure ⟨trivial, rfl⟩
  | single negated t v =>
      refine (Numbers.value v).lift_bind fun name ps hname => .lift_pure ?_
      obtain ⟨hplain, rfl⟩ := hname
      cases negated <;> exact tells_test hp t hplain
  | range lower low c upper high =>
      refine (Numbers.value low).lift_bind fun first ps hfirst => ?_
      refine (Numbers.value high).lift_bind fun second qs hsecond => .lift_pure ?_
      obtain ⟨hf, rfl⟩ := hfirst
      obtain ⟨hs, rfl⟩ := hsecond
      exact ⟨⟨⟨hp, hf⟩, ⟨hp, hs⟩⟩, rfl⟩
  | pattern op text =>
      rw [TestForm.emit, compileLike_eq]
      refine (Numbers.value _).lift_bind fun name ps hname => .lift_pure ?_
      obtain ⟨hplain, rfl⟩ := hname
      exact tells_likeExpr hp op _ hplain

lemma compileTest_numbers {binder column : String} (hb : Unmarked binder) (hc : Unmarked column)
    (op : Operator) (operand : Operand) :
    Numbers (compileTest binder column op operand) Tells := by
  rw [compileTest_eq]
  cases TestForm.of column op operand with
  | error e => exact .throw e _
  | ok form => exact form.emit_numbers (unmarked_ofColumn hb hc)

/-- The characters of the places are those of the text, question marks outside of quotes apart. -/
lemma Raw.mem_of_mem_places {c : Char} {quote : Option Char} {text : List Char}
    (h : some c ∈ Raw.places quote text) : c ∈ text := by
  have step {d : Char} {rest : List Char} {later : List (Option Char)}
      (ih : some c ∈ later → c ∈ rest) (h : some c ∈ some d :: later) : c ∈ d :: rest := by
    rcases List.mem_cons.mp h with h | h
    · exact Option.some.inj h ▸ List.mem_cons_self
    · exact List.mem_cons_of_mem _ (ih h)
  fun_induction Raw.places quote text with
  | case1 => simp at h
  | case2 rest ih => exact List.mem_cons_of_mem _ (ih (by simpa using h))
  | case3 d rest _ _ ih => exact step ih h
  | case4 d rest _ _ ih => exact step ih h
  | case5 q => exact step (fun hm => by simp at hm) h
  | case6 q next later ih => exact step (step ih) h
  | case7 d rest _ ih => exact step ih h
  | case8 d rest q _ _ ih => exact step ih h

/-- No name goes on with the places. -/
def Raw.PlacesStop (places : List (Option Char)) : Prop :=
  ∀ place ∈ places.head?, ∀ c ∈ place, Cypher.Identifier.isPart c = false

/-- Parameters that fill the marked places stand in the order in which they are bound, and the text
that they are put into begins like its places. -/
lemma Raw.fill_numbers (text : String) (supplied : ℕ) {places : List (Option Char)}
    (hchars : some '$' ∉ places) (hsep : Separated places) (values : List Value) :
    Numbers (fill text supplied places values) fun pieces ps =>
      piecesTidy pieces ∧ piecesParameters pieces = ps ∧
        (PlacesStop places → Stops (String.join (pieces.map Piece.text)).toList) := by
  induction places generalizing values with
  | nil =>
      cases values with
      | nil => exact .pure ⟨trivial, rfl, fun _ => Cypher.stops_nil⟩
      | cons v rest => exact .throw _ _
  | cons place rest ih =>
      obtain ⟨hplace, hrest⟩ : some '$' ≠ place ∧ some '$' ∉ rest := by simpa using hchars
      obtain ⟨hnext, hlater⟩ := List.isChain_cons.mp hsep
      cases place with
      | some c =>
          rw [fill]
          refine (ih hrest hlater values).bind fun pieces ps hp => .pure ?_
          obtain ⟨htidy, rfl, _⟩ := hp
          refine ⟨⟨fun hc => hplace (by rw [hc]), htidy⟩, by simp [piecesParameters],
                fun hstop => ?_⟩
          have hchar : (Piece.char c).text.toList = [c] := by simp [Piece.text]
          rw [List.map_cons, String.join_cons, String.toList_append, hchar]
          exact Cypher.stops_cons (hstop _ rfl c rfl) _
      | none =>
          cases values with
          | nil => exact .throw _ _
          | cons v values =>
              rw [fill]
              refine (Numbers.value v).bind fun name ps hname => ?_
              refine (ih hrest hlater values).bind fun pieces qs hp => .pure ?_
              obtain ⟨hplain, rfl⟩ := hname
              obtain ⟨htidy, rfl, hstop⟩ := hp
              refine ⟨⟨hplain, hstop fun next hm => hnext next hm rfl, htidy⟩,
                by simp [piecesParameters], fun _ => ?_⟩
              have hname : (Piece.parameter name).text.toList = '$' :: name.toList := by
                simp [Piece.text]
              rw [List.map_cons, String.join_cons, String.toList_append, hname]
              exact Cypher.stops_cons (by decide) _

lemma compileRaw_numbers {text : String} (hu : Unmarked text)
    (hsep : Raw.Separated (Raw.places none text.toList)) (values : List Value) :
    Numbers (compileRaw text values) Tells := by
  rw [compileRaw]
  have hchars : some '$' ∉ Raw.places none text.toList := fun hm => hu (Raw.mem_of_mem_places hm)
  refine (Raw.fill_numbers text _ hchars hsep values).bind fun pieces ps hp => .pure ?_
  obtain ⟨htidy, hps, _⟩ := hp
  exact ⟨htidy, by simpa [Expr.parameters] using hps⟩

/-! ### Subqueries -/

/-- Matches that ask for nothing. -/
structure Silent (route : List (Match Expr)) : Prop where
  ne_nil : route ≠ []
  tidy : routeTidy route
  parameters : routeParameters route = []

lemma routeTidy_append {first second : List (Match Expr)} (hf : routeTidy first)
    (hs : routeTidy second) : routeTidy (first ++ second) := by
  induction first with
  | nil => exact hs
  | cons m rest ih =>
      rw [routeTidy] at hf
      rw [List.cons_append, routeTidy]
      exact ⟨hf.1, ih hf.2⟩

lemma routeParameters_append (first second : List (Match Expr)) :
    routeParameters (first ++ second) = routeParameters first ++ routeParameters second := by
  induction first with
  | nil => rfl
  | cons m rest ih => rw [List.cons_append, routeParameters, routeParameters, ih, List.append_assoc]

lemma conditionsTidy_append {first second : List Expr} (hf : Cypher.conditionsTidy first)
    (hs : Cypher.conditionsTidy second) : Cypher.conditionsTidy (first ++ second) := by
  induction first with
  | nil => exact hs
  | cons e rest ih =>
      rw [Cypher.conditionsTidy] at hf
      rw [List.cons_append, Cypher.conditionsTidy]
      exact ⟨hf.1, ih hf.2⟩

lemma conditionsParameters_append (first second : List Expr) :
    Cypher.conditionsParameters (first ++ second) =
      Cypher.conditionsParameters first ++ Cypher.conditionsParameters second := by
  induction first with
  | nil => rfl
  | cons e rest ih =>
      rw [List.cons_append, Cypher.conditionsParameters, Cypher.conditionsParameters, ih,
        List.append_assoc]

lemma unmarked_node {binder : String} (hb : Unmarked binder) (label : Option String)
    (hl : ∀ name ∈ label, Unmarked name) : Unmarked (Cypher.Node.text ⟨binder, label⟩) := by
  rw [Cypher.Node.text]
  cases label with
  | none =>
      simp only [unmarked_append]
      exact ⟨⟨by decide, hb⟩, by decide⟩
  | some name =>
      simp only [unmarked_append]
      exact ⟨⟨⟨⟨by decide, hb⟩, by decide⟩, Cypher.unmarked_quote (hl name rfl)⟩, by decide⟩

lemma unmarked_edge {binder edgeType : String} (hb : Unmarked binder) (h : Unmarked edgeType)
    (direction : Cypher.Direction) : Unmarked (Cypher.Edge.text ⟨binder, edgeType, direction⟩) := by
  have hbody : Unmarked (binder ++ ":" ++ Cypher.Identifier.quote edgeType) :=
    unmarked_append.mpr ⟨unmarked_append.mpr ⟨hb, by decide⟩, Cypher.unmarked_quote h⟩
  cases direction <;>
  · rw [Cypher.Edge.text]
    simp only [unmarked_append] at hbody ⊢
    exact ⟨⟨by decide, hbody⟩, by decide⟩

/-- The matches that lead to a related node ask for nothing. -/
lemma Correlation.route_numbers {outer inner label : String} (ho : Unmarked outer)
    (hi : Unmarked inner) (hl : Unmarked label) {correlation : Correlation}
    (h : correlation.Legible) :
    Numbers (liftM (correlation.route outer inner label)) fun route ps =>
      Silent route ∧ ps = [] := by
  induction correlation generalizing outer inner label with
  | column outerColumn innerColumn =>
      have hnode := unmarked_node hi (some label) (by simpa using hl)
      refine .lift_pure ⟨⟨by simp, ⟨⟨hnode, ⟨?_, ?_⟩, trivial⟩, trivial⟩, rfl⟩, rfl⟩
      · exact unmarked_ofColumn hi h.2
      · exact unmarked_ofColumn ho h.1
  | edge edgeType direction =>
      have hleft := unmarked_node ho none (by simp)
      have hright := unmarked_node hi (some label) (by simpa using hl)
      have hempty : Unmarked "" := by decide
      have hedge := unmarked_edge hempty h direction
      have hpath := unmarked_append.mpr ⟨unmarked_append.mpr ⟨hleft, hedge⟩, hright⟩
      exact .lift_pure ⟨⟨by simp, ⟨⟨hpath, trivial⟩, trivial⟩, rfl⟩, rfl⟩
  | through first middleLabel second ihf ihs =>
      obtain ⟨hf, hm, hs⟩ := h
      refine (Numbers.fresh (by decide)).lift_bind fun middle ps hmiddle => ?_
      obtain ⟨hmiddle, rfl⟩ := hmiddle
      refine (ihf ho hmiddle hm hf).lift_bind fun before ps hbefore => ?_
      obtain ⟨hbefore, rfl⟩ := hbefore
      refine (ihs hmiddle hi hl hs).lift_bind fun after ps hafter => .lift_pure ?_
      obtain ⟨hafter, rfl⟩ := hafter
      refine ⟨⟨by simp [hbefore.ne_nil], routeTidy_append hbefore.tidy hafter.tidy, ?_⟩, rfl⟩
      rw [routeParameters_append, hbefore.parameters, hafter.parameters, List.append_nil]

/-- A condition that is added asks for its own parameters after those of the matches. -/
lemma addCondition_tells {route : List (Match Expr)} (hne : route ≠ []) (ht : routeTidy route)
    {e : Expr} {ps : List String} (he : Tells e ps) :
    routeTidy (addCondition route (some e)) ∧
      routeParameters (addCondition route (some e)) = routeParameters route ++ ps := by
  obtain ⟨hetidy, rfl⟩ := he
  induction route with
  | nil => exact absurd rfl hne
  | cons m rest ih =>
      rw [routeTidy] at ht
      cases rest with
      | nil =>
          obtain ⟨pattern, conditions⟩ := m
          obtain ⟨hpattern, hconditions⟩ := ht.1
          have hgroup : Cypher.conditionsTidy [Expr.group e] := ⟨hetidy, trivial⟩
          refine ⟨⟨⟨hpattern, conditionsTidy_append hconditions hgroup⟩, trivial⟩, ?_⟩
          have hlast := conditionsParameters_append conditions [Expr.group e]
          simpa [addCondition, routeParameters, Cypher.Match.parameters,
            Cypher.conditionsParameters, Expr.parameters] using hlast
      | cons next rest =>
          obtain ⟨htidy, hparameters⟩ := ih (by simp) ht.2
          have hcons : addCondition (m :: next :: rest) (some e) =
              m :: addCondition (next :: rest) (some e) := rfl
          rw [hcons, routeTidy, routeParameters, hparameters, ← List.append_assoc]
          exact ⟨⟨ht.1, htidy⟩, rfl⟩

/-! ### Chains -/

/-- A condition, if there is one, that asks for just these parameters. -/
def OptionTells (r : Option Expr) (ps : List String) : Prop :=
  match r with
  | none => ps = []
  | some e => Tells e ps

lemma optionTells_none : OptionTells none [] := rfl

lemma OptionTells.written {r : Option Expr} {ps : List String} (h : OptionTells r ps)
    (condition : Condition) (negated : Bool) :
    OptionTells (r.map (condition.written negated)) ps := by
  cases r with
  | none => exact h
  | some e => cases negated <;> cases condition <;> exact h

/-- A chain continued by a member asks for the parameters of the member after its own. -/
lemma OptionTells.continue {chain r : Option Expr} {ps qs : List String} (hc : OptionTells chain ps)
    (hr : OptionTells r qs) (joiner : Option Cypher.Connective) :
    OptionTells (continueChain chain joiner r) (ps ++ qs) := by
  cases r with
  | none =>
      obtain rfl : qs = [] := hr
      simpa [continueChain] using hc
  | some e =>
      obtain ⟨hetidy, rfl⟩ := hr
      cases chain with
      | none =>
          obtain rfl : ps = [] := hc
          rw [continueChain, extendChain.eq_def]
          split
          · rfl
          · rename_i heq
            exact ⟨hetidy, rfl⟩
          · rename_i heq
            cases heq
      | some before =>
          obtain ⟨hbtidy, rfl⟩ := hc
          exact ⟨⟨hbtidy, hetidy⟩, rfl⟩

/-! ### Filters -/

mutual

theorem Condition.compile_numbers : ∀ {condition : Condition}, condition.Legible →
    ∀ {binder : String}, Unmarked binder → Numbers (condition.compile binder) OptionTells
  | .test column op operand, h, binder, hb => by
      rw [Condition.Legible] at h
      rw [Condition.compile]
      exact (compileTest_numbers hb h op operand).bind fun e ps he =>
        .pure (by simpa [OptionTells] using he)
  | .columns first op second, h, binder, hb => by
      rw [Condition.Legible] at h
      rw [Condition.compile]
      cases op.comparison? with
      | none => exact .throw _ _
      | some c =>
          exact .pure ⟨⟨unmarked_ofColumn hb h.1, unmarked_ofColumn hb h.2⟩, rfl⟩
  | .group filter, h, binder, hb => by
      rw [Condition.Legible] at h
      rw [Condition.compile]
      refine (compileChain_numbers h hb 0 optionTells_none).map _ fun chain ps hp => ?_
      cases chain with
      | none => exact hp
      | some e => exact hp
  | .raw text values, h, binder, _ => by
      rw [Condition.Legible] at h
      rw [Condition.compile]
      exact (compileRaw_numbers h.1 h.2 values).bind fun e ps he =>
        .pure (by simpa [OptionTells] using he)
  | .related label correlation filter, h, binder, hb => by
      rw [Condition.Legible] at h
      rw [Condition.compile]
      refine (Numbers.fresh (by decide)).bind fun inner ps hinner => ?_
      obtain ⟨hinner, rfl⟩ := hinner
      refine (Correlation.route_numbers hb hinner h.1 h.2.1).bind fun found ps hfound => ?_
      obtain ⟨hfound, rfl⟩ := hfound
      have hnested := compileChain_numbers h.2.2 hinner 0 optionTells_none
      refine hnested.bind fun nested ps hp => .pure ?_
      cases nested with
      | none =>
          obtain rfl : [] ++ ps = [] := hp
          exact ⟨hfound.tidy, hfound.parameters⟩
      | some e =>
          obtain ⟨htidy, hparameters⟩ := addCondition_tells hfound.ne_nil hfound.tidy hp
          refine ⟨htidy, ?_⟩
          rw [Expr.parameters, hparameters, hfound.parameters]
          simp

theorem Clause.compile_numbers : ∀ {clause : Clause Condition}, clause.Legible →
    ∀ {binder : String}, Unmarked binder → Numbers (clause.compile binder) OptionTells
  | ⟨joiner, negated, condition⟩, h, binder, hb => by
      rw [Clause.Legible] at h
      rw [Clause.compile_eq]
      exact (Condition.compile_numbers h hb).map _ fun r ps hr => hr.written condition negated

/-- The rest of a chain asks for its parameters after those of the chain so far. -/
theorem compileChain_numbers : ∀ {rest : List (Clause Condition)}, membersLegible rest →
    ∀ {binder : String}, Unmarked binder → ∀ (index : ℕ) {chain : Option Expr} {ps : List String},
      OptionTells chain ps →
      Numbers (compileChain binder index chain rest) fun r qs => OptionTells r (ps ++ qs)
  | [], _, binder, _, index, chain, ps, hchain => by
      rw [compileChain]
      exact .pure (by simpa using hchain)
  | clause :: rest, h, binder, hb, index, chain, ps, hchain => by
      rw [membersLegible] at h
      rw [compileChain_cons]
      split_ifs
      · exact .throw _ _
      · refine (Clause.compile_numbers h.1 hb).bind fun r qs hr => ?_
        have hrest := compileChain_numbers h.2 hb (index + 1) (hchain.continue hr clause.joiner)
        exact hrest.mono fun r qs hq => by simpa using hq

end

/-- A filter asks for the parameters that are bound when it is compiled, in their order. -/
theorem Filter.compile_numbers {filter : Filter} (h : membersLegible filter) {binder : String}
    (hb : Unmarked binder) : Numbers (filter.compile binder) OptionTells :=
  compileChain_numbers h hb 0 optionTells_none

end GraphMapper
