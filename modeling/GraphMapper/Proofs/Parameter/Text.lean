import Mathlib.Tactic
import GraphMapper.Cypher.Statement

/-!
The parameters that a text asks for.

* `Unmarked`: texts without a dollar sign;
* `Stops`, `Asks`: a text that asks for certain parameters wherever no name goes on after it;
  `Asks.append` puts two of them together;
* `Expr.parameters`, `Step.parameters`: the parameters of a condition and of a step, from left to
  right;
* `Expr.Tidy`, `Step.Tidy`: no dollar sign stands anywhere but before a parameter;
* `Expr.Tidy.asks`, `asks_steps`: the text asks for just the parameters, in their order.
-/

namespace GraphMapper.Cypher

/-! ### Texts without a dollar sign -/

/-- A text without a dollar sign. -/
def Unmarked (s : String) : Prop :=
  '$' ∉ s.toList

instance (s : String) : Decidable (Unmarked s) :=
  inferInstanceAs (Decidable ('$' ∉ s.toList))

@[simp] lemma unmarked_append {a b : String} : Unmarked (a ++ b) ↔ Unmarked a ∧ Unmarked b := by
  simp [Unmarked, not_or]

lemma unmarked_quote {name : String} (h : Unmarked name) : Unmarked (Identifier.quote name) := by
  rw [Unmarked, Identifier.quote, String.toList_ofList, Identifier.quoteChars]
  split_ifs
  · exact h
  · have hdoubled : '$' ∉ Identifier.doubled name.toList := by
      intro hm
      obtain ⟨c, hc, hin⟩ := List.mem_flatMap.mp hm
      split_ifs at hin with htick
      · simp at hin
      · exact h (List.mem_singleton.mp hin ▸ hc)
    simp [hdoubled]

lemma names_append_of_unmarked {a : List Char} (h : '$' ∉ a) (rest : List Char) :
    Query.names (a ++ rest) = Query.names rest := by
  induction a with
  | nil => rfl
  | cons c a ih =>
      obtain ⟨hc, ha⟩ : c ≠ '$' ∧ '$' ∉ a := by simpa [eq_comm] using h
      rw [List.cons_append, Query.names]
      · exact ih ha
      · exact hc

/-! ### Texts that ask for parameters -/

/-- No name goes on with the text. -/
def Stops (text : List Char) : Prop :=
  ∀ c ∈ text.head?, Identifier.isPart c = false

/-- A text that asks for these parameters, whatever follows, as long as that continues no name. -/
def Asks (text : List Char) (ps : List String) : Prop :=
  ∀ rest, Stops rest → Query.names (text ++ rest) = ps ++ Query.names rest

lemma Stops.append {a b : List Char} (ha : Stops a) (hb : Stops b) : Stops (a ++ b) := by
  cases a with
  | nil => exact hb
  | cons c rest => exact ha

lemma stops_nil : Stops [] := fun _ h => by simp at h

lemma stops_cons {c : Char} (h : Identifier.isPart c = false) (rest : List Char) :
    Stops (c :: rest) := by
  simpa [Stops] using h

lemma Asks.unmarked {text : List Char} (h : '$' ∉ text) : Asks text [] := fun rest _ =>
  names_append_of_unmarked h rest

lemma Asks.append {a b : List Char} {ps qs : List String} (ha : Asks a ps) (hs : Stops b)
    (hb : Asks b qs) : Asks (a ++ b) (ps ++ qs) := fun rest hr => by
  rw [List.append_assoc, ha _ (hs.append hr), hb _ hr, List.append_assoc]

/-- A text before which nothing is asked for. -/
lemma Asks.prepend {a b : List Char} {ps : List String} (ha : '$' ∉ a) (hb : Asks b ps) :
    Asks (a ++ b) ps := fun rest hr => by
  rw [List.append_assoc, names_append_of_unmarked ha, hb rest hr]

/-- A text after which nothing is asked for. -/
lemma Asks.closed {a b : List Char} {ps : List String} (ha : Asks a ps) (hs : Stops b)
    (hb : '$' ∉ b) : Asks (a ++ b) ps := by
  have := ha.append hs (.unmarked hb)
  rwa [List.append_nil] at this

lemma Asks.spaced {a b : List Char} {ps qs : List String} (ha : Asks a ps) (hb : Asks b qs) :
    Asks (a ++ ' ' :: b) (ps ++ qs) :=
  ha.append (stops_cons (by decide) b) (.prepend (a := [' ']) (by decide) hb)

/-- A text on its own. -/
lemma Asks.names {text : List Char} {ps : List String} (h : Asks text ps) :
    Query.names text = ps := by
  have := h [] stops_nil
  rwa [List.append_nil, Query.names, List.append_nil] at this

/-- The written form of a parameter asks for it. -/
lemma Asks.parameter {name : String} (h : Identifier.isPlain name.toList) :
    Asks ('$' :: name.toList) [name] := by
  intro rest hr
  have hall : ∀ c ∈ name.toList, Identifier.isPart c := by
    cases hname : name.toList with
    | nil => simp [hname, Identifier.isPlain] at h
    | cons c chars =>
        rw [hname, Identifier.isPlain, Bool.and_eq_true, List.all_eq_true] at h
        intro d hd
        rcases List.mem_cons.mp hd with rfl | hd
        · have hstart := h.1
          simp only [Identifier.isStart, Identifier.isPart, Char.isAlphanum, Bool.or_eq_true] at *
          tauto
        · exact h.2 d hd
  have htake : (name.toList ++ rest).takeWhile Identifier.isPart = name.toList := by
    rw [List.takeWhile_append_of_pos hall]
    cases rest with
    | nil => simp
    | cons c rest => simp [hr c (by simp)]
  have hdollar : '$' ∉ name.toList := fun hm => absurd (hall _ hm) (by decide)
  rw [List.cons_append, Query.names]
  simp only [htake, h, if_true, String.ofList_toList]
  rw [names_append_of_unmarked hdollar]
  rfl

/-! ### Conditions -/

/-- The parameters of a value. -/
def Term.parameters : Term → List String
  | .property _ => []
  | .parameter name => [name]
  | .bound _ => []
  | .lowered t => t.parameters

def Term.Tidy : Term → Prop
  | .property p => Unmarked p.text
  | .parameter name => Identifier.isPlain name.toList
  | .bound name => Unmarked name
  | .lowered t => t.Tidy

/-- The parameters in a text written by hand. -/
def piecesParameters : List Piece → List String
  | [] => []
  | .char _ :: rest => piecesParameters rest
  | .parameter name :: rest => name :: piecesParameters rest

/-- No name goes on after a parameter in a text written by hand. -/
def piecesTidy : List Piece → Prop
  | [] => True
  | .char c :: rest => c ≠ '$' ∧ piecesTidy rest
  | .parameter name :: rest =>
    Identifier.isPlain name.toList ∧ Stops (String.join (rest.map Piece.text)).toList ∧
      piecesTidy rest

mutual

/-- The parameters of a condition, from left to right. -/
def Expr.parameters : Expr → List String
  | .constant _ => []
  | .isNull _ => []
  | .isNotNull _ => []
  | .test left _ right => left.parameters ++ right.parameters
  | .raw pieces => piecesParameters pieces
  | .subquery route => routeParameters route
  | .not e => e.parameters
  | .group e => e.parameters
  | .join chain _ e => chain.parameters ++ e.parameters

/-- The parameters of matches one after the other. -/
def routeParameters : List (Match Expr) → List String
  | [] => []
  | m :: rest => Match.parameters m ++ routeParameters rest

def Match.parameters : Match Expr → List String
  | ⟨_, conditions⟩ => conditionsParameters conditions

/-- The parameters of conditions that hold together. -/
def conditionsParameters : List Expr → List String
  | [] => []
  | e :: rest => e.parameters ++ conditionsParameters rest

end

mutual

/-- No dollar sign stands in a condition but before its parameters. -/
def Expr.Tidy : Expr → Prop
  | .constant _ => True
  | .isNull p => Unmarked p.text
  | .isNotNull p => Unmarked p.text
  | .test left _ right => left.Tidy ∧ right.Tidy
  | .raw pieces => piecesTidy pieces
  | .subquery route => routeTidy route
  | .not e => e.Tidy
  | .group e => e.Tidy
  | .join chain _ e => chain.Tidy ∧ e.Tidy

def routeTidy : List (Match Expr) → Prop
  | [] => True
  | m :: rest => Match.Tidy m ∧ routeTidy rest

def Match.Tidy : Match Expr → Prop
  | ⟨pattern, conditions⟩ => Unmarked pattern.text ∧ conditionsTidy conditions

def conditionsTidy : List Expr → Prop
  | [] => True
  | e :: rest => e.Tidy ∧ conditionsTidy rest

end

lemma Term.Tidy.asks {t : Term} (h : t.Tidy) : Asks t.text.toList t.parameters := by
  induction t with
  | property p => exact .unmarked h
  | parameter name =>
      have := Asks.parameter h
      simpa [Term.text, Term.parameters] using this
  | bound name => exact .unmarked h
  | lowered t ih =>
      have := ((ih h).closed (b := [')']) (stops_cons (by decide) _) (by decide)).prepend
        (a := "toLower(".toList) (by decide)
      simpa [Term.text, Term.parameters] using this

lemma piecesTidy.asks {pieces : List Piece} (h : piecesTidy pieces) :
    Asks (String.join (pieces.map Piece.text)).toList (piecesParameters pieces) := by
  induction pieces with
  | nil => exact .unmarked (by simp)
  | cons piece rest ih =>
      rw [List.map_cons, String.join_cons, String.toList_append]
      cases piece with
      | char c =>
          rw [piecesTidy] at h
          exact (ih h.2).prepend (by simpa [Piece.text, eq_comm] using h.1)
      | parameter name =>
          rw [piecesTidy] at h
          have hname : (Piece.parameter name).text.toList = '$' :: name.toList := by
            simp [Piece.text]
          rw [hname]
          exact (Asks.parameter h.1).append h.2.1 (ih h.2.2)

lemma Connective.unmarked_text (c : Connective) : Unmarked c.text := by
  cases c <;> decide

lemma Test.unmarked_text (t : Test) : Unmarked t.text := by
  cases t with
  | compare c => cases c <;> decide
  | _ => decide

/-- Two texts with a word between them. -/
lemma Asks.joined {a b : List Char} {ps qs : List String} {w : String} (ha : Asks a ps)
    (hw : Unmarked w) (hb : Asks b qs) : Asks (a ++ ' ' :: (w.toList ++ ' ' :: b)) (ps ++ qs) :=
  ha.spaced (Asks.spaced (.unmarked hw) hb)

mutual

/-- A tidy condition asks for its parameters. -/
theorem Expr.Tidy.asks : ∀ {e : Expr}, e.Tidy → Asks e.text.toList e.parameters
  | .constant b, _ => by
      cases b <;> exact .unmarked (by decide)
  | .isNull p, h => by
      rw [Expr.Tidy] at h
      rw [Expr.text, Expr.parameters]
      exact .unmarked (unmarked_append.mpr ⟨h, by decide⟩)
  | .isNotNull p, h => by
      rw [Expr.Tidy] at h
      rw [Expr.text, Expr.parameters]
      exact .unmarked (unmarked_append.mpr ⟨h, by decide⟩)
  | .test left t right, h => by
      rw [Expr.Tidy] at h
      have := h.1.asks.joined t.unmarked_text h.2.asks
      simpa [Expr.text, Expr.parameters] using this
  | .raw pieces, h => by
      rw [Expr.Tidy] at h
      rw [Expr.text, Expr.parameters]
      exact h.asks
  | .subquery route, h => by
      rw [Expr.Tidy] at h
      have := ((routeTidy.asks h).closed (b := " \x7d".toList) (stops_cons (by decide) _)
        (by decide)).prepend (a := "EXISTS \x7b ".toList) (by decide)
      simpa [Expr.text, Expr.parameters] using this
  | .not e, h => by
      rw [Expr.Tidy] at h
      have := (Expr.Tidy.asks h).prepend (a := "NOT ".toList) (by decide)
      simpa [Expr.text, Expr.parameters] using this
  | .group e, h => by
      rw [Expr.Tidy] at h
      have := ((Expr.Tidy.asks h).closed (b := [')']) (stops_cons (by decide) _)
        (by decide)).prepend (a := ['(']) (by decide)
      simpa [Expr.text, Expr.parameters] using this
  | .join chain c e, h => by
      rw [Expr.Tidy] at h
      have := (Expr.Tidy.asks h.1).joined c.unmarked_text (Expr.Tidy.asks h.2)
      simpa [Expr.text, Expr.parameters] using this

theorem routeTidy.asks : ∀ {route : List (Match Expr)}, routeTidy route →
    Asks (routeText route).toList (routeParameters route)
  | [], _ => .unmarked (by decide)
  | [m], h => by
      rw [routeTidy] at h
      simpa [routeText, routeParameters] using Match.Tidy.asks h.1
  | m :: n :: rest, h => by
      rw [routeTidy] at h
      have := (Match.Tidy.asks h.1).spaced (routeTidy.asks h.2)
      simpa [routeText, routeParameters] using this

theorem Match.Tidy.asks : ∀ {m : Match Expr}, Match.Tidy m →
    Asks (Match.text m).toList (Match.parameters m)
  | ⟨pattern, []⟩, h => by
      rw [Match.Tidy] at h
      rw [Match.text, Match.parameters, conditionsParameters]
      exact .unmarked (unmarked_append.mpr ⟨by decide, h.1⟩)
  | ⟨pattern, e :: rest⟩, h => by
      rw [Match.Tidy] at h
      have hfind : Unmarked ("MATCH " ++ pattern.text) := unmarked_append.mpr ⟨by decide, h.1⟩
      have := (Asks.unmarked hfind).joined (w := "WHERE") (by decide) (conditionsTidy.asks h.2)
      simpa [Match.text, Match.parameters] using this

theorem conditionsTidy.asks : ∀ {conditions : List Expr}, conditionsTidy conditions →
    Asks (conditionsText conditions).toList (conditionsParameters conditions)
  | [], _ => .unmarked (by decide)
  | [e], h => by
      rw [conditionsTidy] at h
      simpa [conditionsText, conditionsParameters] using Expr.Tidy.asks h.1
  | e :: f :: rest, h => by
      rw [conditionsTidy] at h
      have := (Expr.Tidy.asks h.1).joined (w := "AND") (by decide) (conditionsTidy.asks h.2)
      simpa [conditionsText, conditionsParameters] using this

end

/-! ### Steps -/

def Change.parameters : Change → List String
  | .replace _ parameter => [parameter]
  | .extend _ parameter => [parameter]
  | .assign _ value => value.parameters

def Change.Tidy : Change → Prop
  | .replace binder parameter => Unmarked binder ∧ Identifier.isPlain parameter.toList
  | .extend binder parameter => Unmarked binder ∧ Identifier.isPlain parameter.toList
  | .assign p value => Unmarked p.text ∧ value.Tidy

def Item.parameters (item : Item) : List String :=
  match item.value with
  | .aggregate _ target extra => target.parameters ++ (extra.map Term.parameters).getD []
  | _ => []

def Item.Tidy (item : Item) : Prop :=
  (∀ name ∈ item.name, Unmarked name.text) ∧
  match item.value with
  | .aggregate function target extra =>
    Unmarked function ∧ target.Tidy ∧ ∀ term ∈ extra, term.Tidy
  | value => Unmarked value.text

/-- The parameters of a step, from left to right. -/
def Step.parameters : Step → List String
  | .find m => Match.parameters m
  | .condition e => e.parameters
  | .unwind parameter _ => [parameter]
  | .set changes => changes.flatMap Change.parameters
  | .carry items => items.flatMap Item.parameters
  | .project _ items => items.flatMap Item.parameters
  | _ => []

/-- No dollar sign stands in a step but before its parameters. -/
def Step.Tidy : Step → Prop
  | .find m => Match.Tidy m
  | .condition e => e.Tidy
  | .unwind parameter binder => Identifier.isPlain parameter.toList ∧ Unmarked binder
  | .create pattern => Unmarked pattern.text
  | .set changes => ∀ change ∈ changes, change.Tidy
  | .delete binder => Unmarked binder
  | .detachDelete binder => Unmarked binder
  | .carry items => ∀ item ∈ items, item.Tidy
  | .project _ items => ∀ item ∈ items, item.Tidy
  | .sort keys => ∀ key ∈ keys, Unmarked key.text
  | .skip _ => True
  | .limit _ => True

/-- Texts with a separator between them ask for what they ask for one after the other. -/
lemma asks_intercalate {α : Type} {separator : String} (hu : Unmarked separator)
    (hs : ∀ rest, Stops (separator.toList ++ rest)) (text : α → String) (ps : α → List String)
    {items : List α} (h : ∀ item ∈ items, Asks (text item).toList (ps item)) :
    Asks (separator.intercalate (items.map text)).toList (items.flatMap ps) := by
  induction items with
  | nil => exact .unmarked (by simp)
  | cons item rest ih =>
      have hitem := h item (by simp)
      have hrest := ih fun other hm => h other (by simp [hm])
      cases rest with
      | nil => simpa using hitem
      | cons next rest =>
          rw [List.map_cons, List.map_cons, String.intercalate_cons_cons, String.toList_append,
            String.toList_append, List.append_assoc, List.flatMap_cons]
          exact hitem.append (hs _) (hrest.prepend hu)

lemma Asks.assigned {binder parameter : String} (hb : Unmarked binder)
    (hp : Identifier.isPlain parameter.toList) (sign : String) (hs : Unmarked sign) :
    Asks (binder ++ sign ++ "$" ++ parameter).toList [parameter] := by
  have hleft : Unmarked (binder ++ sign) := unmarked_append.mpr ⟨hb, hs⟩
  have := (Asks.parameter hp).prepend hleft
  simpa using this

lemma Change.Tidy.asks {change : Change} (h : change.Tidy) :
    Asks change.text.toList change.parameters := by
  cases change with
  | replace binder parameter =>
      have := Asks.assigned h.1 h.2 " = " (by decide)
      simpa [Change.text, Change.parameters] using this
  | extend binder parameter =>
      have := Asks.assigned h.1 h.2 " += " (by decide)
      simpa [Change.text, Change.parameters] using this
  | assign p value =>
      have := h.2.asks.prepend (a := (p.text ++ " = ").toList)
        (unmarked_append.mpr ⟨h.1, by decide⟩)
      simpa [Change.text, Change.parameters] using this

/-- The name after a result column. -/
lemma asks_named {value : Projection} {name : Option ColumnName} {ps : List String}
    (hname : ∀ n ∈ name, Unmarked n.text) (h : Asks value.text.toList ps) :
    Asks (Item.text ⟨value, name⟩).toList ps := by
  cases name with
  | none => exact h
  | some n =>
      have hafter : '$' ∉ (" AS ".toList ++ n.text.toList) := by
        simpa [Unmarked] using hname n rfl
      have := h.closed (b := " AS ".toList ++ n.text.toList) (stops_cons (by decide) _) hafter
      simpa [Item.text] using this

lemma Item.Tidy.asks {item : Item} (h : item.Tidy) : Asks item.text.toList item.parameters := by
  obtain ⟨value, name⟩ := item
  obtain ⟨hname, hvalue⟩ := h
  refine asks_named hname ?_
  cases value with
  | aggregate function target extra =>
      obtain ⟨hf, ht, he⟩ := hvalue
      have hopen : '$' ∉ (function.toList ++ ['(']) := by simpa [Unmarked] using hf
      cases extra with
      | none =>
          have := (ht.asks.closed (b := [')']) (stops_cons (by decide) _) (by decide)).prepend hopen
          simpa [Projection.text, Item.parameters] using this
      | some extra =>
          have hextra :=
            (he extra rfl).asks.closed (b := [')']) (stops_cons (by decide) _) (by decide)
          have hstop : Stops (", ".toList ++ (extra.text.toList ++ [')'])) :=
            stops_cons (by decide) _
          have := (ht.asks.append hstop (hextra.prepend (by decide))).prepend hopen
          simpa [Projection.text, Item.parameters] using this
  | _ => exact .unmarked hvalue

lemma unmarked_toString (n : ℕ) : Unmarked (toString n) := by
  intro hm
  rw [Nat.toString_eq_ofList_toDigits, String.toList_ofList] at hm
  exact absurd (Nat.isDigit_of_mem_toDigits (by decide) (by decide) hm) (by decide)

/-- A tidy step asks for its parameters. -/
lemma Step.Tidy.asks {step : Step} (h : step.Tidy) : Asks step.text.toList step.parameters := by
  have hcomma (rest : List Char) : Stops (", ".toList ++ rest) := stops_cons (by decide) _
  have hitems {items : List Item} (hi : ∀ item ∈ items, item.Tidy) :
      Asks (", ".intercalate (items.map Item.text)).toList (items.flatMap Item.parameters) :=
    asks_intercalate (by decide) hcomma _ _ fun item hm => (hi item hm).asks
  cases step with
  | find m => exact Match.Tidy.asks h
  | condition e =>
      rw [Step.text, String.toList_append]
      exact (Expr.Tidy.asks h).prepend (by decide)
  | unwind parameter binder =>
      have hafter : '$' ∉ (" AS ".toList ++ binder.toList) := by simpa [Unmarked] using h.2
      have hstop : Stops (" AS ".toList ++ binder.toList) := stops_cons (by decide) _
      have := ((Asks.parameter h.1).closed hstop hafter).prepend (a := "UNWIND ".toList) (by decide)
      simpa [Step.text, Step.parameters] using this
  | create pattern => exact .unmarked (unmarked_append.mpr ⟨by decide, h⟩)
  | set changes =>
      rw [Step.text, String.toList_append]
      exact (asks_intercalate (by decide) hcomma _ _ fun change hm => (h change hm).asks).prepend
        (by decide)
  | delete binder => exact .unmarked (unmarked_append.mpr ⟨by decide, h⟩)
  | detachDelete binder => exact .unmarked (unmarked_append.mpr ⟨by decide, h⟩)
  | carry items =>
      rw [Step.text, String.toList_append]
      exact (hitems h).prepend (by decide)
  | project distinct items =>
      rw [Step.text, String.toList_append]
      refine (hitems h).prepend ?_
      split_ifs <;> decide
  | sort keys =>
      have hkeys := asks_intercalate (by decide) hcomma SortKey.text (fun _ => [])
        fun key hm => Asks.unmarked (h key hm)
      have hnone : keys.flatMap (fun _ => ([] : List String)) = [] := by simp
      rw [hnone] at hkeys
      rw [Step.text, String.toList_append]
      exact hkeys.prepend (by decide)
  | skip count => exact .unmarked (unmarked_append.mpr ⟨by decide, unmarked_toString count⟩)
  | limit count => exact .unmarked (unmarked_append.mpr ⟨by decide, unmarked_toString count⟩)

/-- Tidy steps ask for their parameters, one step after the other. -/
theorem asks_steps {steps : List Step} (h : ∀ step ∈ steps, step.Tidy) :
    Asks (stepsText steps).toList (steps.flatMap Step.parameters) :=
  have hblank (rest : List Char) : Stops (" ".toList ++ rest) := stops_cons (by decide) _
  asks_intercalate (by decide) hblank _ _ fun step hm => (h step hm).asks

end GraphMapper.Cypher
