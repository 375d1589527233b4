import GraphMapper.Cypher.Expression
import GraphMapper.Proofs.Reading.Phrase

/-!
The written forms of conditions as phrases.

* `Expr.Clean`: conditions without text written by hand, all of whose variables and parameters are
  words;
* `Expr.Clean.solid`: their written form is solid, subqueries and all;
* `Expr.readsOperand_test` and its neighbours: tests and subqueries read as one atom each.
-/

namespace GraphMapper.Cypher

/-! ### Clean conditions -/

/-- The variable of the property is a word. -/
def Property.Clean (p : Property) : Prop :=
  IsWord p.owner.toList

/-- A value made of properties and parameters whose names are words. -/
def Term.Clean : Term → Prop
  | .property p => p.Clean
  | .parameter name => IsWord name.toList
  | .bound _ => False
  | .lowered t => t.Clean

def Node.Clean (n : Node) : Prop :=
  IsWord n.binder.toList

def Pattern.Clean : Pattern → Prop
  | .node n => n.Clean
  | .path left edge right => left.Clean ∧ IsWord edge.binder.toList ∧ right.Clean

mutual

/-- A condition without text written by hand, all of whose names are words. -/
def Expr.Clean : Expr → Prop
  | .constant _ => True
  | .isNull p => p.Clean
  | .isNotNull p => p.Clean
  | .test left _ right => left.Clean ∧ right.Clean
  | .raw _ => False
  | .subquery route => routeClean route
  | .not e => e.Clean
  | .group e => e.Clean
  | .join chain _ e => chain.Clean ∧ e.Clean

/-- The same of all matches of a subquery. -/
def routeClean : List (Match Expr) → Prop
  | [] => True
  | m :: rest => Match.Clean m ∧ routeClean rest

/-- The same of the conditions of a match. -/
def Match.Clean : Match Expr → Prop
  | ⟨pattern, conditions⟩ => pattern.Clean ∧ conditionsClean conditions

/-- The same of all conditions of a list. -/
def conditionsClean : List Expr → Prop
  | [] => True
  | e :: rest => e.Clean ∧ conditionsClean rest

end

/-! ### Solid texts -/

lemma Term.Clean.solid {t : Term} (h : t.Clean) : Solid t.text.toList := by
  induction t with
  | property p => exact .word (isWord_property h)
  | parameter name =>
      rw [Term.text, String.toList_append]
      exact .word (IsWord.append (by decide) h)
  | bound name => exact h.elim
  | lowered t ih =>
      have := Solid.call (f := "toLower".toList) (by decide) (ih h)
      simpa [Term.text] using this

lemma Node.Clean.solid {n : Node} (h : n.Clean) :
    ∃ w, IsWord w ∧ n.text.toList = '(' :: (w ++ [')']) := by
  rw [Node.text]
  split
  · exact ⟨n.binder.toList, h, by simp⟩
  · rename_i label _
    exact ⟨n.binder.toList ++ ":".toList ++ (Identifier.quote label).toList,
      (h.append (by decide)).append (isWord_quote label), by simp⟩

lemma Edge.isWord_text {e : Edge} (h : IsWord e.binder.toList) : IsWord e.text.toList := by
  have body : IsWord (e.binder.toList ++ ":".toList ++ (Identifier.quote e.edgeType).toList) :=
    (h.append (by decide)).append (isWord_quote e.edgeType)
  rw [Edge.text]
  split <;>
  · simp only [String.toList_append]
    exact (IsWord.append (by decide) body).append (by decide)

lemma Pattern.Clean.solid {p : Pattern} (h : p.Clean) : Solid p.text.toList := by
  cases p with
  | node n =>
      obtain ⟨w, hw, ht⟩ := Node.Clean.solid h
      rw [Pattern.text, ht]
      exact (Solid.word hw).enclosed
  | path left edge right =>
      obtain ⟨hl, he, hr⟩ := h
      obtain ⟨l, hlw, hlt⟩ := hl.solid
      obtain ⟨r, hrw, hrt⟩ := hr.solid
      have hcall := Solid.call (Edge.isWord_text he) (Solid.word hrw)
      have := (Solid.word hlw).enclosed_append hcall
      simpa [Pattern.text, hlt, hrt] using this

lemma solid_startsWith : Solid "STARTS WITH".toList :=
  have first : Solid "STARTS".toList := .word (by decide)
  have second : Solid "WITH".toList := .word (by decide)
  first.spaced second

lemma solid_endsWith : Solid "ENDS WITH".toList :=
  have first : Solid "ENDS".toList := .word (by decide)
  have second : Solid "WITH".toList := .word (by decide)
  first.spaced second

lemma Test.solid (t : Test) : Solid t.text.toList := by
  cases t with
  | compare c => cases c <;> exact .word (by decide)
  | startsWith => exact solid_startsWith
  | endsWith => exact solid_endsWith
  | among => exact .word (by decide)
  | contains => exact .word (by decide)
  | matching => exact .word (by decide)

lemma Connective.isWord_text (c : Connective) : IsWord c.text.toList := by
  cases c <;> decide

lemma solid_is_null : Solid "IS NULL".toList :=
  have first : Solid "IS".toList := .word (by decide)
  have second : Solid "NULL".toList := .word (by decide)
  first.spaced second

lemma solid_is_not_null : Solid "IS NOT NULL".toList :=
  have first : Solid "IS".toList := .word (by decide)
  have second : Solid "NOT".toList := .word (by decide)
  have third : Solid "NULL".toList := .word (by decide)
  first.spaced (second.spaced third)

/-- The lexemes of a subquery, whatever follows. -/
lemma Complete.lexemes_subquery {a : List Char} (h : Complete a) (rest : List Char) :
    lexemes ("EXISTS \x7b ".toList ++ (a ++ (" \x7d".toList ++ rest))) =
      .word "EXISTS".toList :: .openBrace :: (lexemes a ++ .closeBrace :: lexemes rest) := by
  have first : Complete "EXISTS".toList := .word (by decide)
  have h1 := first.lexemes_spaced ('\x7b' :: ' ' :: (a ++ (" \x7d".toList ++ rest)))
  have h2 : lexemes (a ++ (" \x7d".toList ++ rest)) = lexemes a ++ .closeBrace :: lexemes rest := by
    have := h.lexemes_spaced ('\x7d' :: rest)
    rwa [lexemes_closeBrace] at this
  rw [lexemes_openBrace, lexemes_blank, h2] at h1
  exact h1

/-- A text between the blanks inside the braces of a subquery. -/
lemma Solid.subquery {a : List Char} (h : Solid a) :
    Solid ("EXISTS \x7b ".toList ++ (a ++ " \x7d".toList)) := by
  have hl := h.complete.lexemes_subquery []
  rw [List.append_nil, lexemes_nil] at hl
  constructor
  · intro rest _
    rw [List.append_assoc, List.append_assoc, h.complete.lexemes_subquery, hl]
    simp
  · rw [hl]
    exact (Balanced.word _).append h.balanced.braced

mutual

theorem Expr.Clean.solid : ∀ {e : Expr}, e.Clean → Solid e.text.toList
  | .constant b, _ => by cases b <;> exact .word (by decide)
  | .isNull p, h => by
      have := (Solid.word (isWord_property h)).spaced solid_is_null
      simpa [Expr.text] using this
  | .isNotNull p, h => by
      have := (Solid.word (isWord_property h)).spaced solid_is_not_null
      simpa [Expr.text] using this
  | .test left t right, h => by
      rw [Expr.Clean] at h
      have := h.1.solid.spaced (t.solid.spaced h.2.solid)
      simpa [Expr.text] using this
  | .raw _, h => by simp [Expr.Clean] at h
  | .subquery route, h => by
      rw [Expr.Clean] at h
      have := (routeClean.solid h).subquery
      simpa [Expr.text] using this
  | .not e, h => by
      rw [Expr.Clean] at h
      have not : Solid "NOT".toList := .word (by decide)
      have := not.spaced (Expr.Clean.solid h)
      simpa [Expr.text] using this
  | .group e, h => by
      rw [Expr.Clean] at h
      have := (Expr.Clean.solid h).enclosed
      simpa [Expr.text] using this
  | .join chain c e, h => by
      rw [Expr.Clean] at h
      have := (Expr.Clean.solid h.1).spaced
        ((Solid.word c.isWord_text).spaced (Expr.Clean.solid h.2))
      simpa [Expr.text] using this

theorem routeClean.solid : ∀ {route : List (Match Expr)}, routeClean route →
    Solid (routeText route).toList
  | [], _ => by
      rw [routeText]
      exact .word (by decide)
  | [m], h => by
      rw [routeClean] at h
      rw [routeText]
      exact Match.Clean.solid h.1
  | m :: n :: rest, h => by
      rw [routeClean] at h
      have := (Match.Clean.solid h.1).spaced (routeClean.solid h.2)
      simpa [routeText] using this

theorem Match.Clean.solid : ∀ {m : Match Expr}, Match.Clean m → Solid (Match.text m).toList
  | ⟨pattern, []⟩, h => by
      rw [Match.Clean] at h
      have word : Solid "MATCH".toList := .word (by decide)
      have := word.spaced h.1.solid
      simpa [Match.text] using this
  | ⟨pattern, e :: rest⟩, h => by
      rw [Match.Clean] at h
      have word : Solid "MATCH".toList := .word (by decide)
      have := word.spaced (h.1.solid.spaced (Solid.spaced (.word (by decide) : Solid "WHERE".toList)
        (conditionsClean.solid h.2)))
      simpa [Match.text] using this

theorem conditionsClean.solid : ∀ {conditions : List Expr}, conditionsClean conditions →
    Solid (conditionsText conditions).toList
  | [], _ => by
      rw [conditionsText]
      exact .word (by decide)
  | [e], h => by
      rw [conditionsClean] at h
      rw [conditionsText]
      exact Expr.Clean.solid h.1
  | e :: f :: rest, h => by
      rw [conditionsClean] at h
      have := (Expr.Clean.solid h.1).spaced (Solid.spaced (.word (by decide) : Solid "AND".toList)
        (conditionsClean.solid h.2))
      simpa [conditionsText] using this

end

/-! ### Atoms -/

/-- A word with a character that occurs in no connective is none. -/
lemma keyword?_eq_none {chars : List Char} {c : Char} (hc : c ∈ chars)
    (h : c.toUpper ∉ "ANDORNOT".toList) : keyword? (.word chars) = none := by
  have hmem : c.toUpper ∈ chars.map Char.toUpper := List.mem_map_of_mem hc
  rw [keyword?]
  split_ifs with h1 h2 h3
  · rw [h1] at hmem
    exact absurd hmem fun hm => h (by revert hm; simp; tauto)
  · rw [h2] at hmem
    exact absurd hmem fun hm => h (by revert hm; simp; tauto)
  · rw [h3] at hmem
    exact absurd hmem fun hm => h (by revert hm; simp; tauto)
  · rfl

/-- Lexemes that begin an atom: a word that is no connective, and what continues it. -/
def Begins (ts : List Lexeme) : Prop :=
  ∃ chars rest, ts = .word chars :: rest ∧ keyword? (.word chars) = none ∧ Continues rest

lemma Begins.of_word {text : List Char} (hw : IsWord text) (h : keyword? (.word text) = none)
    (hne : text ≠ []) : Begins (lexemes text) :=
  ⟨text, [], by rw [lexemes_word hw, pending_of_ne_nil hne], h, .nil⟩

lemma Begins.append {a b : List Lexeme} (ha : Begins a) (hb : Continues b) : Begins (a ++ b) := by
  obtain ⟨chars, rest, rfl, hw, hr⟩ := ha
  exact ⟨chars, rest ++ b, rfl, hw, hr.append hb⟩

lemma Begins.continues {ts : List Lexeme} (h : Begins ts) : Continues ts := by
  obtain ⟨chars, rest, rfl, hw, hr⟩ := h
  exact (Continues.word (.inl hw)).append hr

/-- A solid text whose lexemes begin an atom is an atom. -/
lemma Begins.readsOperand {text : List Char} (hb : Begins (lexemes text)) (hs : Solid text) :
    ReadsOperand text (.atom (lexemes text)) := by
  obtain ⟨chars, rest, he, hw, hr⟩ := hb
  refine ⟨hs, [.atom (lexemes text)], ?_, .atom _⟩
  rw [he]
  exact .atom hw hr

lemma begins_property {p : Property} (h : p.Clean) : Begins (lexemes p.text.toList) := by
  have hdot : '.' ∈ p.text.toList := by simp [Property.text]
  exact .of_word (isWord_property h) (keyword?_eq_none hdot (by decide)) (List.ne_nil_of_mem hdot)

lemma Term.Clean.begins {t : Term} (h : t.Clean) : Begins (lexemes t.text.toList) := by
  cases t with
  | property p => exact begins_property h
  | parameter name =>
      have hd : '$' ∈ ("$" ++ name).toList := by simp
      have hw : IsWord ("$" ++ name).toList := by
        rw [String.toList_append]
        exact IsWord.append (by decide) h
      exact .of_word hw (keyword?_eq_none hd (by decide)) (List.ne_nil_of_mem hd)
  | bound name => exact h.elim
  | lowered t =>
      have hs : Solid t.text.toList := Term.Clean.solid h
      have hf : IsWord "toLower".toList := by decide
      have hl := lexemes_word_append hf (breaks_opening (t.text.toList ++ [')']))
      rw [hs.complete.lexemes_parenthesized] at hl
      have ht : (Term.lowered t).text.toList =
          "toLower".toList ++ '(' :: (t.text.toList ++ [')']) := by
        simp [Term.text]
      rw [ht, hl]
      exact ⟨"toLower".toList, _, rfl, by decide, .enclosed hs.balanced⟩

lemma continues_word {text : List Char} (hw : IsWord text)
    (h : keyword? (.word text) = none ∨ keyword? (.word text) = some .not) (hne : text ≠ []) :
    Continues (lexemes text) := by
  rw [lexemes_word hw, pending_of_ne_nil hne]
  exact .word h

lemma continues_spaced {a b : List Char} (ha : IsWord a) (hca : Continues (lexemes a))
    (hcb : Continues (lexemes b)) : Continues (lexemes (a ++ ' ' :: b)) := by
  rw [(Complete.word ha).lexemes_spaced]
  exact hca.append hcb

lemma Test.continues (t : Test) : Continues (lexemes t.text.toList) := by
  have word {text : List Char} (hw : IsWord text) (hk : keyword? (.word text) = none)
      (hne : text ≠ []) : Continues (lexemes text) := continues_word hw (.inl hk) hne
  cases t with
  | compare c => cases c <;> exact word (by decide) (by decide) (by decide)
  | among => exact word (by decide) (by decide) (by decide)
  | contains => exact word (by decide) (by decide) (by decide)
  | matching => exact word (by decide) (by decide) (by decide)
  | startsWith =>
      have first : Continues (lexemes "STARTS".toList) := word (by decide) (by decide) (by decide)
      have second : Continues (lexemes "WITH".toList) := word (by decide) (by decide) (by decide)
      exact continues_spaced (by decide) first second
  | endsWith =>
      have first : Continues (lexemes "ENDS".toList) := word (by decide) (by decide) (by decide)
      have second : Continues (lexemes "WITH".toList) := word (by decide) (by decide) (by decide)
      exact continues_spaced (by decide) first second

/-- The lexemes of a condition that is an atom. -/
def Expr.atom (e : Expr) : List Lexeme :=
  lexemes e.text.toList

lemma readsOperand_constant (b : Bool) :
    ReadsOperand (Expr.constant b).text.toList (.atom (Expr.constant b).atom) := by
  have hs : Solid (Expr.constant b).text.toList := Expr.Clean.solid trivial
  refine Begins.readsOperand ?_ hs
  cases b <;> exact .of_word (by decide) (by decide) (by decide)

lemma readsOperand_isNull {p : Property} (h : p.Clean) :
    ReadsOperand (Expr.isNull p).text.toList (.atom (Expr.isNull p).atom) := by
  have hs : Solid (Expr.isNull p).text.toList := Expr.Clean.solid h
  refine Begins.readsOperand ?_ hs
  have ht : (Expr.isNull p).text.toList = p.text.toList ++ ' ' :: "IS NULL".toList := by
    simp [Expr.text]
  rw [ht, (Complete.word (isWord_property h)).lexemes_spaced]
  have first : Continues (lexemes "IS".toList) :=
    continues_word (by decide) (.inl (by decide)) (by decide)
  have second : Continues (lexemes "NULL".toList) :=
    continues_word (by decide) (.inl (by decide)) (by decide)
  exact (begins_property h).append (continues_spaced (by decide) first second)

lemma readsOperand_isNotNull {p : Property} (h : p.Clean) :
    ReadsOperand (Expr.isNotNull p).text.toList (.atom (Expr.isNotNull p).atom) := by
  have hs : Solid (Expr.isNotNull p).text.toList := Expr.Clean.solid h
  refine Begins.readsOperand ?_ hs
  have ht : (Expr.isNotNull p).text.toList = p.text.toList ++ ' ' :: "IS NOT NULL".toList := by
    simp [Expr.text]
  rw [ht, (Complete.word (isWord_property h)).lexemes_spaced]
  have first : Continues (lexemes "IS".toList) :=
    continues_word (by decide) (.inl (by decide)) (by decide)
  have second : Continues (lexemes "NOT".toList) :=
    continues_word (by decide) (.inr (by decide)) (by decide)
  have third : Continues (lexemes "NULL".toList) :=
    continues_word (by decide) (.inl (by decide)) (by decide)
  exact (begins_property h).append
    (continues_spaced (by decide) first (continues_spaced (by decide) second third))

lemma readsOperand_test {left right : Term} (t : Test) (hl : left.Clean) (hr : right.Clean) :
    ReadsOperand (Expr.test left t right).text.toList (.atom (Expr.test left t right).atom) := by
  have hs : Solid (Expr.test left t right).text.toList := Expr.Clean.solid ⟨hl, hr⟩
  refine Begins.readsOperand ?_ hs
  have ht : (Expr.test left t right).text.toList =
      left.text.toList ++ ' ' :: (t.text.toList ++ ' ' :: right.text.toList) := by
    simp [Expr.text]
  rw [ht, hl.solid.complete.lexemes_spaced, t.solid.complete.lexemes_spaced]
  exact hl.begins.append (t.continues.append hr.begins.continues)

/-- A subquery is one atom, whatever stands between its braces. -/
lemma readsOperand_subquery {route : List (Match Expr)} (h : routeClean route) :
    ReadsOperand (Expr.subquery route).text.toList (.atom (Expr.subquery route).atom) := by
  have hs : Solid (Expr.subquery route).text.toList := Expr.Clean.solid h
  refine Begins.readsOperand ?_ hs
  have hroute := routeClean.solid h
  have ht : (Expr.subquery route).text.toList =
      "EXISTS \x7b ".toList ++ ((routeText route).toList ++ (" \x7d".toList ++ [])) := by
    simp [Expr.text]
  rw [ht, hroute.complete.lexemes_subquery]
  exact ⟨"EXISTS".toList, _, rfl, by decide, .braced hroute.balanced⟩

end GraphMapper.Cypher
