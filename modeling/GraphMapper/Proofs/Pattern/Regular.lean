import GraphMapper.Proofs.Graph.Compiled
import GraphMapper.Proofs.Pattern.Wildcard

/-!
Regular expressions as an engine reads them, and the truth of pattern tests.

* `Regular.read?`: an expression read back as the pieces that it is made of, from the characters that
  have a meaning of their own; `Regular.read_regex`: what is written of a pattern is read as the pieces
  of the pattern, whatever characters they are;
* `Interpretation.ReadsRegular`: an engine that matches whole texts with such expressions;
* `Like.Shape.holds_bound`: the simple tests of the text that is bound for them;
* `compileTest_pattern`: the truth of a condition that a pattern is written as;
* `like_compiled_exactly`: such a condition is true of just the texts that the pattern stands for.
-/

namespace GraphMapper

open Cypher (Env Expr Graph Interpretation Property Test Truth)
open Like (Token)

/-! ### Regular expressions -/

namespace Regular

/-- The characters that do not stand for themselves. -/
def operators : List Char :=
  "\\.*+?()|[]\x7b\x7d^$".toList

def isOperator (c : Char) : Bool :=
  operators.contains c

/-- The characters that stand for themselves after a backslash, whatever they mean without it. -/
def isQuotable (c : Char) : Bool :=
  c.toNat < 128 && !c.isAlphanum

/-- Reads an expression piece by piece: a point stands for any character, a point and a star for any
text, and all others but the operators for themselves.  There is no reading of anything else. -/
def readPieces? : List Char → Option (List Token)
  | [] => some []
  | '\\' :: c :: rest => if isQuotable c then (readPieces? rest).map (.char c :: ·) else none
  | '.' :: '*' :: rest => (readPieces? rest).map (.many :: ·)
  | '.' :: rest => (readPieces? rest).map (.one :: ·)
  | c :: rest => if isOperator c then none else (readPieces? rest).map (.char c :: ·)

/-- Reads an expression that lets a point stand for line ends as well, and says first whether it is
without regard to case. -/
def read? : List Char → Option (Bool × List Token)
  | '(' :: '?' :: 's' :: ')' :: rest => (readPieces? rest).map (false, ·)
  | '(' :: '?' :: 'i' :: 's' :: ')' :: rest => (readPieces? rest).map (true, ·)
  | _ => none

lemma readPieces_quoted {c : Char} (h : isQuotable c = true) (rest : List Char) :
    readPieces? ('\\' :: c :: rest) = (readPieces? rest).map (.char c :: ·) :=
  if_pos h

lemma readPieces_many (rest : List Char) :
    readPieces? ('.' :: '*' :: rest) = (readPieces? rest).map (.many :: ·) :=
  rfl

lemma readPieces_one {rest : List Char} (h : rest.head? ≠ some '*') :
    readPieces? ('.' :: rest) = (readPieces? rest).map (.one :: ·) := by
  cases rest with
  | nil => rfl
  | cons c rest =>
      rw [readPieces?]
      rintro later ⟨⟩
      exact h rfl

lemma readPieces_char {c : Char} (h : isOperator c = false) (rest : List Char) :
    readPieces? (c :: rest) = (readPieces? rest).map (.char c :: ·) := by
  have hne : ∀ d ∈ operators, c ≠ d := by
    rintro d hd rfl
    rw [isOperator, List.contains_iff_mem.mpr hd] at h
    cases h
  rw [readPieces?]
  · rw [if_neg (by simp [h])]
  · exact fun _ _ hc => absurd hc (hne _ (by decide))
  · exact fun _ hc => absurd hc (hne _ (by decide))
  · exact fun hc => absurd hc (hne _ (by decide))

/-- The operators are among the characters that a backslash is put before. -/
lemma isOperator_of_isMeta_eq_false {c : Char} (h : Like.isMeta c = false) :
    isOperator c = false := by
  have hall : operators.all Like.isMeta = true := by decide
  rw [← Bool.not_eq_true] at h ⊢
  exact fun hc => h (List.all_eq_true.mp hall c (List.contains_iff_mem.mp hc))

/-- A backslash is put before such characters only as may stand after one. -/
lemma isQuotable_of_isMeta {c : Char} (h : Like.isMeta c = true) : isQuotable c = true := by
  have hall : "\\.+*?()|[]\x7b\x7d^$#&-~".toList.all isQuotable = true := by decide
  exact List.all_eq_true.mp hall c (List.contains_iff_mem.mp h)

/-- No piece is written with a star at its beginning. -/
lemma head?_regex_ne (ts : List Token) : (ts.flatMap Token.regex).head? ≠ some '*' := by
  cases ts with
  | nil => simp
  | cons t ts =>
      cases t with
      | char c =>
          simp only [List.flatMap_cons, Token.regex]
          split_ifs with hmeta
          · simp
          · simp only [List.singleton_append, List.head?_cons, ne_eq, Option.some.injEq]
            rintro rfl
            exact hmeta (by decide)
      | many => simp [Token.regex]
      | one => simp [Token.regex]

/-- The pieces of a pattern are read back. -/
lemma readPieces_regex (ts : List Token) : readPieces? (ts.flatMap Token.regex) = some ts := by
  induction ts with
  | nil => rfl
  | cons t ts ih =>
      rw [List.flatMap_cons]
      cases t with
      | char c =>
          rw [Token.regex]
          split_ifs with hmeta
          · rw [List.cons_append, List.singleton_append,
              readPieces_quoted (isQuotable_of_isMeta hmeta), ih, Option.map_some]
          · rw [List.singleton_append,
              readPieces_char (isOperator_of_isMeta_eq_false (Bool.eq_false_iff.mpr hmeta)), ih,
              Option.map_some]
      | many =>
          rw [Token.regex, List.cons_append, List.singleton_append, readPieces_many, ih,
            Option.map_some]
      | one =>
          -- no star follows, or the point would be read as any text
          rw [Token.regex, List.singleton_append, readPieces_one (head?_regex_ne ts), ih,
            Option.map_some]

/-- The expression that is written of pieces is read as these pieces. -/
theorem read_regex (anyCase : Bool) (ts : List Token) :
    read? (Like.regex anyCase ts) = some (anyCase, ts) := by
  cases anyCase with
  | false =>
      change (readPieces? (ts.flatMap Token.regex)).map _ = _
      rw [readPieces_regex, Option.map_some]
  | true =>
      change (readPieces? (ts.flatMap Token.regex)).map _ = _
      rw [readPieces_regex, Option.map_some]

end Regular

/-! ### Engines -/

namespace Like

/-- Letters that are the same up to case.  Only the letters of the plain alphabet come in two cases. -/
def sameLetter (c d : Char) : Bool :=
  c.toLower = d.toLower

/-- What an expression counts as the same character. -/
def same (anyCase : Bool) : Char → Char → Bool :=
  if anyCase then sameLetter else sameChar

end Like

namespace Cypher.Interpretation

/-- A text matches an expression if all of it is made of the pieces of the expression.  Nothing is said
of expressions of other pieces. -/
def ReadsRegular (I : Interpretation) : Prop :=
  ∀ (expression : String) (anyCase : Bool) (ts : List Token),
    Regular.read? expression.toList = some (anyCase, ts) →
      ∀ s : String, I.fits s expression = .ofBool (Like.accepts (Like.same anyCase) ts s.toList)

/-- An engine with regular expressions. -/
def regular : Interpretation :=
  { json with
    fits := fun s expression =>
      match Regular.read? expression.toList with
      | some (anyCase, ts) => .ofBool (Like.accepts (Like.same anyCase) ts s.toList)
      | none => .unknown }

lemma regular_equalsJson : regular.EqualsJson :=
  json_equalsJson

lemma regular_readsRegular : regular.ReadsRegular := fun expression anyCase ts h s => by
  simp only [regular, h]

end Cypher.Interpretation

/-! ### Tests -/

section

variable {I : Interpretation}

/-- The simple tests of the text that is bound for them. -/
lemma Like.Shape.holds_bound (hI : I.EqualsJson) {shape : Shape} {t : Test}
    (ht : shape.kind = .simple t) (anyCase : Bool) (s : String) :
    t.holds I (.string s) (.string (String.ofList (shape.bound anyCase))) =
      .ofBool (accepts sameChar shape.tokens s.toList) := by
  cases shape with
  | equals text =>
      obtain rfl : Test.compare .eq = t := by simpa [kind] using ht
      have hsame : s = String.ofList text ↔ s.toList = text := by
        rw [← String.toList_inj, String.toList_ofList]
      rw [Test.holds, bound, hI, if_neg (by simp)]
      refine congrArg Truth.ofBool (Bool.eq_iff_iff.mpr ?_)
      rw [decide_eq_true_iff, Value.string.injEq, accepts_equals, hsame]
  | startsWith text =>
      obtain rfl : Test.startsWith = t := by simpa [kind] using ht
      rw [Test.holds, bound]
      refine congrArg Truth.ofBool (Bool.eq_iff_iff.mpr ?_)
      rw [String.toList_ofList, List.isPrefixOf_iff_prefix, accepts_startsWith]
  | endsWith text =>
      obtain rfl : Test.endsWith = t := by simpa [kind] using ht
      rw [Test.holds, bound]
      refine congrArg Truth.ofBool (Bool.eq_iff_iff.mpr ?_)
      rw [String.toList_ofList, List.isSuffixOf_iff_suffix, accepts_endsWith]
  | contains text =>
      obtain rfl : Test.contains = t := by simpa [kind] using ht
      rw [Test.holds, bound]
      refine congrArg Truth.ofBool (Bool.eq_iff_iff.mpr ?_)
      rw [String.toList_ofList, decide_eq_true_iff, accepts_contains]
  | regex ts => simp [kind] at ht

/-- An expression that is bound for a pattern. -/
lemma Like.Shape.fits_bound (hI : I.ReadsRegular) {shape : Shape} (hkind : shape.kind = .regex)
    (anyCase : Bool) (s : String) :
    I.fits s (String.ofList (shape.bound anyCase)) =
      .ofBool (accepts (same anyCase) shape.tokens s.toList) := by
  cases shape with
  | regex ts =>
      rw [bound, tokens]
      exact hI _ anyCase ts (by rw [String.toList_ofList, Regular.read_regex]) s
  | _ => simp [kind] at hkind

/-- A test with regard to case holds of the texts that are made of the pieces of its shape. -/
lemma likeTestHolds_eq (hI : I.EqualsJson) (hregular : I.ReadsRegular) (shape : Like.Shape)
    (s : String) :
    likeTestHolds I false shape.kind (.string s) (.string (String.ofList (shape.bound false))) =
      .ofBool (Like.accepts Like.sameChar shape.tokens s.toList) := by
  cases hkind : shape.kind with
  | simple t => exact shape.holds_bound hI hkind false s
  | regex => exact shape.fits_bound hregular hkind false s

/-- The bindings with the text that a pattern test binds. -/
def Bindings.withPattern (op : Operator) (pattern : String) (b : Bindings) : Bindings :=
  (Compiling.bind (.string (String.ofList
    ((Like.shape pattern.toList).bound (op = .likeAnyCase)))) b).2

/-- A pattern is written as a condition that has the truth of its test. -/
lemma compileTest_pattern {op : Operator} (hop : op = .like ∨ op = .notLike ∨ op = .likeAnyCase)
    (binder column pattern : String) (b : Bindings) :
    ∃ e, (compileTest binder column op (.value (.string pattern))).on b =
        (.ok e, b.withPattern op pattern) ∧
      ∀ {I : Interpretation} {g : Graph} {params : Row} {row : Env} {v : Value},
        (b.withPattern op pattern).Supplies params →
          row.value g (Property.ofColumn binder column) = v →
            e.truth I g params row = likeHolds I op v pattern := by
  have hform : TestForm.of column op (.value (.string pattern)) = .ok (.pattern op pattern) := by
    obtain rfl | rfl | rfl := hop <;> rfl
  let form := TestForm.pattern op pattern
  let p := Property.ofColumn binder column
  have hafter : (form.emit p b).2 = b.withPattern op pattern := by
    rw [TestForm.emit, compileLike_eq]
    rfl
  refine ⟨(form.emit p b).1, ?_, fun hs hv => ?_⟩
  · rw [compileTest_eq, hform, ← hafter]
    rfl
  · rw [Expr.truth, TestForm.emit_meaning hv form (hafter ▸ hs)]
    rfl

/-- **Tests of a pattern are exact.**  Whichever test a pattern amounts to, the condition that it is
written as is true of the texts that the pattern stands for and false of all others.  The negated
test binds the same, and is true of just these others. -/
theorem like_compiled_exactly (hI : I.EqualsJson) (hregular : I.ReadsRegular)
    (binder column pattern : String) (b : Bindings) :
    ∃ e e' after,
      (compileTest binder column .like (.value (.string pattern))).on b = (.ok e, after) ∧
      (compileTest binder column .notLike (.value (.string pattern))).on b = (.ok e', after) ∧
      ∀ {g : Graph} {params : Row} {row : Env} {s : String}, after.Supplies params →
        row.value g (Property.ofColumn binder column) = .string s →
          e.truth I g params row = .ofBool (decide (Like.Matches pattern.toList s.toList)) ∧
          e'.truth I g params row = .ofBool (decide ¬ Like.Matches pattern.toList s.toList) := by
  obtain ⟨e, he, htruth⟩ := compileTest_pattern (.inl rfl : Operator.like = .like ∨ _)
    binder column pattern b
  obtain ⟨e', he', htruth'⟩ := compileTest_pattern (.inr (.inl rfl) : Operator.notLike = .like ∨ _)
    binder column pattern b
  refine ⟨e, e', b.withPattern .like pattern, he, he', fun {g params row s} hs hv => ?_⟩
  have htest := likeTestHolds_eq hI hregular (Like.shape pattern.toList) s
  rw [Like.tokens_shape, Like.accepts_tokens] at htest
  constructor
  · rw [htruth hs hv]
    exact htest
  · rw [htruth' hs hv, decide_not]
    refine (congrArg Truth.not htest).trans ?_
    cases decide (Like.Matches pattern.toList s.toList) <;> rfl

/-- A pattern with a quoted percent sign, of a text of two lines. -/
theorem like_compiled_exactly_lines :
    ∃ e after,
      (compileTest "n" "note" .like (.value (.string "50\\%_x%"))).on {} = (.ok e, after) ∧
      e.truth .regular (.ofNodes [("Plan", [("note", .string "50%\nxyz")])]) after.parameters
        (nodeRow "n" 0) = .yes := by
  obtain ⟨e, _, after, he, -, h⟩ := like_compiled_exactly Interpretation.regular_equalsJson
    Interpretation.regular_readsRegular "n" "note" "50\\%_x%" {}
  refine ⟨e, after, he, ?_⟩
  rw [(h after.supplies_parameters rfl).1]
  decide

end

end GraphMapper
