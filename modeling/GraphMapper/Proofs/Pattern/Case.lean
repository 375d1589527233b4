import GraphMapper.Proofs.Pattern.Regular

/-!
Pattern tests without regard to case.

* `Like.Spares`: a way to lower characters that leaves the reading of patterns alone;
  `Like.Spares.tokens_flatMap`: a lowered pattern is read as the lowered pieces;
* `Like.accepts_sameLetter`: regular expressions without regard to case lower the letters of the plain
  alphabet, and no others;
* `Interpretation.LowersBy`: an engine that lowers texts character by character;
* `likeAnyCase_compiled`: the simple tests compare the lowered pattern with the lowered text, regular
  expressions what is lowered within the plain alphabet alone.
-/

namespace GraphMapper

open Cypher (Env Expr Graph Interpretation Property Test Truth)

namespace Like

/-! ### Lowered patterns -/

/-- A way to lower characters that keeps those with a meaning of their own, makes none of the others
one of them, and leaves no character out. -/
structure Spares (lower : Char → List Char) : Prop where
  special : ∀ c, IsSpecial c → lower c = [c]
  other : ∀ c, ¬ IsSpecial c → ∀ d ∈ lower c, ¬ IsSpecial d
  ne_nil : ∀ c, lower c ≠ []

/-- The pieces that a piece is lowered to. -/
def Token.lowered (lower : Char → List Char) : Token → List Token
  | .char c => (lower c).map .char
  | .many => [.many]
  | .one => [.one]

/-- Characters without a meaning of their own are read as themselves. -/
lemma tokens_append {text : List Char} (h : ∀ c ∈ text, ¬ IsSpecial c) (rest : List Char) :
    tokens (text ++ rest) = text.map .char ++ tokens rest := by
  induction text with
  | nil => rfl
  | cons c text ih =>
      rw [List.cons_append, tokens_char (h c List.mem_cons_self),
        ih fun d hd => h d (List.mem_cons_of_mem c hd)]
      rfl

namespace Spares

variable {lower : Char → List Char}

/-- After a backslash a lowered character still stands for itself. -/
lemma tokens_escaped (h : Spares lower) (c : Char) (rest : List Char) :
    tokens ('\\' :: (lower c ++ rest)) = (lower c).map .char ++ tokens rest := by
  by_cases hc : IsSpecial c
  · rw [h.special c hc]
    rfl
  · cases hlower : lower c with
    | nil => exact absurd hlower (h.ne_nil c)
    | cons d later =>
        -- the backslash takes the first of the lowered characters alone
        have hlater : ∀ e ∈ later, ¬ IsSpecial e := fun e he =>
          h.other c hc e (hlower ▸ List.mem_cons_of_mem d he)
        rw [List.cons_append, Like.tokens_escaped, tokens_append hlater]
        rfl

/-- A lowered pattern is read as the lowered pieces of the pattern. -/
theorem tokens_flatMap (h : Spares lower) (pattern : List Char) :
    tokens (pattern.flatMap lower) = (tokens pattern).flatMap (Token.lowered lower) := by
  have hmany : lower '%' = ['%'] := h.special '%' (by decide)
  have hone : lower '_' = ['_'] := h.special '_' (by decide)
  have hbackslash : lower '\\' = ['\\'] := h.special '\\' (by decide)
  induction pattern using pattern_induction with
  | nil => rfl
  | backslash =>
      change tokens (lower '\\' ++ []) = (lower '\\').map .char ++ []
      rw [hbackslash]
      rfl
  | escaped c rest ih =>
      rw [List.flatMap_cons, hbackslash, List.flatMap_cons, List.singleton_append,
        h.tokens_escaped, ih]
      rfl
  | many rest ih =>
      rw [List.flatMap_cons, hmany, List.singleton_append, tokens_many, ih]
      rfl
  | one rest ih =>
      rw [List.flatMap_cons, hone, List.singleton_append, tokens_one, ih]
      rfl
  | char c rest hc ih =>
      rw [List.flatMap_cons, tokens_append (h.other c hc), ih, tokens_char hc]
      rfl

end Spares

/-! ### Lowered tests -/

namespace Shape

/-- The same test of the lowered text. -/
def lowered (lower : Char → List Char) : Shape → Shape
  | .equals text => .equals (text.flatMap lower)
  | .startsWith text => .startsWith (text.flatMap lower)
  | .endsWith text => .endsWith (text.flatMap lower)
  | .contains text => .contains (text.flatMap lower)
  | .regex ts => .regex (ts.flatMap (Token.lowered lower))

variable {lower : Char → List Char}

lemma tokens_lowered (shape : Shape) :
    (shape.lowered lower).tokens = shape.tokens.flatMap (Token.lowered lower) := by
  have htext (text : List Char) : (text.flatMap lower).map Token.char =
      (text.map Token.char).flatMap (Token.lowered lower) := by
    rw [List.map_flatMap, List.flatMap_map]
    rfl
  cases shape <;> simp [lowered, tokens, htext, Token.lowered]

lemma kind_lowered (shape : Shape) : (shape.lowered lower).kind = shape.kind := by
  cases shape <;> rfl

lemma bound_lowered {shape : Shape} (h : shape.kind ≠ .regex) (anyCase : Bool) :
    (shape.lowered lower).bound anyCase = (shape.bound anyCase).flatMap lower := by
  cases shape with
  | regex ts => exact absurd rfl h
  | _ => rfl

end Shape

/-! ### The plain alphabet -/

lemma toLower_of_le {c : Char} (h : 128 ≤ c.toNat) : c.toLower = c := by
  refine dif_neg ?_
  rintro ⟨-, hle⟩
  exact absurd (UInt32.le_iff_toNat_le.mp hle) (by simp; omega)

lemma isSpecial_of_isSpecial_toLower {c : Char} (h : IsSpecial c.toLower) : IsSpecial c := by
  by_cases hc : c.toNat < 128
  · have hall : ∀ n < 128, IsSpecial (Char.ofNat n).toLower → IsSpecial (Char.ofNat n) := by decide
    have hthis := hall c.toNat hc
    rw [Char.ofNat_toNat] at hthis
    exact hthis h
  · rwa [toLower_of_le (by omega)] at h

lemma spares_toLower : Spares fun c => [c.toLower] where
  special := by
    rintro c (rfl | rfl | rfl) <;> decide
  other := by
    intro c hc d hd
    rw [List.mem_singleton.mp hd]
    exact fun h => hc (isSpecial_of_isSpecial_toLower h)
  ne_nil c := List.cons_ne_nil _ _

/-- Pieces up to the case of plain letters are the pieces that are lowered so, of the text that is. -/
theorem accepts_sameLetter (ts : List Token) (s : List Char) :
    accepts sameLetter ts s =
      accepts sameChar (ts.flatMap (Token.lowered fun c => [c.toLower])) (s.map Char.toLower) := by
  induction ts generalizing s with
  | nil => cases s <;> rfl
  | cons t ts ih =>
      rw [List.flatMap_cons]
      cases t with
      | char c =>
          cases s with
          | nil => rfl
          | cons d rest =>
              rw [accepts, ih rest]
              rfl
      | one =>
          cases s with
          | nil => rfl
          | cons d rest => exact ih rest
      | many =>
          rw [Token.lowered, List.singleton_append, accepts, accepts, List.map_tails, List.any_map]
          exact congrArg s.tails.any (funext ih)

end Like

/-! ### Engines -/

namespace Cypher.Interpretation

/-- The engine lowers a text character by character: the plain ones as usual, and each of the others to
some characters, of which the plain ones are letters. -/
structure LowersBy (I : Interpretation) (lower : Char → List Char) : Prop where
  text : ∀ s, I.lower s = String.ofList (s.toList.flatMap lower)
  plain : ∀ c, c.toNat < 128 → lower c = [c.toLower]
  ne_nil : ∀ c, 128 ≤ c.toNat → lower c ≠ []
  isAlpha : ∀ c, 128 ≤ c.toNat → ∀ d ∈ lower c, d.toNat < 128 → d.isAlpha

/-- What lowers texts so leaves the reading of patterns alone. -/
lemma LowersBy.spares {I : Interpretation} {lower : Char → List Char} (h : I.LowersBy lower) :
    Like.Spares lower where
  special := by
    rintro c hc
    have hplain : c.toNat < 128 := by obtain rfl | rfl | rfl := hc <;> decide
    rw [h.plain c hplain, ← Like.spares_toLower.special c hc]
  other c hc d hd hspecial := by
    by_cases hplain : c.toNat < 128
    · rw [h.plain c hplain] at hd
      exact Like.spares_toLower.other c hc d hd hspecial
    · have halpha := h.isAlpha c (by omega) d hd
      obtain rfl | rfl | rfl := hspecial <;> exact absurd (halpha (by decide)) (by decide)
  ne_nil c := by
    by_cases hplain : c.toNat < 128
    · rw [h.plain c hplain]
      exact List.cons_ne_nil _ _
    · exact h.ne_nil c (by omega)

/-- Lowers the capital letters of the plain alphabet, and those with an accent from `À` to `Þ`. -/
def latinLower (c : Char) : List Char :=
  if 192 ≤ c.toNat ∧ c.toNat ≤ 222 ∧ c ≠ '×' then [Char.ofNat (c.toNat + 32)] else [c.toLower]

/-- An engine with regular expressions that lowers accented letters as well. -/
def latin : Interpretation :=
  { regular with lower := fun s => String.ofList (s.toList.flatMap latinLower) }

lemma latin_equalsJson : latin.EqualsJson :=
  regular_equalsJson

lemma latin_readsRegular : latin.ReadsRegular :=
  regular_readsRegular

lemma latin_lowersBy : latin.LowersBy latinLower where
  text _ := rfl
  plain c h := if_neg (by omega)
  ne_nil c _ := by
    rw [latinLower]
    split_ifs <;> exact List.cons_ne_nil _ _
  isAlpha c h d hd hplain := by
    rw [latinLower] at hd
    split_ifs at hd with hcapital
    · have hvalid : (c.toNat + 32).isValidChar := .inl (by omega)
      have htoNat : (Char.ofNat (c.toNat + 32)).toNat = c.toNat + 32 := by
        rw [Char.ofNat, dif_pos hvalid]
        rfl
      rw [List.mem_singleton.mp hd, htoNat] at hplain
      omega
    · rw [List.mem_singleton.mp hd, Like.toLower_of_le h] at hplain
      omega

end Cypher.Interpretation

/-! ### Pattern tests -/

section

variable {I : Interpretation} {lower : Char → List Char}

/-- A simple test without regard to case compares what is lowered on either side. -/
lemma likeTestHolds_lowered (hI : I.EqualsJson) (hlower : I.LowersBy lower) {pattern : List Char}
    (hkind : (Like.shape pattern).kind ≠ .regex) (s : String) :
    likeTestHolds I true (Like.shape pattern).kind (.string s)
        (.string (String.ofList ((Like.shape pattern).bound true))) =
      .ofBool (decide (Like.Matches (pattern.flatMap lower) (s.toList.flatMap lower))) := by
  -- the test of the lowered pattern need not be of its own shape, but it has its pieces
  let shape := (Like.shape pattern).lowered lower
  cases ht : (Like.shape pattern).kind with
  | regex => exact absurd ht hkind
  | simple t =>
      have hshape : shape.kind = .simple t := (Like.Shape.kind_lowered _).trans ht
      have hholds := shape.holds_bound hI hshape true (String.ofList (s.toList.flatMap lower))
      rw [Like.Shape.bound_lowered hkind, Like.Shape.tokens_lowered, Like.tokens_shape,
        ← hlower.spares.tokens_flatMap, Like.accepts_tokens, String.toList_ofList] at hholds
      rw [← hholds]
      change t.holds I (.string (I.lower s)) (.string (I.lower _)) = _
      rw [hlower.text, hlower.text, String.toList_ofList]

/-- A regular expression without regard to case compares what is lowered within the plain alphabet. -/
lemma likeTestHolds_regex (hregular : I.ReadsRegular) {pattern : List Char}
    (hkind : (Like.shape pattern).kind = .regex) (s : String) :
    likeTestHolds I true (Like.shape pattern).kind (.string s)
        (.string (String.ofList ((Like.shape pattern).bound true))) =
      .ofBool (decide (Like.Matches (pattern.map Char.toLower) (s.toList.map Char.toLower))) := by
  have hfits := (Like.shape pattern).fits_bound hregular hkind true s
  have hmap : pattern.map Char.toLower = pattern.flatMap fun c => [c.toLower] :=
    (List.flatMap_pure_eq_map _ _).symm
  rw [Like.tokens_shape] at hfits
  rw [hkind]
  refine hfits.trans (congrArg Truth.ofBool ?_)
  rw [hmap, ← Like.accepts_tokens, Like.spares_toLower.tokens_flatMap]
  exact Like.accepts_sameLetter _ _

/-- **Pattern tests without regard to case.**  Where a pattern amounts to a simple test, the condition
that it is written as is true of just the texts that match it once both are lowered.  A regular
expression lowers the plain letters alone, which comes to the same where no other character of the
pattern or of the text has a lowercase form of its own. -/
theorem likeAnyCase_compiled (hI : I.EqualsJson) (hregular : I.ReadsRegular)
    (hlower : I.LowersBy lower) (binder column pattern : String) (b : Bindings) :
    ∃ e after,
      (compileTest binder column .likeAnyCase (.value (.string pattern))).on b = (.ok e, after) ∧
      ∀ {g : Graph} {params : Row} {row : Env} {s : String}, after.Supplies params →
        row.value g (Property.ofColumn binder column) = .string s →
          ((Like.shape pattern.toList).kind ≠ .regex → e.truth I g params row = .ofBool (decide
            (Like.Matches (pattern.toList.flatMap lower) (s.toList.flatMap lower)))) ∧
          ((Like.shape pattern.toList).kind = .regex → e.truth I g params row = .ofBool (decide
            (Like.Matches (pattern.toList.map Char.toLower) (s.toList.map Char.toLower)))) ∧
          ((∀ c ∈ pattern.toList ++ s.toList, lower c = [c.toLower]) →
            e.truth I g params row = .ofBool (decide
              (Like.Matches (pattern.toList.flatMap lower) (s.toList.flatMap lower)))) := by
  obtain ⟨e, he, htruth⟩ := compileTest_pattern (.inr (.inr rfl) : Operator.likeAnyCase = .like ∨ _)
    binder column pattern b
  refine ⟨e, _, he, fun {g params row s} hs hv => ?_⟩
  have hsimple (hkind : (Like.shape pattern.toList).kind ≠ .regex) : e.truth I g params row =
      .ofBool (decide (Like.Matches (pattern.toList.flatMap lower) (s.toList.flatMap lower))) :=
    (htruth hs hv).trans (likeTestHolds_lowered hI hlower hkind s)
  have hregex (hkind : (Like.shape pattern.toList).kind = .regex) : e.truth I g params row =
      .ofBool (decide
        (Like.Matches (pattern.toList.map Char.toLower) (s.toList.map Char.toLower))) :=
    (htruth hs hv).trans (likeTestHolds_regex hregular hkind s)
  refine ⟨hsimple, hregex, fun hplain => ?_⟩
  by_cases hkind : (Like.shape pattern.toList).kind = .regex
  · have hmap {text : List Char} (h : ∀ c ∈ text, lower c = [c.toLower]) :
        text.flatMap lower = text.map Char.toLower :=
      (List.flatMap_congr h).trans (List.flatMap_pure_eq_map _ _)
    rw [hregex hkind, hmap fun c hc => hplain c (List.mem_append_left _ hc),
      hmap fun c hc => hplain c (List.mem_append_right _ hc)]
  · exact hsimple hkind

/-- An accent at the beginning of a word, found by a simple test, and plain letters by a regular
expression. -/
theorem likeAnyCase_compiled_begins :
    (∃ e after,
      (compileTest "n" "name" .likeAnyCase (.value (.string "É%"))).on {} = (.ok e, after) ∧
      e.truth .latin (.ofNodes [("User", [("name", .string "éa")])]) after.parameters
        (nodeRow "n" 0) = .yes) ∧
    ∃ e after,
      (compileTest "n" "name" .likeAnyCase (.value (.string "A_"))).on {} = (.ok e, after) ∧
      e.truth .latin (.ofNodes [("User", [("name", .string "ab")])]) after.parameters
        (nodeRow "n" 0) = .yes := by
  constructor
  · obtain ⟨e, after, he, h⟩ := likeAnyCase_compiled Interpretation.latin_equalsJson
      Interpretation.latin_readsRegular Interpretation.latin_lowersBy "n" "name" "É%" {}
    refine ⟨e, after, he, ?_⟩
    rw [(h after.supplies_parameters rfl).1 (by decide)]
    decide
  · obtain ⟨e, after, he, h⟩ := likeAnyCase_compiled Interpretation.latin_equalsJson
      Interpretation.latin_readsRegular Interpretation.latin_lowersBy "n" "name" "A_" {}
    have hplain : ∀ c ∈ "A_".toList ++ "ab".toList, Interpretation.latinLower c = [c.toLower] := by
      simp [Interpretation.latinLower]
    refine ⟨e, after, he, ?_⟩
    rw [(h after.supplies_parameters rfl).2.2 hplain]
    decide

/-- A regular expression misses a capital letter with an accent, though the lowered pattern matches the
lowered text. -/
theorem capital_accent_missed :
    Interpretation.latin.EqualsJson ∧ Interpretation.latin.ReadsRegular ∧
    Interpretation.latin.LowersBy Interpretation.latinLower ∧
    ∃ e after,
      (compileTest "n" "name" .likeAnyCase (.value (.string "É_"))).on {} = (.ok e, after) ∧
      e.truth .latin (.ofNodes [("User", [("name", .string "éa")])]) after.parameters
        (nodeRow "n" 0) = .no ∧
      Like.Matches ("É_".toList.flatMap Interpretation.latinLower)
        ("éa".toList.flatMap Interpretation.latinLower) := by
  obtain ⟨e, he, htruth⟩ := compileTest_pattern (.inr (.inr rfl) : Operator.likeAnyCase = .like ∨ _)
    "n" "name" "É_" {}
  refine ⟨Interpretation.latin_equalsJson, Interpretation.latin_readsRegular,
    Interpretation.latin_lowersBy, e, _, he, ?_, by decide⟩
  rw [htruth (Bindings.supplies_parameters _) rfl]
  decide

end

end GraphMapper
