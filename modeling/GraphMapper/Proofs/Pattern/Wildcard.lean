import Mathlib.Tactic
import GraphMapper.Filter.Like

/-!
Patterns with wildcards, and the tests that they amount to.

* `Like.Matches`: the texts that a pattern stands for;
* `Like.accepts`: whether a text is made of the pieces of a pattern, up to what counts as the same
  character; `Like.accepts_iff_matches`: for the pieces that are read from a pattern these are the
  texts that it stands for; `Like.pattern_induction` follows the reading;
* `Like.Shape.tokens`, `Like.tokens_shape`: no test loses a piece of its pattern;
* `Like.accepts_equals`, `Like.accepts_startsWith`, `Like.accepts_endsWith`, `Like.accepts_contains`:
  the texts of the simple tests.
-/

namespace GraphMapper.Like

/-! ### What a pattern stands for -/

/-- The characters with a meaning of their own: the two wildcards and the backslash. -/
def IsSpecial (c : Char) : Prop :=
  c = '%' ∨ c = '_' ∨ c = '\\'

instance (c : Char) : Decidable (IsSpecial c) :=
  inferInstanceAs (Decidable (_ ∨ _))

/-- The texts that a pattern stands for: a wildcard stands for any text or for any character, a
backslash makes the next character stand for itself, and at the end it stands for itself. -/
inductive Matches : List Char → List Char → Prop where
  | nil : Matches [] []
  | many {p s : List Char} (any : List Char) (h : Matches p s) : Matches ('%' :: p) (any ++ s)
  | one {p s : List Char} (c : Char) (h : Matches p s) : Matches ('_' :: p) (c :: s)
  | escaped {p s : List Char} (c : Char) (h : Matches p s) : Matches ('\\' :: c :: p) (c :: s)
  | backslash : Matches ['\\'] ['\\']
  | char {p s : List Char} {c : Char} (hc : ¬ IsSpecial c) (h : Matches p s) :
      Matches (c :: p) (c :: s)

/-! ### Pieces -/

/-- Whether a text is made of these pieces, one after the other. -/
def accepts (same : Char → Char → Bool) : List Token → List Char → Bool
  | [], s => s.isEmpty
  | .char c :: ts, s =>
    match s with
    | [] => false
    | d :: rest => same c d && accepts same ts rest
  | .one :: ts, s =>
    match s with
    | [] => false
    | _ :: rest => accepts same ts rest
  | .many :: ts, s => s.tails.any fun rest => accepts same ts rest

/-- Characters that are the same. -/
def sameChar (c d : Char) : Bool :=
  c = d

@[simp] lemma accepts_nil {same : Char → Char → Bool} {s : List Char} :
    accepts same [] s = true ↔ s = [] := by
  simp [accepts]

lemma accepts_char {same : Char → Char → Bool} {c : Char} {ts : List Token} {s : List Char} :
    accepts same (.char c :: ts) s = true ↔
      ∃ d rest, s = d :: rest ∧ same c d = true ∧ accepts same ts rest = true := by
  cases s with
  | nil => simp [accepts]
  | cons d rest => simp [accepts]

lemma accepts_sameChar {c : Char} {ts : List Token} {s : List Char} :
    accepts sameChar (.char c :: ts) s = true ↔ ∃ rest, s = c :: rest ∧ accepts sameChar ts rest := by
  rw [accepts_char]
  constructor
  · rintro ⟨d, rest, rfl, hd, h⟩
    obtain rfl : c = d := by simpa [sameChar] using hd
    exact ⟨rest, rfl, h⟩
  · rintro ⟨rest, rfl, h⟩
    exact ⟨c, rest, rfl, by simp [sameChar], h⟩

lemma accepts_one {same : Char → Char → Bool} {ts : List Token} {s : List Char} :
    accepts same (.one :: ts) s = true ↔ ∃ d rest, s = d :: rest ∧ accepts same ts rest = true := by
  cases s with
  | nil => simp [accepts]
  | cons d rest => simp [accepts]

lemma accepts_many {same : Char → Char → Bool} {ts : List Token} {s : List Char} :
    accepts same (.many :: ts) s = true ↔ ∃ any rest, s = any ++ rest ∧ accepts same ts rest = true := by
  rw [accepts, List.any_eq_true]
  simp only [List.mem_tails]
  constructor
  · rintro ⟨rest, ⟨any, rfl⟩, h⟩
    exact ⟨any, rest, rfl, h⟩
  · rintro ⟨any, rest, rfl, h⟩
    exact ⟨rest, List.suffix_append _ _, h⟩

/-! ### Reading a pattern -/

lemma tokens_many (rest : List Char) : tokens ('%' :: rest) = .many :: tokens rest := rfl

lemma tokens_one (rest : List Char) : tokens ('_' :: rest) = .one :: tokens rest := rfl

lemma tokens_escaped (c : Char) (rest : List Char) :
    tokens ('\\' :: c :: rest) = .char c :: tokens rest := rfl

lemma tokens_char {c : Char} (hc : ¬ IsSpecial c) (rest : List Char) :
    tokens (c :: rest) = .char c :: tokens rest := by
  simp only [IsSpecial, not_or] at hc
  rw [tokens.eq_def]
  split <;> simp_all

/-- Induction over a pattern in the way in which it is read. -/
@[elab_as_elim]
lemma pattern_induction {motive : List Char → Prop} (pattern : List Char) (nil : motive [])
    (backslash : motive ['\\'])
    (escaped : ∀ c rest, motive rest → motive ('\\' :: c :: rest))
    (many : ∀ rest, motive rest → motive ('%' :: rest))
    (one : ∀ rest, motive rest → motive ('_' :: rest))
    (char : ∀ c rest, ¬ IsSpecial c → motive rest → motive (c :: rest)) : motive pattern := by
  induction pattern using tokens.induct with
  | case1 => exact nil
  | case2 => exact backslash
  | case3 c rest ih => exact escaped c rest ih
  | case4 rest ih => exact many rest ih
  | case5 rest ih => exact one rest ih
  | case6 c rest hlast hescape hmany hone ih =>
      refine char c rest ?_ ih
      rintro (rfl | rfl | rfl)
      · exact hmany rfl
      · exact hone rfl
      · cases rest with
        | nil => exact hlast rfl rfl
        | cons d rest => exact hescape d rest rfl rfl

/-- A text is made of the pieces read from a pattern just if the pattern stands for it. -/
theorem accepts_iff_matches {pattern s : List Char} :
    accepts sameChar (tokens pattern) s = true ↔ Matches pattern s := by
  constructor
  · intro h
    induction pattern using pattern_induction generalizing s with
    | nil =>
        rw [accepts_nil.mp h]
        exact .nil
    | backslash =>
        obtain ⟨rest, rfl, hrest⟩ := accepts_sameChar.mp h
        rw [accepts_nil.mp hrest]
        exact .backslash
    | escaped c rest ih =>
        obtain ⟨later, rfl, hlater⟩ := accepts_sameChar.mp h
        exact .escaped c (ih hlater)
    | many rest ih =>
        obtain ⟨any, later, rfl, hlater⟩ := accepts_many.mp h
        exact .many any (ih hlater)
    | one rest ih =>
        obtain ⟨c, later, rfl, hlater⟩ := accepts_one.mp h
        exact .one c (ih hlater)
    | char c rest hc ih =>
        rw [tokens_char hc] at h
        obtain ⟨later, rfl, hlater⟩ := accepts_sameChar.mp h
        exact .char hc (ih hlater)
  · intro h
    induction h with
    | nil => rfl
    | many any _ ih => exact accepts_many.mpr ⟨any, _, rfl, ih⟩
    | one c _ ih => exact accepts_one.mpr ⟨c, _, rfl, ih⟩
    | escaped c _ ih => exact accepts_sameChar.mpr ⟨_, rfl, ih⟩
    | backslash => decide
    | char hc _ ih =>
        rw [tokens_char hc]
        exact accepts_sameChar.mpr ⟨_, rfl, ih⟩

instance (pattern s : List Char) : Decidable (Matches pattern s) :=
  decidable_of_iff _ accepts_iff_matches

lemma accepts_tokens (pattern s : List Char) :
    accepts sameChar (tokens pattern) s = decide (Matches pattern s) := by
  rw [Bool.eq_iff_iff, accepts_iff_matches, decide_eq_true_iff]

/-! ### Tests -/

/-- The pieces that a test stands for. -/
def Shape.tokens : Shape → List Token
  | .equals text => text.map .char
  | .startsWith text => text.map .char ++ [.many]
  | .endsWith text => .many :: text.map .char
  | .contains text => .many :: (text.map .char ++ [.many])
  | .regex ts => ts

lemma eq_map_of_literal {ts : List Token} {text : List Char} (h : literal? ts = some text) :
    ts = text.map .char := by
  induction ts generalizing text with
  | nil =>
      obtain rfl : [] = text := by simpa [literal?] using h
      rfl
  | cons t ts ih =>
      cases t with
      | char c =>
          rw [literal?, Option.map_eq_some_iff] at h
          obtain ⟨later, hlater, rfl⟩ := h
          rw [ih hlater, List.map_cons]
      | many => simp [literal?] at h
      | one => simp [literal?] at h

/-- What is taken off at the end is one wildcard for any text. -/
lemma eq_append_of_dropTrailing (ts : List Token) :
    ts = (dropTrailing ts).1 ++ if (dropTrailing ts).2 then [.many] else [] := by
  by_cases h : ts.getLast? = some .many
  · have hdrop : dropTrailing ts = (ts.dropLast, true) := if_pos h
    rw [hdrop]
    exact (List.dropLast_append_getLast? _ h).symm
  · have hdrop : dropTrailing ts = (ts, false) := if_neg h
    simp [hdrop]

/-- The test that a pattern amounts to stands for all pieces of the pattern. -/
theorem tokens_shape (pattern : List Char) : (shape pattern).tokens = tokens pattern := by
  rw [shape]
  split
  rename_i rest leading hread
  have hall : tokens pattern = (if leading then [.many] else []) ++ rest := by
    split at hread <;> obtain ⟨rfl, rfl⟩ := Prod.mk.inj hread
    · assumption
    · rfl
  dsimp only
  cases hliteral : literal? (dropTrailing rest).1 with
  | none => rfl
  | some text =>
      have hrest := eq_append_of_dropTrailing rest
      rw [eq_map_of_literal hliteral] at hrest
      rw [hall]
      generalize (dropTrailing rest).2 = trailing at hrest ⊢
      cases leading <;> cases trailing <;> simp [Shape.tokens, hrest]

/-! ### The simple tests -/

/-- A text that begins with certain characters, the rest being made of further pieces. -/
lemma accepts_map_append {text : List Char} {ts : List Token} {s : List Char} :
    accepts sameChar (text.map .char ++ ts) s = true ↔
      ∃ rest, s = text ++ rest ∧ accepts sameChar ts rest = true := by
  induction text generalizing s with
  | nil => simp
  | cons c text ih =>
      rw [List.map_cons, List.cons_append, accepts_sameChar]
      constructor
      · rintro ⟨later, rfl, h⟩
        obtain ⟨rest, rfl, hrest⟩ := ih.mp h
        exact ⟨rest, rfl, hrest⟩
      · rintro ⟨rest, rfl, h⟩
        exact ⟨text ++ rest, rfl, ih.mpr ⟨rest, rfl, h⟩⟩

lemma accepts_equals {text s : List Char} :
    accepts sameChar (Shape.equals text).tokens s = true ↔ s = text := by
  have h : accepts sameChar (text.map .char ++ []) s = true ↔ _ := accepts_map_append
  rw [List.append_nil] at h
  simpa [Shape.tokens] using h

lemma accepts_startsWith {text s : List Char} :
    accepts sameChar (Shape.startsWith text).tokens s = true ↔ text <+: s := by
  rw [Shape.tokens, accepts_map_append]
  constructor
  · rintro ⟨rest, rfl, -⟩
    exact List.prefix_append _ _
  · rintro ⟨rest, rfl⟩
    exact ⟨rest, rfl, accepts_many.mpr ⟨rest, [], by simp⟩⟩

lemma accepts_endsWith {text s : List Char} :
    accepts sameChar (Shape.endsWith text).tokens s = true ↔ text <:+ s := by
  rw [Shape.tokens, accepts_many]
  constructor
  · rintro ⟨any, rest, rfl, h⟩
    exact ⟨any, by rw [accepts_equals.mp h]⟩
  · rintro ⟨any, rfl⟩
    exact ⟨any, text, rfl, accepts_equals.mpr rfl⟩

lemma accepts_contains {text s : List Char} :
    accepts sameChar (Shape.contains text).tokens s = true ↔ text <:+: s := by
  rw [Shape.tokens, accepts_many]
  constructor
  · rintro ⟨any, rest, rfl, h⟩
    exact (accepts_startsWith.mp h).isInfix.trans (List.suffix_append _ _).isInfix
  · rintro ⟨any, later, rfl⟩
    refine ⟨any, text ++ later, by simp, accepts_startsWith.mpr (List.prefix_append _ _)⟩

end GraphMapper.Like
