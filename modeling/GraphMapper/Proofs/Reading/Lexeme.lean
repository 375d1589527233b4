import Mathlib.Tactic
import GraphMapper.Cypher.Identifier
import GraphMapper.Text.Blank

/-!
Lexemes of query text: words and brackets, with blanks between them.

* `Lexeme`, `lexemes`: a text read from left to right.  A word is what stands between blanks and
  brackets; between backticks every character belongs to the word, so `n.first name` with its name
  quoted is one word.
* `IsWord`: the texts that are a piece of one word wherever they stand.  `isWord_quote` and
  `isWord_ofColumn`: the written forms of names and properties are.
* `Complete`: the texts whose lexemes do not depend on what follows, as long as that starts with a
  blank or a bracket; `Complete.spaced`, `Complete.enclosed`, `Complete.call` build them.
-/

namespace GraphMapper.Cypher

/-- A word or a bracket. -/
inductive Lexeme where
  | word (chars : List Char)
  | opening
  | closing
  | openBrace
  | closeBrace
deriving DecidableEq, Repr

namespace Lexeme

/-- The bracket that a character is, if it is one. -/
def bracket? (c : Char) : Option Lexeme :=
  if c = '(' then some .opening
  else if c = ')' then some .closing
  else if c = '\x7b' then some .openBrace
  else if c = '\x7d' then some .closeBrace
  else none

/-- Whether a character ends a word when it stands outside backticks. -/
def isSeparator (c : Char) : Bool :=
  Text.isBlank c || (bracket? c).isSome

/-- The word made of the characters so far, if there are any. -/
def pending : List Char → List Lexeme
  | [] => []
  | c :: rest => [.word (c :: rest)]

/-- Reads on, inside or outside backticks, with the characters of a word that is not at its end. -/
def scan (quoted : Bool) (word : List Char) : List Char → List Lexeme
  | [] => pending word
  | c :: rest =>
    if c = '`' then scan (!quoted) (word ++ [c]) rest
    else if quoted then scan true (word ++ [c]) rest
    else if Text.isBlank c then pending word ++ scan false [] rest
    else
      match bracket? c with
      | some b => pending word ++ b :: scan false [] rest
      | none => scan false (word ++ [c]) rest

end Lexeme

open Lexeme

/-- The lexemes of a text. -/
def lexemes (text : List Char) : List Lexeme :=
  scan false [] text

@[simp] lemma lexemes_nil : lexemes [] = [] := rfl

@[simp] lemma pending_nil : pending [] = [] := rfl

lemma pending_of_ne_nil {word : List Char} (h : word ≠ []) : pending word = [.word word] := by
  cases word with
  | nil => exact absurd rfl h
  | cons c rest => rfl

/-! ### Words -/

/-- Whether a text read from inside or outside backticks ends outside of them, without a separator
on the way. -/
def isWordFrom (quoted : Bool) : List Char → Bool
  | [] => !quoted
  | c :: rest =>
    if c = '`' then isWordFrom (!quoted) rest
    else if quoted then isWordFrom true rest
    else !isSeparator c && isWordFrom false rest

/-- A text that is a piece of one word wherever it stands. -/
def IsWord (text : List Char) : Prop :=
  isWordFrom false text = true

instance (text : List Char) : Decidable (IsWord text) :=
  inferInstanceAs (Decidable (_ = true))

lemma isWordFrom_append {a b : List Char} (hb : IsWord b) :
    ∀ {quoted : Bool}, isWordFrom quoted a = true → isWordFrom quoted (a ++ b) = true := by
  induction a with
  | nil =>
      intro quoted h
      have hq : quoted = false := by simpa [isWordFrom] using h
      rw [hq]
      exact hb
  | cons c rest ih =>
      intro quoted h
      simp only [List.cons_append, isWordFrom] at h ⊢
      split_ifs at h ⊢ with hc hq
      · exact ih h
      · exact ih h
      · rw [Bool.and_eq_true] at h ⊢
        exact ⟨h.1, ih h.2⟩

lemma IsWord.append {a b : List Char} (ha : IsWord a) (hb : IsWord b) : IsWord (a ++ b) :=
  isWordFrom_append hb ha

/-- Characters that neither quote nor separate make a word. -/
lemma isWord_of_forall {text : List Char}
    (h : ∀ c ∈ text, c ≠ '`' ∧ isSeparator c = false) : IsWord text := by
  induction text with
  | nil => rfl
  | cons c rest ih =>
      have hc := h c (by simp)
      have hrest : isWordFrom false rest = true := ih fun d hd => h d (by simp [hd])
      simp [IsWord, isWordFrom, hc.1, hc.2, hrest]

/-- A word is read as a whole, from wherever in a word the reading stands. -/
lemma scan_append_of_isWordFrom {text : List Char} (rest : List Char) :
    ∀ {quoted : Bool} {word : List Char}, isWordFrom quoted text = true →
      scan quoted word (text ++ rest) = scan false (word ++ text) rest := by
  induction text with
  | nil =>
      intro quoted word h
      have hq : quoted = false := by simpa [isWordFrom] using h
      simp [hq]
  | cons c text ih =>
      intro quoted word h
      rw [List.cons_append, scan]
      rw [isWordFrom] at h
      by_cases hc : c = '`'
      · rw [if_pos hc] at h ⊢
        rw [ih h, List.append_assoc, List.singleton_append]
      · rw [if_neg hc] at h ⊢
        cases quoted with
        | true =>
            rw [if_pos rfl] at h ⊢
            rw [ih h, List.append_assoc, List.singleton_append]
        | false =>
            have hs : isSeparator c = false ∧ isWordFrom false text = true := by simpa using h
            have hblank : Text.isBlank c = false := by
              have := hs.1
              simp only [isSeparator, Bool.or_eq_false_iff] at this
              exact this.1
            have hbracket : bracket? c = none := by
              have := hs.1
              simp only [isSeparator, Bool.or_eq_false_iff, Option.isSome_eq_false_iff,
                Option.isNone_iff_eq_none] at this
              exact this.2
            simp only [Bool.false_eq_true, if_false, hblank, hbracket]
            rw [ih hs.2, List.append_assoc, List.singleton_append]

/-! ### Names -/

/-- The code points of the characters of plain names. -/
lemma toNat_of_isPart {c : Char} (h : Identifier.isPart c = true) :
    (48 ≤ c.toNat ∧ c.toNat ≤ 57) ∨ (65 ≤ c.toNat ∧ c.toNat ≤ 90) ∨ c.toNat = 95 ∨
      (97 ≤ c.toNat ∧ c.toNat ≤ 122) := by
  rw [Identifier.isPart, Char.isAlphanum] at h
  delta Char.isAlpha Char.isUpper Char.isLower Char.isDigit at h
  simp only [Bool.or_eq_true, Bool.and_eq_true, decide_eq_true_eq, beq_iff_eq] at h
  rcases h with ((h | h) | h) | h
  · exact .inr (.inl ⟨UInt32.le_iff_toNat_le.1 h.1, UInt32.le_iff_toNat_le.1 h.2⟩)
  · exact .inr (.inr (.inr ⟨UInt32.le_iff_toNat_le.1 h.1, UInt32.le_iff_toNat_le.1 h.2⟩))
  · exact .inl ⟨UInt32.le_iff_toNat_le.1 h.1, UInt32.le_iff_toNat_le.1 h.2⟩
  · exact .inr (.inr (.inl (by rw [h]; rfl)))

/-- The separators lie outside the code points from the digits to the small letters. -/
lemma isSeparator_eq_false {c : Char} (h : 48 ≤ c.toNat ∧ c.toNat ≤ 122) :
    isSeparator c = false := by
  have hblank : Text.isBlank c = false := by
    simp only [Text.isBlank, Bool.or_eq_false_iff, Bool.and_eq_false_iff, decide_eq_false_iff_not,
      beq_eq_false_iff_ne]
    omega
  have hbracket : bracket? c = none := by
    unfold bracket?
    split_ifs with h1 h2 h3 h4
    · subst h1; revert h; decide
    · subst h2; revert h; decide
    · subst h3; revert h; decide
    · subst h4; revert h; decide
    · rfl
  rw [isSeparator, hblank, hbracket]
  rfl

/-- The characters of plain names make words. -/
lemma isWord_of_all_isPart {name : List Char} (h : name.all Identifier.isPart = true) :
    IsWord name := by
  refine isWord_of_forall fun c hc => ?_
  have hn := toNat_of_isPart (List.all_eq_true.1 h c hc)
  refine ⟨?_, isSeparator_eq_false (by omega)⟩
  rintro rfl
  revert hn
  decide

lemma all_isPart_of_isPlain {name : List Char} (h : Identifier.isPlain name = true) :
    name.all Identifier.isPart = true := by
  cases name with
  | nil => rfl
  | cons c rest =>
      rw [Identifier.isPlain, Bool.and_eq_true] at h
      have hc : Identifier.isPart c = true := by
        have := h.1
        rw [Identifier.isStart, Bool.or_eq_true] at this
        rw [Identifier.isPart, Char.isAlphanum, Bool.or_assoc, Bool.or_eq_true]
        rcases this with h | h <;> simp [h]
      rw [List.all_cons, hc, h.2]
      rfl

lemma isWord_of_isPlain {name : List Char} (h : Identifier.isPlain name = true) : IsWord name :=
  isWord_of_all_isPart (all_isPart_of_isPlain h)

/-- A doubled backtick leaves the quotes and enters them again. -/
lemma isWordFrom_doubled (name : List Char) :
    isWordFrom true (Identifier.doubled name ++ ['`']) = true := by
  induction name with
  | nil => rfl
  | cons c rest ih =>
      rw [Identifier.doubled, List.flatMap_cons, List.append_assoc]
      change isWordFrom true (_ ++ (Identifier.doubled rest ++ ['`'])) = true
      by_cases hc : c = '`'
      · simpa [hc, isWordFrom] using ih
      · simpa [hc, isWordFrom] using ih

/-- The written form of a name is a word, whatever the name. -/
lemma isWord_quoteChars (name : List Char) : IsWord (Identifier.quoteChars name) := by
  rw [Identifier.quoteChars]
  split_ifs with h
  · exact isWord_of_isPlain h
  · exact isWordFrom_doubled name

lemma isWord_quote (name : String) : IsWord (Identifier.quote name).toList := by
  rw [Identifier.quote, String.toList_ofList]
  exact isWord_quoteChars name.toList

/-- The owner of a column's property is the variable itself or a plain name. -/
lemma ofColumn_owner (binder column : String) :
    (Property.ofColumn binder column).owner = binder ∨
      Identifier.isPlain (Property.ofColumn binder column).owner.toList = true := by
  rw [Property.ofColumn]
  split
  · split_ifs with h
    · exact .inr (by rw [String.toList_ofList]; exact h)
    · exact .inl rfl
  · exact .inl rfl

/-- The written form of a property is a word if its owner is. -/
lemma isWord_property {p : Property} (h : IsWord p.owner.toList) : IsWord p.text.toList := by
  rw [Property.text, String.toList_append, String.toList_append]
  exact (h.append (by decide)).append (isWord_quote p.name)

lemma isWord_ofColumn {binder : String} (h : IsWord binder.toList) (column : String) :
    IsWord (Property.ofColumn binder column).owner.toList := by
  rcases ofColumn_owner binder column with hc | hc
  · rw [hc]; exact h
  · exact isWord_of_isPlain hc

lemma isWord_toString (n : Nat) : IsWord (toString n).toList := by
  refine isWord_of_all_isPart (List.all_eq_true.2 fun c hc => ?_)
  rw [Nat.toString_eq_ofList_toDigits, String.toList_ofList] at hc
  have := Nat.isDigit_of_mem_toDigits (by decide) (by decide) hc
  simp [Identifier.isPart, Char.isAlphanum, this]

/-! ### Complete texts -/

/-- What ends a word that stands before it: nothing more, a blank or a bracket. -/
def Breaks : List Char → Prop
  | [] => True
  | c :: _ => c ≠ '`' ∧ isSeparator c = true

lemma scan_of_breaks {rest : List Char} (h : Breaks rest) (word : List Char) :
    scan false word rest = pending word ++ lexemes rest := by
  cases rest with
  | nil => simp [scan]
  | cons c rest =>
      obtain ⟨hc, hs⟩ := h
      have hs : Text.isBlank c = true ∨ ∃ b, bracket? c = some b := by
        simpa [isSeparator, Option.isSome_iff_exists] using hs
      by_cases hb : Text.isBlank c = true
      · simp [lexemes, scan, hc, hb]
      · obtain ⟨b, hb'⟩ := hs.resolve_left hb
        simp [lexemes, scan, hc, hb, hb']

/-- A text whose lexemes are the same whatever follows it after a break. -/
def Complete (text : List Char) : Prop :=
  ∀ rest, Breaks rest → lexemes (text ++ rest) = lexemes text ++ lexemes rest

lemma lexemes_word {text : List Char} (h : IsWord text) : lexemes text = pending text := by
  have h' : scan false [] (text ++ []) = scan false ([] ++ text) [] :=
    scan_append_of_isWordFrom [] h
  simpa [lexemes, scan] using h'

/-- A word and what breaks it off. -/
lemma lexemes_word_append {text rest : List Char} (h : IsWord text) (hr : Breaks rest) :
    lexemes (text ++ rest) = pending text ++ lexemes rest := by
  rw [lexemes, scan_append_of_isWordFrom rest h, List.nil_append, scan_of_breaks hr]

lemma Complete.word {text : List Char} (h : IsWord text) : Complete text := fun rest hr => by
  rw [lexemes_word_append h hr, lexemes_word h]

lemma lexemes_blank (text : List Char) : lexemes (' ' :: text) = lexemes text := by
  simp [lexemes, scan, Text.isBlank]

lemma lexemes_opening (text : List Char) : lexemes ('(' :: text) = .opening :: lexemes text := by
  simp [lexemes, scan, Text.isBlank, bracket?]

lemma lexemes_closing (text : List Char) : lexemes (')' :: text) = .closing :: lexemes text := by
  simp [lexemes, scan, Text.isBlank, bracket?]

lemma lexemes_openBrace (text : List Char) :
    lexemes ('\x7b' :: text) = .openBrace :: lexemes text := by
  simp [lexemes, scan, Text.isBlank, bracket?]

lemma lexemes_closeBrace (text : List Char) :
    lexemes ('\x7d' :: text) = .closeBrace :: lexemes text := by
  simp [lexemes, scan, Text.isBlank, bracket?]

lemma breaks_blank (text : List Char) : Breaks (' ' :: text) := by
  exact ⟨by decide, by decide⟩

lemma breaks_opening (text : List Char) : Breaks ('(' :: text) := by
  exact ⟨by decide, by decide⟩

lemma breaks_closing (text : List Char) : Breaks (')' :: text) := by
  exact ⟨by decide, by decide⟩

/-- The lexemes of a text that is broken off by a blank. -/
lemma Complete.lexemes_spaced {a : List Char} (ha : Complete a) (b : List Char) :
    lexemes (a ++ ' ' :: b) = lexemes a ++ lexemes b := by
  rw [ha _ (breaks_blank b), lexemes_blank]

lemma Complete.spaced {a b : List Char} (ha : Complete a) (hb : Complete b) :
    Complete (a ++ ' ' :: b) := fun rest hr => by
  rw [List.append_assoc, List.cons_append, ha.lexemes_spaced, hb rest hr, ha.lexemes_spaced,
    List.append_assoc]

/-- The lexemes of a text in parentheses, whatever follows. -/
lemma Complete.lexemes_enclosed {a : List Char} (ha : Complete a) (rest : List Char) :
    lexemes ('(' :: (a ++ ')' :: rest)) = .opening :: (lexemes a ++ .closing :: lexemes rest) := by
  rw [lexemes_opening, ha _ (breaks_closing rest), lexemes_closing]

lemma Complete.enclosed {a : List Char} (ha : Complete a) :
    Complete ('(' :: (a ++ [')'])) := fun rest _ => by
  have h := ha.lexemes_enclosed rest
  have h' := ha.lexemes_enclosed []
  simp only [List.cons_append, List.append_assoc, List.nil_append] at h h' ⊢
  rw [h, h']
  simp

/-- A word applied to a text in parentheses. -/
lemma Complete.call {f a : List Char} (hf : IsWord f) (ha : Complete a) :
    Complete (f ++ '(' :: (a ++ [')'])) := fun rest hr => by
  have h := lexemes_word_append hf (breaks_opening (a ++ [')'] ++ rest))
  rw [← List.cons_append, ha.enclosed rest hr] at h
  rw [List.append_assoc, h, lexemes_word_append hf (breaks_opening _), List.append_assoc]

end GraphMapper.Cypher
