import GraphMapper.Proofs.Reading.Formula

/-!
Phrases: texts that the reader of conditions knows what to do with.

* `Yields`: lexemes that give certain symbols wherever an operand may stand and end;
* `Supplies`, `Fills`: what symbols do to the frames of the reader, as an operand and as a chain;
* `Solid`: texts that are lexed on their own and whose brackets are in order;
* `ReadsOperand`, `ReadsChain`: solid texts that read as an operand or as a chain of operands;
* `ReadsChain.readText`: a chain on its own reads as the formula that its runs make.
-/

namespace GraphMapper.Cypher

/-! ### From lexemes to symbols -/

/-- What ends an atom that stands before it: nothing more, a closing parenthesis, `AND` or `OR`. -/
def Ends : List Lexeme → Prop
  | [] => True
  | t :: _ => t = .closing ∨ keyword? t = some .and ∨ keyword? t = some .or

lemma symbols_of_ends {rest : List Lexeme} (h : Ends rest) (atom : List Lexeme) :
    symbols atom 0 rest = atomSymbol atom ++ symbols [] 0 rest := by
  cases rest with
  | nil => simp [symbols, atomSymbol]
  | cons t rest =>
      have hs : ∃ s, ∀ a, symbol? a t = some s := by
        rcases h with rfl | h | h
        · exact ⟨.closing, fun _ => rfl⟩
        · refine ⟨.and, fun a => ?_⟩
          cases t <;> simp_all [symbol?, keyword?]
        · refine ⟨.or, fun a => ?_⟩
          cases t <;> simp_all [symbol?, keyword?]
      obtain ⟨s, hs⟩ := hs
      simp [symbols, hs, atomSymbol]

/-- Lexemes that give these symbols where an operand may stand, whatever follows its end. -/
def Yields (ts : List Lexeme) (ss : List Symbol) : Prop :=
  ∀ rest, Ends rest → symbols [] 0 (ts ++ rest) = ss ++ symbols [] 0 rest

/-- A word that is no connective, with what continues it, is an atom. -/
lemma Yields.atom {chars : List Char} {ts : List Lexeme} (hw : keyword? (.word chars) = none)
    (h : Continues ts) : Yields (.word chars :: ts) [.atom (.word chars :: ts)] := by
  intro rest hrest
  have hs : symbol? [] (.word chars) = none := by simp [symbol?, hw]
  have h1 : symbols [] 0 (.word chars :: (ts ++ rest)) = symbols [.word chars] 0 (ts ++ rest) := by
    simp [symbols, hs, depthAfter]
  rw [List.cons_append, h1, h _ _ (by simp), symbols_of_ends hrest]
  rfl

lemma Yields.not {chars : List Char} {ts : List Lexeme} {ss : List Symbol}
    (hw : keyword? (.word chars) = some .not) (h : Yields ts ss) :
    Yields (.word chars :: ts) (.not :: ss) := by
  intro rest hrest
  have hs : symbol? [] (.word chars) = some .not := by simp [symbol?, hw]
  simp [symbols, hs, atomSymbol, h rest hrest]

lemma Yields.enclosed {ts : List Lexeme} {ss : List Symbol} (h : Yields ts ss) :
    Yields (.opening :: (ts ++ [.closing])) (.opening :: (ss ++ [.closing])) := by
  intro rest _
  have h' := h (.closing :: rest) (.inl rfl)
  simp only [List.append_assoc, List.cons_append, List.nil_append] at h' ⊢
  simp [symbols, symbol?, atomSymbol, h']

/-- Two phrases with a connective between them. -/
lemma Yields.joined {a b : List Lexeme} {sa sb : List Symbol} {t : Lexeme} {s : Symbol}
    (ht : keyword? t = some s) (hs : s = .and ∨ s = .or) (ha : Yields a sa) (hb : Yields b sb) :
    Yields (a ++ t :: b) (sa ++ s :: sb) := by
  intro rest hrest
  have hends : Ends (t :: (b ++ rest)) := by
    rcases hs with rfl | rfl
    · exact .inr (.inl ht)
    · exact .inr (.inr ht)
  have hsym : symbol? [] t = some s := by
    cases t with
    | word chars => rcases hs with rfl | rfl <;> simp [symbol?, ht]
    | _ => simp [keyword?] at ht
  rw [List.append_assoc, List.cons_append, ha _ hends]
  simp [symbols, hsym, atomSymbol, hb rest hrest]

/-! ### From symbols to formulas -/

/-- Symbols that are an operand with this formula for whatever frame waits for one. -/
def Supplies (ss : List Symbol) (f : Formula) : Prop :=
  ∀ alternatives run k outer,
    steps ss (⟨alternatives, run, some k⟩ :: outer) =
      some (⟨alternatives, some (Frame.conjoin run (Frame.negated k f)), none⟩ :: outer)

/-- Symbols that fill a fresh frame with these runs. -/
def Fills (ss : List Symbol) (alternatives : Option Formula) (run : Formula) : Prop :=
  ∀ outer, steps ss (.fresh :: outer) = some (⟨alternatives, some run, none⟩ :: outer)

lemma Supplies.atom (ts : List Lexeme) : Supplies [.atom ts] (.atom ts) :=
  fun _ _ _ _ => rfl

lemma Supplies.not {ss : List Symbol} {f : Formula} (h : Supplies ss f) :
    Supplies (.not :: ss) (.not f) :=
  fun alternatives run k outer => h alternatives run (k + 1) outer

/-- A chain in parentheses is an operand. -/
lemma Fills.enclosed {ss : List Symbol} {alternatives : Option Formula} {run : Formula}
    (h : Fills ss alternatives run) :
    Supplies (.opening :: (ss ++ [.closing])) (Frame.disjoin alternatives run) := by
  intro before runBefore k outer
  change steps (ss ++ [.closing]) (.fresh :: ⟨before, runBefore, some k⟩ :: outer) = _
  rw [steps_append, h]
  rfl

/-- An operand is a chain. -/
lemma Supplies.fills {ss : List Symbol} {f : Formula} (h : Supplies ss f) : Fills ss none f :=
  fun outer => h none none 0 outer

lemma Fills.and {sa sb : List Symbol} {alternatives : Option Formula} {run f : Formula}
    (ha : Fills sa alternatives run) (hb : Supplies sb f) :
    Fills (sa ++ .and :: sb) alternatives (.and run f) := by
  intro outer
  rw [steps_append, ha]
  exact hb alternatives (some run) 0 outer

lemma Fills.or {sa sb : List Symbol} {alternatives : Option Formula} {run f : Formula}
    (ha : Fills sa alternatives run) (hb : Supplies sb f) :
    Fills (sa ++ .or :: sb) (some (Frame.disjoin alternatives run)) f := by
  intro outer
  rw [steps_append, ha]
  exact hb (some (Frame.disjoin alternatives run)) none 0 outer

/-! ### Solid texts -/

/-- A text that is lexed on its own and whose brackets are in order. -/
structure Solid (text : List Char) : Prop where
  complete : Complete text
  balanced : Balanced (lexemes text)

lemma Solid.word {text : List Char} (h : IsWord text) : Solid text := by
  refine ⟨.word h, ?_⟩
  rw [lexemes_word h]
  exact .pending text

lemma Solid.spaced {a b : List Char} (ha : Solid a) (hb : Solid b) : Solid (a ++ ' ' :: b) := by
  refine ⟨ha.complete.spaced hb.complete, ?_⟩
  rw [ha.complete.lexemes_spaced]
  exact ha.balanced.append hb.balanced

lemma Complete.lexemes_parenthesized {a : List Char} (ha : Complete a) :
    lexemes ('(' :: (a ++ [')'])) = .opening :: (lexemes a ++ [.closing]) :=
  ha.lexemes_enclosed []

lemma Solid.enclosed {a : List Char} (ha : Solid a) : Solid ('(' :: (a ++ [')'])) := by
  refine ⟨ha.complete.enclosed, ?_⟩
  rw [ha.complete.lexemes_parenthesized]
  exact ha.balanced.enclosed

/-- A word before a text in parentheses. -/
lemma Solid.call {f a : List Char} (hf : IsWord f) (ha : Solid a) :
    Solid (f ++ '(' :: (a ++ [')'])) := by
  refine ⟨.call hf ha.complete, ?_⟩
  rw [lexemes_word_append hf (breaks_opening _)]
  exact (Balanced.pending f).append ha.enclosed.balanced

/-- A text in parentheses before any other. -/
lemma Solid.enclosed_append {a b : List Char} (ha : Solid a) (hb : Solid b) :
    Solid ('(' :: (a ++ ')' :: b)) := by
  constructor
  · intro rest hr
    have h := ha.complete.lexemes_enclosed (b ++ rest)
    simp only [List.cons_append, List.append_assoc] at h ⊢
    rw [h, ha.complete.lexemes_enclosed b, hb.complete rest hr]
    simp
  · rw [ha.complete.lexemes_enclosed]
    have h := ha.balanced.enclosed.append hb.balanced
    simpa using h

/-! ### Operands and chains -/

/-- A text that reads as an operand. -/
structure ReadsOperand (text : List Char) (f : Formula) : Prop extends Solid text where
  reads : ∃ ss, Yields (lexemes text) ss ∧ Supplies ss f

/-- A text that reads as a chain of operands. -/
structure ReadsChain (text : List Char) (alternatives : Option Formula) (run : Formula) : Prop
    extends Solid text where
  reads : ∃ ss, Yields (lexemes text) ss ∧ Fills ss alternatives run

lemma ReadsOperand.chain {text : List Char} {f : Formula} (h : ReadsOperand text f) :
    ReadsChain text none f := by
  obtain ⟨ss, hy, hs⟩ := h.reads
  exact ⟨h.toSolid, ss, hy, hs.fills⟩

/-- A negated operand. -/
lemma ReadsOperand.negated {text : List Char} {f : Formula} (h : ReadsOperand text f) :
    ReadsOperand ("NOT".toList ++ ' ' :: text) (.not f) := by
  obtain ⟨ss, hy, hs⟩ := h.reads
  have hw : IsWord "NOT".toList := by decide
  refine ⟨(Solid.word hw).spaced h.toSolid, .not :: ss, ?_, hs.not⟩
  rw [(Complete.word hw).lexemes_spaced, lexemes_word hw]
  exact hy.not (by decide)

/-- A chain in parentheses is an operand. -/
lemma ReadsChain.enclosed {text : List Char} {alternatives : Option Formula} {run : Formula}
    (h : ReadsChain text alternatives run) :
    ReadsOperand ('(' :: (text ++ [')'])) (Frame.disjoin alternatives run) := by
  obtain ⟨ss, hy, hs⟩ := h.reads
  refine ⟨h.toSolid.enclosed, .opening :: (ss ++ [.closing]), ?_, hs.enclosed⟩
  rw [h.complete.lexemes_parenthesized]
  exact hy.enclosed

/-- The lexemes of two texts with a word between them. -/
lemma Complete.lexemes_joined {a w : List Char} (ha : Complete a) (hw : IsWord w) (hne : w ≠ [])
    (b : List Char) :
    lexemes (a ++ ' ' :: (w ++ ' ' :: b)) = lexemes a ++ .word w :: lexemes b := by
  rw [ha.lexemes_spaced, (Complete.word hw).lexemes_spaced, lexemes_word hw, pending_of_ne_nil hne,
    List.singleton_append]

lemma ReadsChain.and {a b : List Char} {alternatives : Option Formula} {run f : Formula}
    (ha : ReadsChain a alternatives run) (hb : ReadsOperand b f) :
    ReadsChain (a ++ ' ' :: ("AND".toList ++ ' ' :: b)) alternatives (.and run f) := by
  obtain ⟨sa, hya, hsa⟩ := ha.reads
  obtain ⟨sb, hyb, hsb⟩ := hb.reads
  have hw : IsWord "AND".toList := by decide
  refine ⟨ha.toSolid.spaced ((Solid.word hw).spaced hb.toSolid), sa ++ .and :: sb, ?_, hsa.and hsb⟩
  rw [ha.complete.lexemes_joined hw (by decide)]
  exact hya.joined (by decide) (.inl rfl) hyb

lemma ReadsChain.or {a b : List Char} {alternatives : Option Formula} {run f : Formula}
    (ha : ReadsChain a alternatives run) (hb : ReadsOperand b f) :
    ReadsChain (a ++ ' ' :: ("OR".toList ++ ' ' :: b)) (some (Frame.disjoin alternatives run))
      f := by
  obtain ⟨sa, hya, hsa⟩ := ha.reads
  obtain ⟨sb, hyb, hsb⟩ := hb.reads
  have hw : IsWord "OR".toList := by decide
  refine ⟨ha.toSolid.spaced ((Solid.word hw).spaced hb.toSolid), sa ++ .or :: sb, ?_, hsa.or hsb⟩
  rw [ha.complete.lexemes_joined hw (by decide)]
  exact hya.joined (by decide) (.inr rfl) hyb

/-- A chain on its own reads as the formula that its runs make. -/
theorem ReadsChain.readText {text : String} {alternatives : Option Formula} {run : Formula}
    (h : ReadsChain text.toList alternatives run) :
    readText text = some (some (Frame.disjoin alternatives run)) := by
  obtain ⟨ss, hy, hs⟩ := h.reads
  have hsym : symbols [] 0 (lexemes text.toList) = ss := by
    have := hy [] trivial
    rwa [List.append_nil, show symbols [] 0 [] = [] from rfl, List.append_nil] at this
  cases ss with
  | nil => exact absurd (hs []) (by simp [steps, Frame.fresh])
  | cons s rest =>
      rw [Cypher.readText, hsym]
      change ((steps (s :: rest) [.fresh]).bind result?).map some = _
      rw [hs []]
      rfl

end GraphMapper.Cypher
