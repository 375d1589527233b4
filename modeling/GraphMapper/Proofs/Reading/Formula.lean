import GraphMapper.Proofs.Reading.Lexeme

/-!
Conditions read from their written form.

* `Formula`, `Formula.holds`: a propositional formula over atoms and its truth under an assignment
  of truth values to the atoms;
* `symbols`: lexemes grouped into connectives, parentheses and atoms.  An atom runs up to the next
  connective or closing parenthesis outside of its own brackets, so a function call and a whole
  `EXISTS` with its braces belong to one atom;
* `Frame`, `step`, `readText`: the reader.  `NOT` applies to the next operand alone, `AND` continues
  a run, `OR` ends it, and parentheses are read by themselves.

A text is known to the reader by one of two facts: `ReadsOperand`, it stands for an operand wherever
one may follow, and `ReadsChain`, it stands for a chain between parentheses or on its own.  The
lemmas `ReadsOperand.negated`, `ReadsChain.enclosed`, `ReadsChain.and`, `ReadsChain.or` say how the
facts go over to longer texts.
-/

namespace GraphMapper.Cypher

/-! ### Formulas -/

/-- A formula whose atoms are lists of lexemes. -/
inductive Formula where
  | atom (lexemes : List Lexeme)
  | not (f : Formula)
  | and (f g : Formula)
  | or (f g : Formula)
deriving DecidableEq, Repr

/-- The truth of a formula, given that of its atoms. -/
def Formula.holds (truth : List Lexeme → Bool) : Formula → Bool
  | .atom lexemes => truth lexemes
  | .not f => !f.holds truth
  | .and f g => f.holds truth && g.holds truth
  | .or f g => f.holds truth || g.holds truth

/-! ### Symbols -/

/-- What the reader of formulas sees of a text. -/
inductive Symbol where
  | atom (lexemes : List Lexeme)
  | not
  | and
  | or
  | opening
  | closing
deriving DecidableEq, Repr

/-- The connective that a lexeme spells, in small letters or capitals. -/
def keyword? : Lexeme → Option Symbol
  | .word chars =>
    let capitals := chars.map Char.toUpper
    if capitals = "AND".toList then some .and
    else if capitals = "OR".toList then some .or
    else if capitals = "NOT".toList then some .not
    else none
  | _ => none

/-- The number of open brackets after a lexeme. -/
def depthAfter (depth : ℕ) : Lexeme → ℕ
  | .word _ => depth
  | .opening | .openBrace => depth + 1
  | .closing | .closeBrace => depth - 1

/-- The symbol that a lexeme is, given what has been read of an atom.  Inside an atom a parenthesis
opens a function call, and `NOT` is part of `IS NOT NULL`. -/
def symbol? (atom : List Lexeme) (t : Lexeme) : Option Symbol :=
  match t, keyword? t with
  | .closing, _ => some .closing
  | .opening, _ => if atom = [] then some .opening else none
  | _, some .not => if atom = [] then some .not else none
  | _, found => found

/-- The atom made of the lexemes so far, if there are any. -/
def atomSymbol : List Lexeme → List Symbol
  | [] => []
  | t :: rest => [.atom (t :: rest)]

/-- Reads on, with the lexemes of an atom that is not at its end and the number of its brackets that
are open. -/
def symbols (atom : List Lexeme) (depth : ℕ) : List Lexeme → List Symbol
  | [] => atomSymbol atom
  | t :: rest =>
    if 0 < depth then symbols (atom ++ [t]) (depthAfter depth t) rest
    else
      match symbol? atom t with
      | some s => atomSymbol atom ++ s :: symbols [] 0 rest
      | none => symbols (atom ++ [t]) (depthAfter depth t) rest

/-! ### The reader -/

/-- What has been read since the last open parenthesis: the runs of conjuncts before the last `OR`,
the run after it, and, where an operand has to follow, the number of `NOT`s before it. -/
structure Frame where
  alternatives : Option Formula
  run : Option Formula
  awaiting : Option ℕ
deriving DecidableEq, Repr

namespace Frame

/-- Nothing has been read. -/
def fresh : Frame :=
  ⟨none, none, some 0⟩

/-- A formula negated a number of times. -/
def negated : ℕ → Formula → Formula
  | 0, f => f
  | k + 1, f => negated k (.not f)

/-- Continues a run, if there is one. -/
def conjoin : Option Formula → Formula → Formula
  | none, f => f
  | some run, f => .and run f

/-- Adds a run to those before, if there are any. -/
def disjoin : Option Formula → Formula → Formula
  | none, f => f
  | some alternatives, f => .or alternatives f

/-- An operand is read. -/
def supply (frame : Frame) (f : Formula) : Option Frame :=
  frame.awaiting.map fun k => ⟨frame.alternatives, some (conjoin frame.run (negated k f)), none⟩

/-- The formula of a frame that waits for nothing. -/
def formula? (frame : Frame) : Option Formula :=
  match frame.awaiting, frame.run with
  | none, some run => some (disjoin frame.alternatives run)
  | _, _ => none

end Frame

/-- Reads a symbol; the innermost frame comes first. -/
def step (s : Symbol) (frames : List Frame) : Option (List Frame) :=
  match s, frames with
  | .atom lexemes, frame :: outer => (frame.supply (.atom lexemes)).map (· :: outer)
  | .not, ⟨alternatives, run, some k⟩ :: outer => some (⟨alternatives, run, some (k + 1)⟩ :: outer)
  | .and, ⟨alternatives, some run, none⟩ :: outer =>
    some (⟨alternatives, some run, some 0⟩ :: outer)
  | .or, ⟨alternatives, some run, none⟩ :: outer =>
    some (⟨some (Frame.disjoin alternatives run), none, some 0⟩ :: outer)
  | .opening, ⟨alternatives, run, some k⟩ :: outer =>
    some (Frame.fresh :: ⟨alternatives, run, some k⟩ :: outer)
  | .closing, inner :: frame :: outer => do
    return (← frame.supply (← inner.formula?)) :: outer
  | _, _ => none

/-- Reads symbols one after the other. -/
def steps : List Symbol → List Frame → Option (List Frame)
  | [], frames => some frames
  | s :: rest, frames => (step s frames).bind (steps rest)

/-- The formula that is left when everything has been read. -/
def result? : List Frame → Option Formula
  | [frame] => frame.formula?
  | _ => none

/-- Reads a condition.  The empty text is no condition; a text that is not a condition cannot be
read. -/
def readText (text : String) : Option (Option Formula) :=
  match symbols [] 0 (lexemes text.toList) with
  | [] => some none
  | s :: rest => ((steps (s :: rest) [.fresh]).bind result?).map some

lemma steps_append (a b : List Symbol) (frames : List Frame) :
    steps (a ++ b) frames = (steps a frames).bind (steps b) := by
  induction a generalizing frames with
  | nil => rfl
  | cons s a ih =>
      rw [List.cons_append, steps, steps, Option.bind_assoc]
      congr 1
      funext after
      exact ih after

/-! ### Lexemes inside an atom -/

/-- Lexemes that stay inside brackets once these are open. -/
def Balanced (ts : List Lexeme) : Prop :=
  ∀ atom depth rest, symbols atom (depth + 1) (ts ++ rest) = symbols (atom ++ ts) (depth + 1) rest

/-- Lexemes that continue an atom once it has begun. -/
def Continues (ts : List Lexeme) : Prop :=
  ∀ atom rest, atom ≠ [] → symbols atom 0 (ts ++ rest) = symbols (atom ++ ts) 0 rest

lemma Balanced.nil : Balanced [] := fun atom depth rest => by simp

lemma Balanced.append {a b : List Lexeme} (ha : Balanced a) (hb : Balanced b) :
    Balanced (a ++ b) := fun atom depth rest => by
  rw [List.append_assoc, ha, hb, List.append_assoc]

lemma Balanced.word (chars : List Char) : Balanced [.word chars] := fun atom depth rest => by
  simp [symbols, depthAfter]

lemma Balanced.pending (chars : List Char) : Balanced (Lexeme.pending chars) := by
  cases chars with
  | nil => exact .nil
  | cons c rest => exact .word _

/-- A pair of brackets around balanced lexemes. -/
lemma Balanced.enclosed {ts : List Lexeme} (h : Balanced ts) :
    Balanced (.opening :: (ts ++ [.closing])) := fun atom depth rest => by
  have h' := h (atom ++ [.opening]) (depth + 1) (.closing :: rest)
  simp only [List.append_assoc, List.cons_append, List.nil_append] at h' ⊢
  simp [symbols, depthAfter, h']

lemma Balanced.braced {ts : List Lexeme} (h : Balanced ts) :
    Balanced (.openBrace :: (ts ++ [.closeBrace])) := fun atom depth rest => by
  have h' := h (atom ++ [.openBrace]) (depth + 1) (.closeBrace :: rest)
  simp only [List.append_assoc, List.cons_append, List.nil_append] at h' ⊢
  simp [symbols, depthAfter, h']

lemma Continues.nil : Continues [] := fun atom rest _ => by simp

lemma Continues.append {a b : List Lexeme} (ha : Continues a) (hb : Continues b) :
    Continues (a ++ b) := fun atom rest h => by
  rw [List.append_assoc, ha _ _ h, hb _ _ (by simp [h]), List.append_assoc]

/-- A word continues an atom unless it is a connective; `NOT` does continue it. -/
lemma Continues.word {chars : List Char}
    (h : keyword? (.word chars) = none ∨ keyword? (.word chars) = some .not) :
    Continues [.word chars] := fun atom rest ha => by
  have hs : symbol? atom (.word chars) = none := by
    rcases h with h | h <;> simp [symbol?, h, ha]
  simp [symbols, hs, depthAfter]

lemma Continues.enclosed {ts : List Lexeme} (h : Balanced ts) :
    Continues (.opening :: (ts ++ [.closing])) := fun atom rest ha => by
  have h' := h (atom ++ [.opening]) 0 (.closing :: rest)
  have hs : symbol? atom .opening = none := by simp [symbol?, ha]
  simp only [List.append_assoc, List.cons_append, List.nil_append] at h' ⊢
  simp [symbols, hs, depthAfter, h']

lemma Continues.braced {ts : List Lexeme} (h : Balanced ts) :
    Continues (.openBrace :: (ts ++ [.closeBrace])) := fun atom rest ha => by
  have h' := h (atom ++ [.openBrace]) 0 (.closeBrace :: rest)
  have hs : symbol? atom .openBrace = none := by simp [symbol?, keyword?]
  simp only [List.append_assoc, List.cons_append, List.nil_append] at h' ⊢
  simp [symbols, hs, depthAfter, h']

end GraphMapper.Cypher
