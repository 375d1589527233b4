import GraphMapper.Error.Basic
import Mathlib.Tactic

/-!
What the messages of an engine are taken for.

* `Text.occursIn_iff_infix`: the search finds a text that stands in another, and no other;
* `Text.infix_mark`: a text without a certain mark does not reach across one;
* `Error.mentions_quoted`: a quotation adds to a message the signs that stand in what it quotes;
* `Error.nodeExists`: what an engine writes if a node would break a constraint;
* `Error.ofEngine_refusal`: when a message of a refusal is taken for one, and when it is not.

A message is searched as a whole, and it quotes labels, properties and values that the users of the
store have chosen.
-/

namespace GraphMapper

/-! ### Search -/

namespace Text

variable {pattern text a b : List Char} {mark : Char}

/-- The search finds a text that stands in another, and no other. -/
lemma occursIn_iff_infix : occursIn pattern text ↔ pattern <:+: text := by
  induction text with
  | nil => simp [occursIn]
  | cons c rest ih =>
      rw [occursIn, Bool.or_eq_true, ih, List.isPrefixOf_iff_prefix, List.infix_cons_iff]

lemma fold_append (a b : List Char) : fold (a ++ b) = fold a ++ fold b :=
  List.flatMap_append

lemma fold_cons (c : Char) (rest : List Char) : fold (c :: rest) = lower c ++ fold rest :=
  rfl

/-- A text without the mark that begins where the mark stands is empty. -/
lemma prefix_mark (hmark : mark ∉ pattern) (h : pattern <+: mark :: b) : pattern = [] := by
  obtain rfl | ⟨rest, rfl, -⟩ := List.prefix_cons_iff.mp h
  · rfl
  · exact absurd (List.mem_cons_self) hmark

/-- A text without the mark does not reach across one. -/
lemma infix_mark (hmark : mark ∉ pattern) :
    pattern <:+: a ++ mark :: b ↔ pattern <:+: a ∨ pattern <:+: b := by
  constructor
  · intro h
    obtain hleft | hright | ⟨left, right, rfl, hleft, hright⟩ := List.infix_append_iff.mp h
    · exact .inl hleft
    · obtain hhead | htail := List.infix_cons_iff.mp hright
      · rw [prefix_mark hmark hhead]
        exact .inl (List.nil_infix)
      · exact .inr htail
    · obtain rfl := prefix_mark (fun hmem => hmark (List.mem_append_right _ hmem)) hright
      rw [List.append_nil]
      exact .inl hleft.isInfix
  · rintro (hleft | hright)
    · exact hleft.trans (List.prefix_append _ _).isInfix
    · exact hright.trans ((List.suffix_cons _ _).trans (List.suffix_append _ _)).isInfix

end Text

namespace Error

variable {signs others : List String} {mark : Char} {text : String}

/-! ### Signs -/

/-- Signs after which a second try is made. -/
def retrySigns : List String := staleSigns ++ transientSigns

/-- Signs that count before those of a constraint. -/
def earlierSigns : List String := retrySigns ++ authenticationSigns

lemma mentions_append (signs others : List String) (text : String) :
    mentions (signs ++ others) text = (mentions signs text || mentions others text) :=
  List.any_append

lemma mentions_iff : mentions signs text ↔
    ∃ sign ∈ signs, sign.toList <:+: Text.fold text.toList := by
  simp [mentions, Text.occursIn_iff_infix]

lemma mentions_mono (hsub : others ⊆ signs) (h : mentions others text) : mentions signs text := by
  obtain ⟨sign, hsign, hmet⟩ := mentions_iff.mp h
  exact mentions_iff.mpr ⟨sign, hsub hsign, hmet⟩

/-! ### Quotations -/

/-- A sign in a part of a message is one of the message. -/
lemma mentions_within {b : String} (h : mentions signs b) (a c : String) :
    mentions signs (a ++ (b ++ c)) := by
  obtain ⟨sign, hsign, hmet⟩ := mentions_iff.mp h
  refine mentions_iff.mpr ⟨sign, hsign, hmet.trans ?_⟩
  rw [String.toList_append, String.toList_append, Text.fold_append, Text.fold_append]
  exact (List.prefix_append _ _).isInfix.trans (List.suffix_append _ _).isInfix

/-- Whether neither folding nor any of the signs knows the mark. -/
def SetsApart (mark : Char) (signs : List String) : Prop :=
  Text.lower mark = [mark] ∧ ∀ sign ∈ signs, mark ∉ sign.toList

instance (mark : Char) (signs : List String) : Decidable (SetsApart mark signs) :=
  inferInstanceAs (Decidable (_ ∧ _))

lemma SetsApart.mono (h : SetsApart mark signs) (hsub : others ⊆ signs) : SetsApart mark others :=
  ⟨h.1, fun sign hsign => h.2 sign (hsub hsign)⟩

/-- Signs are met on one side of such a mark or on the other. -/
lemma mentions_mark (hmark : SetsApart mark signs) (a b : String) :
    mentions signs (a ++ String.singleton mark ++ b) ↔ mentions signs a ∨ mentions signs b := by
  have hfold : Text.fold (a ++ String.singleton mark ++ b).toList =
      Text.fold a.toList ++ mark :: Text.fold b.toList := by
    simp [Text.fold_append, Text.fold_cons, hmark.1]
  simp only [mentions_iff, hfold, ← exists_or, ← and_or_left]
  exact exists_congr fun sign => and_congr_right fun hsign => Text.infix_mark (hmark.2 sign hsign)

/-- A text between two marks. -/
def quoted (mark : Char) (text : String) : String :=
  String.singleton mark ++ text ++ String.singleton mark

/-- A quotation adds to a message the signs that stand in what it quotes. -/
lemma mentions_quoted (hmark : SetsApart mark signs) (a data b : String) :
    mentions signs (a ++ quoted mark data ++ b) ↔
      mentions signs a ∨ mentions signs data ∨ mentions signs b := by
  rw [← mentions_mark hmark data b, ← mentions_mark hmark a, quoted]
  simp only [String.append_assoc]

/-! ### A constraint that a node would break -/

/-- What an engine writes if a node would break a constraint: there is one already with the label and
with the value of the property. -/
def nodeExists (node : ℕ) (label property value : String) : String :=
  "Node(" ++ toString node ++ ") already exists with label " ++ quoted '\x60' label ++
    " and property " ++ quoted '\x60' property ++ " = " ++ quoted '\'' value

/-- Signs that have nothing to do with the wording of `nodeExists`. -/
structure Foreign (signs : List String) : Prop where
  opening : SetsApart '(' signs
  closing : SetsApart ')' signs
  name : SetsApart '\x60' signs
  literal : SetsApart '\'' signs
  wording : ∀ part ∈ ["Node", " already exists with label ", " and property ", " = ", ""],
    ¬ mentions signs part
  /-- No sign is a number. -/
  letter : ∀ sign ∈ signs, ¬ sign.toList.all Char.isDigit

lemma Foreign.mono (h : Foreign signs) (hsub : others ⊆ signs) : Foreign others where
  opening := h.opening.mono hsub
  closing := h.closing.mono hsub
  name := h.name.mono hsub
  literal := h.literal.mono hsub
  wording part hpart hmet := h.wording part hpart (mentions_mono hsub hmet)
  letter sign hsign := h.letter sign (hsub hsign)

lemma foreign_earlierSigns : Foreign earlierSigns := by
  constructor <;> decide +kernel

lemma foreign_retrySigns : Foreign retrySigns :=
  foreign_earlierSigns.mono (List.subset_append_left _ _)

lemma foreign_staleSigns : Foreign staleSigns :=
  foreign_retrySigns.mono (List.subset_append_left _ _)

lemma lower_digit {c : Char} (h : c.isDigit) : Text.lower c = [c] := by
  have hrange : 48 ≤ c.val ∧ c.val ≤ 57 := by simpa [Char.isDigit] using h
  have hbelow : c.toNat ≤ 57 := hrange.2
  have hcapital : ¬ ('A' ≤ c ∧ c ≤ 'Z') := fun hc => by
    have : 65 ≤ c.toNat := hc.1
    omega
  rw [Text.lower, if_neg hcapital, if_neg (by omega), if_neg (by omega)]

/-- No sign with a letter stands in a number. -/
lemma not_mentions_number (hletter : ∀ sign ∈ signs, ¬ sign.toList.all Char.isDigit) (n : ℕ) :
    ¬ mentions signs (toString n) := by
  have hdigits : ∀ c ∈ (toString n).toList, c.isDigit := by
    simpa using fun c => Nat.isDigit_of_mem_toDigits (by decide) (by decide)
  have hfold : Text.fold (toString n).toList = (toString n).toList := by
    rw [Text.fold, List.flatMap_congr fun c hc => lower_digit (hdigits c hc)]
    exact List.flatMap_singleton' _
  rw [mentions_iff, hfold]
  rintro ⟨sign, hsign, hmet⟩
  exact hletter sign hsign (List.all_eq_true.mpr fun c hc => hdigits c (hmet.subset hc))

/-- Such signs are met in the message exactly when they are met in what it quotes. -/
lemma mentions_nodeExists (h : Foreign signs) (node : ℕ) (label property value : String) :
    mentions signs (nodeExists node label property value) ↔
      mentions signs label ∨ mentions signs property ∨ mentions signs value := by
  have hhead : ¬ mentions signs ("Node(" ++ toString node ++ ") already exists with label ") := by
    have hparts : "Node(" ++ toString node ++ ") already exists with label " =
        "Node" ++ String.singleton '(' ++
          (toString node ++ String.singleton ')' ++ " already exists with label ") := by
      rw [show "Node(" = "Node" ++ String.singleton '(' by decide,
        show ") already exists with label " =
          String.singleton ')' ++ " already exists with label " by decide]
      simp only [String.append_assoc]
    rw [hparts, mentions_mark h.opening, mentions_mark h.closing]
    rintro (hnode | hnumber | hrest)
    · exact h.wording _ (by decide) hnode
    · exact not_mentions_number h.letter node hnumber
    · exact h.wording _ (by decide) hrest
  have hand := h.wording " and property " (by decide)
  have hequals := h.wording " = " (by decide)
  have hend := h.wording "" (by decide)
  rw [nodeExists, ← @String.append_empty (quoted '\'' value), ← String.append_assoc,
    mentions_quoted h.literal, mentions_quoted h.name, mentions_quoted h.name]
  simp only [hhead, hand, hequals, hend, Bool.false_eq_true, false_or, or_false, or_assoc]

/-- The message always speaks of a constraint. -/
lemma mentions_constraint_nodeExists (node : ℕ) (label property value : String) :
    mentions constraintSigns (nodeExists node label property value) := by
  have hwording : mentions constraintSigns ") already exists with label " := by decide
  simpa only [nodeExists, String.append_assoc] using
    mentions_within hwording ("Node(" ++ toString node)
      (quoted '\x60' label ++ (" and property " ++
        (quoted '\x60' property ++ (" = " ++ quoted '\'' value))))

/-! ### Refusals -/

lemma isRetryable_ofEngine (text : String) :
    (ofEngine text).isRetryable = mentions retrySigns text := by
  rw [ofEngine, isStaleMessage, retrySigns, mentions_append]
  split_ifs <;> simp_all [isRetryable, classify]

lemma isStale_ofEngine (text : String) : (ofEngine text).isStale = mentions staleSigns text := by
  rw [ofEngine]
  split_ifs <;> simp_all [isStale, isStaleMessage]

lemma ofEngine_authentication_iff (text : String) : ofEngine text = .authentication text ↔
    mentions authenticationSigns text ∧ ¬ mentions retrySigns text := by
  rw [ofEngine, isStaleMessage, retrySigns, mentions_append]
  split_ifs <;> simp_all

lemma ofEngine_constraint_iff (text : String) :
    (∃ entity value, ofEngine text = .constraint entity value text) ↔
      mentions constraintSigns text ∧ ¬ mentions earlierSigns text := by
  rw [ofEngine, isStaleMessage, earlierSigns, retrySigns, mentions_append, mentions_append]
  split_ifs <;> simp_all

/-- The quotation marks that an engine uses. -/
def quotationMarks : List Char := ['\x60', '\'', '"']

lemma setsApart_earlierSigns : ∀ mark ∈ quotationMarks, SetsApart mark earlierSigns := by
  rw [quotationMarks, List.forall_mem_cons, List.forall_mem_cons, List.forall_mem_singleton]
  exact ⟨foreign_earlierSigns.name, foreign_earlierSigns.literal, by decide +kernel⟩

/-- **What is taken for a refusal.**  A message with a sign of refused credentials, or of a constraint,
is taken for that exactly when no sign that counts before is met anywhere in it; the work is tried again
when there is a sign of staleness or of a transient failure, with a new session when it is one of
staleness.  What a message quotes is searched like the rest of it.  So the refusal of a node, whatever
its label, property and value, is taken for one of a constraint as long as none of the three has such a
sign, and otherwise for what the user's data says. -/
theorem ofEngine_refusal (text : String) :
    (ofEngine text = .authentication text ↔
      mentions authenticationSigns text ∧ ¬ mentions retrySigns text) ∧
    ((∃ entity value, ofEngine text = .constraint entity value text) ↔
      mentions constraintSigns text ∧ ¬ mentions earlierSigns text) ∧
    ((ofEngine text).isRetryable ↔ mentions retrySigns text) ∧
    ((ofEngine text).isStale ↔ mentions staleSigns text) ∧
    (∀ mark ∈ quotationMarks, ∀ a data b, text = a ++ quoted mark data ++ b →
      (mentions earlierSigns text ↔
        mentions earlierSigns a ∨ mentions earlierSigns data ∨ mentions earlierSigns b)) ∧
    ∀ node label property value, text = nodeExists node label property value →
      ((∃ entity found, ofEngine text = .constraint entity found text) ↔
        ∀ data ∈ [label, property, value], ¬ mentions earlierSigns data) ∧
      ((ofEngine text).isRetryable ↔ ∃ data ∈ [label, property, value], mentions retrySigns data) ∧
      ((ofEngine text).isStale ↔ ∃ data ∈ [label, property, value], mentions staleSigns data) := by
  refine ⟨ofEngine_authentication_iff text, ofEngine_constraint_iff text,
    by rw [isRetryable_ofEngine], by rw [isStale_ofEngine], ?_, ?_⟩
  · rintro mark hmark a data b rfl
    exact mentions_quoted (setsApart_earlierSigns mark hmark) a data b
  · rintro node label property value rfl
    refine ⟨?_, ?_, ?_⟩
    · rw [ofEngine_constraint_iff, mentions_nodeExists foreign_earlierSigns]
      simp [mentions_constraint_nodeExists]
    · rw [isRetryable_ofEngine, mentions_nodeExists foreign_retrySigns]
      simp
    · rw [isStale_ofEngine, mentions_nodeExists foreign_staleSigns]
      simp

/-- The refusal of a second node with an address. -/
theorem ofEngine_refusal_address :
    (∃ entity value, ofEngine (nodeExists 4 "User" "email" "ada@example.org") =
      .constraint entity value (nodeExists 4 "User" "email" "ada@example.org")) ∧
    ¬ (ofEngine (nodeExists 4 "User" "email" "ada@example.org")).isRetryable := by
  obtain ⟨-, -, -, -, -, hnode⟩ := ofEngine_refusal (nodeExists 4 "User" "email" "ada@example.org")
  obtain ⟨hconstraint, hretryable, -⟩ := hnode 4 "User" "email" "ada@example.org" rfl
  exact ⟨hconstraint.mpr (by decide), fun h => absurd (hretryable.mp h) (by decide)⟩

/-- The value that a constraint refuses decides what the refusal is taken for: a status of `stale` makes
it the failure of a session, which is replaced, and the write is tried again. -/
theorem refused_value_decides : ¬ ∀ text, mentions constraintSigns text →
    (∃ entity value, ofEngine text = .constraint entity value text) ∧
      ¬ (ofEngine text).isRetryable ∧ ¬ (ofEngine text).isStale := by
  intro h
  have hretry : mentions retrySigns (nodeExists 4 "User" "status" "stale") :=
    (mentions_nodeExists foreign_retrySigns 4 "User" "status" "stale").mpr (by decide)
  obtain ⟨-, hnot, -⟩ := h _ (mentions_constraint_nodeExists 4 "User" "status" "stale")
  exact hnot (by rwa [isRetryable_ofEngine])

end Error

end GraphMapper
