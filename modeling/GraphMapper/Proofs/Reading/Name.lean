import GraphMapper.Proofs.Reading.Lexeme

/-!
Names, read back from query text.

* `Name.isFirst`, `Name.isLater`, `Name.Plain`: the characters of plain names, and plain names;
* `Name.read?`: a name at the beginning of a text, with what stands after it; a plain one goes on as
  far as it can, and one between backticks ends at the first backtick that is not doubled;
* `Property.read?`: a variable, a dot and the name of a property;
* `Name.Stops`: what may follow a name;
* `Name.read_quoteChars`: the written form of a name is read as that name, whatever the name;
* `ofColumn_of_spelled`, `ofColumn_of_not_spelled`: the property that a column names;
* `names_read_back`: names and properties are read back from their written forms.
-/

namespace GraphMapper.Cypher

/-! ### Reading -/

namespace Name

/-- Letters and the underscore: what a plain name starts with. -/
def isFirst (c : Char) : Bool :=
  ('A' ≤ c && c ≤ 'Z') || ('a' ≤ c && c ≤ 'z') || c = '_'

/-- Letters, digits and the underscore: what a plain name goes on with. -/
def isLater (c : Char) : Bool :=
  isFirst c || ('0' ≤ c && c ≤ '9')

/-- A name that needs no quotes. -/
def Plain (name : List Char) : Prop :=
  ∃ c rest, name = c :: rest ∧ isFirst c ∧ ∀ d ∈ rest, isLater d

/-- Reads on inside backticks, up to the backtick that ends the name.  A doubled backtick stands for
one. -/
def readQuoted? : List Char → Option (List Char × List Char)
  | [] => none
  | c :: rest =>
    if c = '`' then
      match rest with
      | '`' :: later => (readQuoted? later).map fun (name, after) => ('`' :: name, after)
      | after => some ([], after)
    else (readQuoted? rest).map fun (name, after) => (c :: name, after)

/-- Reads a name, and gives what stands after it. -/
def read? : List Char → Option (List Char × List Char)
  | [] => none
  | c :: rest =>
    if c = '`' then readQuoted? rest
    else if isFirst c then some (c :: rest.takeWhile isLater, rest.dropWhile isLater)
    else none

/-- A text that continues no name: it starts with no backtick, letter, digit or underscore. -/
def Stops (text : List Char) : Prop :=
  ∀ c ∈ text.head?, c ≠ '`' ∧ isLater c = false

end Name

/-- Reads a variable, a dot and a name, and gives what stands after them. -/
def Property.read? (text : List Char) : Option ((List Char × List Char) × List Char) :=
  match Name.read? text with
  | some (owner, '.' :: rest) => (Name.read? rest).map fun (name, after) => ((owner, name), after)
  | _ => none

/-- A column that names a variable itself, with a property of it. -/
def Spells (column : String) (owner name : List Char) : Prop :=
  Name.Plain owner ∧ name ≠ [] ∧ column.toList = owner ++ '.' :: name

/-! ### Names -/

namespace Name

lemma isFirst_eq (c : Char) : isFirst c = Identifier.isStart c := by
  rw [Bool.eq_iff_iff, isFirst, Identifier.isStart]
  delta Char.isAlpha Char.isUpper Char.isLower
  simp [Char.le_def]

lemma isLater_eq (c : Char) : isLater c = Identifier.isPart c := by
  rw [isLater, isFirst_eq, Bool.eq_iff_iff, Identifier.isStart, Identifier.isPart, Char.isAlphanum]
  delta Char.isDigit
  simp [Char.le_def]
  tauto

lemma plain_iff {name : List Char} : Plain name ↔ Identifier.isPlain name = true := by
  cases name with
  | nil => simp [Plain, Identifier.isPlain]
  | cons c rest =>
      simp only [Plain, List.cons.injEq, Identifier.isPlain, Bool.and_eq_true, List.all_eq_true,
        isFirst_eq, isLater_eq]
      constructor
      · rintro ⟨d, later, ⟨rfl, rfl⟩, hd, hlater⟩
        exact ⟨hd, hlater⟩
      · rintro ⟨hc, hrest⟩
        exact ⟨c, rest, ⟨rfl, rfl⟩, hc, hrest⟩

/-- The inside of a quoted name ends at the last backtick. -/
lemma readQuoted_doubled {rest : List Char} (h : Stops rest) (name : List Char) :
    readQuoted? (Identifier.doubled name ++ '`' :: rest) = some (name, rest) := by
  induction name with
  | nil =>
      cases rest with
      | nil => rfl
      | cons c rest =>
          have hc : c ≠ '`' := (h c rfl).1
          simp [Identifier.doubled, readQuoted?, hc]
  | cons c name ih =>
      rw [Identifier.doubled, List.flatMap_cons, ← Identifier.doubled]
      by_cases hc : c = '`'
      · simp [hc, readQuoted?, ih]
      · rw [if_neg hc, List.singleton_append, List.cons_append, readQuoted?.eq_def]
        simp [hc, ih]

/-- A plain name ends where no name goes on. -/
lemma read_plain {name rest : List Char} (hn : Plain name) (h : Stops rest) :
    read? (name ++ rest) = some (name, rest) := by
  obtain ⟨c, later, rfl, hc, hlater⟩ := hn
  have htick : c ≠ '`' := by
    rintro rfl
    exact absurd hc (by decide)
  have hstop : rest.takeWhile isLater = [] ∧ rest.dropWhile isLater = rest := by
    cases rest with
    | nil => exact ⟨rfl, rfl⟩
    | cons d rest => simp [(h d rfl).2]
  rw [List.cons_append, read?, if_neg htick, if_pos hc, List.takeWhile_append_of_pos hlater,
    List.dropWhile_append_of_pos hlater, hstop.1, hstop.2, List.append_nil]

/-- The written form of a name is read as that name, up to where it ends. -/
theorem read_quoteChars {rest : List Char} (h : Stops rest) (name : List Char) :
    read? (Identifier.quoteChars name ++ rest) = some (name, rest) := by
  rw [Identifier.quoteChars]
  split_ifs with hplain
  · exact read_plain (plain_iff.mpr hplain) h
  · have htext : '`' :: Identifier.doubled name ++ ['`'] ++ rest =
        '`' :: (Identifier.doubled name ++ '`' :: rest) := by simp
    rw [htext, read?, if_pos rfl]
    exact readQuoted_doubled h name

lemma stops_cons {c : Char} (hc : c ≠ '`') (hlater : isLater c = false) (rest : List Char) :
    Stops (c :: rest) := by
  rintro d ⟨⟩
  exact ⟨hc, hlater⟩

end Name

/-! ### Properties -/

lemma Name.Plain.dot_notMem {name : List Char} (h : Name.Plain name) : '.' ∉ name := by
  obtain ⟨c, rest, rfl, hc, hrest⟩ := h
  intro hm
  rcases List.mem_cons.mp hm with rfl | hm
  · exact absurd hc (by decide)
  · exact absurd (hrest _ hm) (by decide)

/-- A column of this form is a property of the variable that it names. -/
lemma ofColumn_of_spelled {column : String} {owner name : List Char} (h : Spells column owner name)
    (binder : String) :
    Property.ofColumn binder column = ⟨String.ofList owner, String.ofList name⟩ := by
  obtain ⟨hplain, hne, hcolumn⟩ := h
  have hdots : ∀ c ∈ owner, decide (c ≠ '.') = true := fun c hc =>
    decide_eq_true fun he => hplain.dot_notMem (he ▸ hc)
  obtain ⟨c, rest, rfl⟩ := List.exists_cons_of_ne_nil hne
  have hhead : column.toList.takeWhile (· ≠ '.') = owner := by
    rw [hcolumn, List.takeWhile_append_of_pos hdots]
    simp
  have htail : column.toList.dropWhile (· ≠ '.') = '.' :: c :: rest := by
    rw [hcolumn, List.dropWhile_append_of_pos hdots]
    simp
  rw [Property.ofColumn]
  simp only [hhead, htail, if_pos (Name.plain_iff.mp hplain)]

/-- Every other column is the name of a property as a whole. -/
lemma ofColumn_of_not_spelled {column : String} (h : ¬ ∃ owner name, Spells column owner name)
    (binder : String) : Property.ofColumn binder column = ⟨binder, column⟩ := by
  rw [Property.ofColumn]
  split
  · rename_i dot c rest htail
    split_ifs with hplain
    · have hdot : dot = '.' := by
        have hne : column.toList.dropWhile (· ≠ '.') ≠ [] := htail ▸ List.cons_ne_nil _ _
        have hhead := List.head_dropWhile_not (· ≠ '.') hne
        simp only [htail, List.head_cons, decide_eq_false_iff_not, not_not] at hhead
        exact hhead
      refine absurd ⟨_, c :: rest, Name.plain_iff.mpr hplain, List.cons_ne_nil _ _, ?_⟩ h
      calc column.toList
          = column.toList.takeWhile (· ≠ '.') ++ column.toList.dropWhile (· ≠ '.') :=
            List.takeWhile_append_dropWhile.symm
        _ = column.toList.takeWhile (· ≠ '.') ++ '.' :: c :: rest := by rw [htail, hdot]
    · rfl
  · rfl

/-- The written form of a property of a plain variable is read as that variable and the name. -/
lemma Property.read_text {p : Property} (hp : Name.Plain p.owner.toList) {rest : List Char}
    (h : Name.Stops rest) :
    Property.read? (p.text.toList ++ rest) = some ((p.owner.toList, p.name.toList), rest) := by
  have htext : p.text.toList ++ rest =
      p.owner.toList ++ '.' :: (Identifier.quoteChars p.name.toList ++ rest) := by
    simp [Property.text, Identifier.quote]
  rw [htext, Property.read?, Name.read_plain hp (Name.stops_cons (by decide) (by decide) _)]
  simp only [Name.read_quoteChars h, Option.map_some]

/-! ### Reading back -/

/-- **No name leaves its place in the text.**  Before a text that continues no name, the written form
of any name is read as just that name, and reading ends where the text begins; so different names are
written differently.  The written form of a column of a plain variable is read as a variable, a dot
and a name: those that the column spells out itself, and otherwise the given variable and the whole
column. -/
theorem names_read_back {rest : List Char} (h : Name.Stops rest) :
    (∀ name : String,
      Name.read? ((Identifier.quote name).toList ++ rest) = some (name.toList, rest)) ∧
    Function.Injective Identifier.quote ∧
    ∀ binder column : String, Name.Plain binder.toList →
      (∀ owner name, Spells column owner name →
        Property.read? ((Property.ofColumn binder column).text.toList ++ rest) =
          some ((owner, name), rest)) ∧
      ((¬ ∃ owner name, Spells column owner name) →
        Property.read? ((Property.ofColumn binder column).text.toList ++ rest) =
          some ((binder.toList, column.toList), rest)) := by
  have hread (name : String) (after : List Char) (ha : Name.Stops after) :
      Name.read? ((Identifier.quote name).toList ++ after) = some (name.toList, after) := by
    rw [Identifier.quote, String.toList_ofList]
    exact Name.read_quoteChars ha _
  refine ⟨fun name => hread name rest h, fun name other heq => ?_, fun binder column hb => ⟨?_, ?_⟩⟩
  · have hname := hread name [] (by simp [Name.Stops])
    have hother := hread other [] (by simp [Name.Stops])
    rw [heq, hother] at hname
    exact (String.toList_inj.mp (Prod.mk.inj (Option.some.inj hname)).1).symm
  · intro owner name hs
    have hp : Name.Plain (Property.mk (String.ofList owner) (String.ofList name)).owner.toList := by
      simpa using hs.1
    rw [ofColumn_of_spelled hs, Property.read_text hp h]
    simp
  · intro hs
    rw [ofColumn_of_not_spelled hs]
    exact Property.read_text (p := ⟨binder, column⟩) hb h

/-- Before a blank, a name of backticks and dots is read as itself, and a column of the variable
`pivot` as a property of `pivot`. -/
theorem names_read_back_backticks :
    Name.read? ((Identifier.quote "`.`` n.a").toList ++ [' ', '=']) =
        some ("`.`` n.a".toList, [' ', '=']) ∧
      Property.read? ((Property.ofColumn "n" "pivot.``").text.toList ++ [' ', '=']) =
        some (("pivot".toList, "``".toList), [' ', '=']) ∧
      Property.read? ((Property.ofColumn "n" "a b.c").text.toList ++ [' ', '=']) =
        some (("n".toList, "a b.c".toList), [' ', '=']) := by
  have h : Name.Stops [' ', '='] := Name.stops_cons (by decide) (by decide) ['=']
  have hbinder : Name.Plain "n".toList := Name.plain_iff.mpr (by decide)
  have hspells : Spells "pivot.``" "pivot".toList "``".toList :=
    ⟨Name.plain_iff.mpr (by decide), by decide, by decide⟩
  have hnone : ¬ ∃ owner name, Spells "a b.c" owner name := by
    rintro ⟨owner, name, hs⟩
    have hsame := (ofColumn_of_spelled hs "").symm
    have : Property.ofColumn "" "a b.c" = ⟨"", "a b.c"⟩ := by decide +kernel
    rw [this] at hsame
    obtain ⟨c, later, rfl, -⟩ := hs.1
    simpa using congrArg (fun p => p.owner.toList) hsame
  obtain ⟨hname, -, hcolumn⟩ := names_read_back h
  exact ⟨hname _, (hcolumn "n" "pivot.``" hbinder).1 _ _ hspells,
    (hcolumn "n" "a b.c" hbinder).2 hnone⟩

end GraphMapper.Cypher
