import GraphMapper.Proofs.Parameter.Calls

/-!
Text written by hand: which question marks are marks, and what is put in their places.

* `Raw.Inside`, `Raw.Outside`: what stands between two quotes, and texts that end outside of quotes;
* `Raw.Marked`, `Raw.marks`: the marks of a text are its question marks outside of quotes;
* `Raw.substituted`: a text with a parameter in the place of each mark;
* `Raw.getElem?_places`: the places that are found from left to right are the marks;
* `Raw.fill_eq_ok`, `Raw.text_written`: what comes of filling places;
* `compileRaw_substitutes`: a text is compiled just if it has a value for each mark, and then it is
  the text with the parameters of these values in the places of its marks.
-/

namespace GraphMapper

open Cypher (Expr Piece)

namespace Raw

/-! ### Marks -/

/-- Whether a character opens a string. -/
def IsQuote (c : Char) : Prop :=
  c = '\'' ∨ c = '"'

/-- What may stand between two quotes of a kind: anything but such a quote, save after a backslash.
A backslash takes the next character with it. -/
inductive Inside (q : Char) : List Char → Prop where
  | nil : Inside q []
  | char {c : Char} {body : List Char} (hq : c ≠ q) (hb : c ≠ '\\') (h : Inside q body) :
      Inside q (c :: body)
  | escaped {c : Char} {body : List Char} (h : Inside q body) : Inside q ('\\' :: c :: body)

/-- A text that ends outside of strings: each string that it opens is closed in it. -/
inductive Outside : List Char → Prop where
  | nil : Outside []
  | char {c : Char} {text : List Char} (hc : ¬ IsQuote c) (h : Outside text) : Outside (c :: text)
  | string {q : Char} {body text : List Char} (hq : IsQuote q) (hb : Inside q body)
      (h : Outside text) : Outside (q :: (body ++ q :: text))

/-- A mark: a question mark outside of strings. -/
def Marked (text : List Char) (i : ℕ) : Prop :=
  text[i]? = some '?' ∧ Outside (text.take i)

open scoped Classical in
/-- The places of the marks, from left to right. -/
noncomputable def marks (text : List Char) : List ℕ :=
  (List.range text.length).filter fun i => Marked text i

open scoped Classical in
/-- A text with parameters in the places of its marks, numbered from `first` on, and with every other
character as it is. -/
noncomputable def substituted (first : ℕ) (text : List Char) : List Char :=
  text.zipIdx.flatMap fun (c, i) =>
    if Marked text i then
      '$' :: (Bindings.parameterName (first + (marks text).idxOf i)).toList
    else [c]

/-! ### Strings -/

/-- A text that closes the string in which it begins, and every string that it opens. -/
def Closes (q : Char) (text : List Char) : Prop :=
  ∃ body later, text = body ++ q :: later ∧ Inside q body ∧ Outside later

lemma IsQuote.ne_backslash {q : Char} (h : IsQuote q) : q ≠ '\\' := by
  rcases h with rfl | rfl <;> decide

lemma IsQuote.ne_mark {q : Char} (h : IsQuote q) : q ≠ '?' := by
  rcases h with rfl | rfl <;> decide

lemma outside_cons {c : Char} (hc : ¬ IsQuote c) {text : List Char} :
    Outside (c :: text) ↔ Outside text := by
  constructor
  · intro h
    cases h with
    | char _ h => exact h
    | string hq => exact absurd hq hc
  · exact .char hc

lemma outside_quote {q : Char} (hq : IsQuote q) {text : List Char} :
    Outside (q :: text) ↔ Closes q text := by
  constructor
  · intro h
    cases h with
    | char hc => exact absurd hq hc
    | string _ hb h => exact ⟨_, _, rfl, hb, h⟩
  · rintro ⟨body, later, rfl, hb, h⟩
    exact .string hq hb h

lemma not_closes_nil (q : Char) : ¬ Closes q [] := by
  rintro ⟨body, later, h, -⟩
  simp at h

lemma closes_quote {q : Char} (hq : IsQuote q) {text : List Char} :
    Closes q (q :: text) ↔ Outside text := by
  constructor
  · rintro ⟨body, later, heq, hb, h⟩
    cases hb with
    | nil => exact (List.cons.inj heq).2 ▸ h
    | char hne => exact absurd (List.cons.inj heq).1.symm hne
    | escaped => exact absurd (List.cons.inj heq).1 hq.ne_backslash
  · exact fun h => ⟨[], text, rfl, .nil, h⟩

lemma closes_cons {q c : Char} (hne : c ≠ q) (hc : c ≠ '\\') {text : List Char} :
    Closes q (c :: text) ↔ Closes q text := by
  constructor
  · rintro ⟨body, later, heq, hb, h⟩
    cases hb with
    | nil => exact absurd (List.cons.inj heq).1 hne
    | char _ _ hb => exact ⟨_, later, (List.cons.inj heq).2, hb, h⟩
    | escaped => exact absurd (List.cons.inj heq).1 hc
  · rintro ⟨body, later, rfl, hb, h⟩
    exact ⟨c :: body, later, rfl, hb.char hne hc, h⟩

lemma closes_escaped {q : Char} (hq : IsQuote q) {c : Char} {text : List Char} :
    Closes q ('\\' :: c :: text) ↔ Closes q text := by
  constructor
  · rintro ⟨body, later, heq, hb, h⟩
    cases hb with
    | nil => exact absurd (List.cons.inj heq).1.symm hq.ne_backslash
    | char _ hne => exact absurd (List.cons.inj heq).1.symm hne
    | escaped hb =>
        have htext := (List.cons.inj (List.cons.inj heq).2).2
        exact ⟨_, later, htext, hb, h⟩
  · rintro ⟨body, later, rfl, hb, h⟩
    exact ⟨'\\' :: c :: body, later, rfl, hb.escaped, h⟩

lemma not_closes_backslash {q : Char} (hq : IsQuote q) : ¬ Closes q ['\\'] := by
  rintro ⟨body, later, heq, hb, h⟩
  cases hb with
  | nil => exact hq.ne_backslash (List.cons.inj heq).1.symm
  | char _ hne => exact hne (List.cons.inj heq).1.symm
  | escaped => simp at heq

/-- A text, read from outside of strings or from within one, that ends outside of them. -/
def OutsideFrom : Option Char → List Char → Prop
  | none, text => Outside text
  | some q, text => Closes q text

/-! ### Places -/

open scoped Classical in
/-- What becomes of a character, by what stands before it. -/
noncomputable def placeOf (quote : Option Char) (before : List Char) (c : Char) : Option Char :=
  if c = '?' ∧ OutsideFrom quote before then none else some c

lemma placeOf_congr {quote quote' : Option Char} {before before' : List Char}
    (h : OutsideFrom quote before ↔ OutsideFrom quote' before') :
    placeOf quote before = placeOf quote' before' := by
  funext c
  rw [placeOf, placeOf, h]

lemma placeOf_of_not {quote : Option Char} {before : List Char} {c : Char}
    (h : ¬ (c = '?' ∧ OutsideFrom quote before)) : placeOf quote before c = some c :=
  if_neg h

/-- The places behind one more character that stays. -/
lemma getElem?_cons_places (quote quote' : Option Char) {c : Char} {text : List Char}
    {places : List (Option Char)} (hfirst : ¬ (c = '?' ∧ OutsideFrom quote []))
    (hlater : ∀ before, OutsideFrom quote (c :: before) ↔ OutsideFrom quote' before)
    (ih : ∀ i : ℕ, places[i]? = text[i]?.map (placeOf quote' (text.take i))) (i : ℕ) :
    (some c :: places)[i]? = (c :: text)[i]?.map (placeOf quote ((c :: text).take i)) := by
  cases i with
  | zero => simp [placeOf_of_not hfirst]
  | succ i => simp [ih, placeOf_congr (hlater (text.take i))]

/-- The places that are found from left to right are those that what stands before them decides. -/
theorem getElem?_places (text : List Char) {quote : Option Char} (hq : ∀ q ∈ quote, IsQuote q)
    (i : ℕ) :
    (places quote text)[i]? = text[i]?.map (placeOf quote (text.take i)) := by
  fun_induction places quote text generalizing i with
  | case1 => simp
  | case2 rest ih =>
      cases i with
      | zero => simp [placeOf, OutsideFrom, Outside.nil]
      | succ i =>
          have hmark : ¬ IsQuote '?' := fun h => h.ne_mark rfl
          have hlater : OutsideFrom none ('?' :: rest.take i) ↔ OutsideFrom none (rest.take i) :=
            outside_cons hmark
          simp [ih hq, placeOf_congr hlater]
  | case3 c rest hne hc ih =>
      exact getElem?_cons_places none (some c) (fun h => hne h.1) (fun before => outside_quote hc)
        (ih fun q hm => Option.mem_some.mp hm ▸ hc) i
  | case4 c rest hne hc ih =>
      exact getElem?_cons_places none none (fun h => hne h.1) (fun before => outside_cons hc) (ih hq) i
  | case5 q =>
      cases i with
      | zero => simp [placeOf]
      | succ i => simp
  | case6 q next later ih =>
      have hquote : IsQuote q := hq q rfl
      rcases i with _ | _ | i
      · simp [placeOf]
      · simp [placeOf, OutsideFrom, not_closes_backslash hquote]
      · have hlater : OutsideFrom (some q) ('\\' :: next :: later.take i) ↔
            OutsideFrom (some q) (later.take i) := closes_escaped hquote
        simp [ih hq, placeOf_congr hlater]
  | case7 rest q hne ih =>
      have hquote : IsQuote q := hq q rfl
      exact getElem?_cons_places (some q) none (fun h => hquote.ne_mark h.1)
        (fun before => closes_quote hquote) (ih (by simp)) i
  | case8 c rest q hb hne ih =>
      exact getElem?_cons_places (some q) (some q) (fun h => not_closes_nil q h.2)
        (fun before => closes_cons hne hb) (ih hq) i

/-! ### Marks in order -/

lemma getElem?_places_none (text : List Char) (i : ℕ) :
    (places none text)[i]? = some none ↔ Marked text i := by
  rw [getElem?_places text (by simp) i, Marked]
  cases text[i]? with
  | none => simp
  | some c =>
      rw [Option.map_some, Option.some.injEq, Option.some.injEq, placeOf]
      split_ifs with h <;> simpa [OutsideFrom] using h

lemma length_places (quote : Option Char) (text : List Char) :
    (places quote text).length = text.length := by
  fun_induction places quote text <;> simp_all

open scoped Classical in
/-- The marks before a place are as many as the empty places there. -/
lemma length_filter_marked (text : List Char) {i : ℕ} (hi : i ≤ text.length) :
    ((List.range i).filter fun j => Marked text j).length =
      ((places none text).take i).count none := by
  induction i with
  | zero => simp
  | succ i ih =>
      have hlt : i < (places none text).length := by rw [length_places]; omega
      have hmark := getElem?_places_none text i
      rw [List.getElem?_eq_getElem hlt, Option.some.injEq] at hmark
      rw [List.range_succ, List.filter_append, List.length_append, ih (by omega),
        List.take_succ_eq_append_getElem hlt, List.count_append]
      by_cases h : Marked text i
      · simp [h, hmark.mpr h]
      · have hne : (places none text)[i] ≠ none := fun he => h (hmark.mp he)
        simp [h, hne]

lemma length_marks (text : List Char) : (marks text).length = (places none text).count none := by
  rw [marks, length_filter_marked text le_rfl, ← length_places, List.take_length]

/-- The number of a mark is that of the empty places before it. -/
lemma idxOf_marks {text : List Char} {i : ℕ} (h : Marked text i) :
    (marks text).idxOf i = ((places none text).take i).count none := by
  have hi : i < text.length := (List.getElem?_eq_some_iff.mp h.1).1
  obtain ⟨more, hmore⟩ := Nat.exists_eq_add_of_lt hi
  have hrange : List.range text.length =
      List.range i ++ i :: (List.range more).map (i + 1 + ·) := by
    rw [hmore, Nat.add_right_comm, List.range_add, List.range_succ]
    simp
  rw [marks, hrange, List.filter_append, List.filter_cons_of_pos (by simpa using h),
    List.idxOf_append_of_notMem (by simp), List.idxOf_cons_self, Nat.add_zero,
    length_filter_marked text hi.le]

/-! ### Filling places -/

/-- Places with parameters in the empty ones, numbered from `first` on. -/
def written (first : ℕ) : List (Option Char) → List Piece
  | [] => []
  | some c :: rest => .char c :: written first rest
  | none :: rest => .parameter (Bindings.parameterName first) :: written (first + 1) rest

/-- Places are filled just if there is a value for each empty one; the values are bound in order, and
nothing else is. -/
lemma fill_eq_ok {text : String} {supplied : ℕ} {places : List (Option Char)} {values : List Value}
    {b after : Bindings} {pieces : List Piece} :
    (fill text supplied places values).on b = (.ok pieces, after) ↔
      places.count none = values.length ∧ pieces = written b.values.length places ∧
        after = { b with values := b.values ++ values } := by
  induction places generalizing values b after pieces with
  | nil =>
      cases values with
      | nil =>
          rw [fill, Compiling.on_pure, Prod.mk.injEq, Except.ok.injEq]
          constructor
          · rintro ⟨rfl, rfl⟩
            simp [written]
          · rintro ⟨-, rfl, rfl⟩
            simp [written]
      | cons v rest => simp [fill]
  | cons place rest ih =>
      cases place with
      | some c =>
          rw [fill, Compiling.on_bind_eq_ok]
          simp only [ih, Compiling.on_pure, Prod.mk.injEq, Except.ok.injEq]
          constructor
          · rintro ⟨_, _, ⟨hcount, rfl, rfl⟩, rfl, rfl⟩
            exact ⟨by simpa using hcount, rfl, rfl⟩
          · rintro ⟨hcount, rfl, rfl⟩
            exact ⟨_, _, ⟨by simpa using hcount, rfl, rfl⟩, rfl, rfl⟩
      | none =>
          cases values with
          | nil => simp [fill]
          | cons v values =>
              have hbound : (b.values ++ [v]).length = b.values.length + 1 := by simp
              rw [fill, Compiling.on_bind_eq_ok]
              simp only [Compiling.on_lift, Compiling.bind_value, Prod.mk.injEq, Except.ok.injEq,
                Compiling.on_bind_eq_ok, ih, Compiling.on_pure]
              constructor
              · rintro ⟨_, _, ⟨rfl, rfl⟩, _, _, ⟨hcount, rfl, rfl⟩, rfl, rfl⟩
                refine ⟨by simpa using hcount, ?_, by simp⟩
                rw [written, hbound]
              · rintro ⟨hcount, rfl, rfl⟩
                refine ⟨_, _, ⟨rfl, rfl⟩, _, _, ⟨by simpa using hcount, rfl, rfl⟩, ?_, by simp⟩
                rw [written, hbound]

/-- The text of filled places: the parameter in an empty place is numbered by the empty places before
it. -/
lemma text_written (first : ℕ) (places : List (Option Char)) :
    (String.join ((written first places).map Piece.text)).toList =
      places.zipIdx.flatMap fun (place, i) =>
        match place with
        | none => '$' :: (Bindings.parameterName (first + (places.take i).count none)).toList
        | some c => [c] := by
  induction places generalizing first with
  | nil => simp [written]
  | cons place rest ih =>
      rw [List.zipIdx_cons, Nat.zero_add, List.zipIdx_succ, List.flatMap_cons, List.flatMap_map]
      cases place with
      | some c =>
          rw [written, List.map_cons, String.join_cons, String.toList_append, ih]
          simp [Piece.text]
      | none =>
          rw [written, List.map_cons, String.join_cons, String.toList_append, ih]
          simp [Piece.text, Nat.add_assoc, Nat.add_comm 1]

/-- A text whose places are filled is the text with parameters in the places of its marks. -/
lemma text_written_places (first : ℕ) (text : List Char) :
    (String.join ((written first (places none text)).map Piece.text)).toList =
      substituted first text := by
  classical
  have hplaces : (places none text).zipIdx =
      text.zipIdx.map fun (c, i) => (if Marked text i then none else some c, i) := by
    refine List.ext_getElem? fun i => ?_
    rw [List.getElem?_zipIdx, List.getElem?_map, List.getElem?_zipIdx,
      getElem?_places text (by simp) i, Option.map_map, Option.map_map]
    refine Option.map_congr fun c hc => congrArg (·, 0 + i) (if_congr ?_ rfl rfl)
    simp [OutsideFrom, Marked, hc]
  rw [text_written, hplaces, List.flatMap_map, substituted]
  refine List.flatMap_congr fun ⟨c, i⟩ _ => ?_
  by_cases h : Marked text i
  · simp [h, idxOf_marks h]
  · simp [h]

end Raw

/-! ### Compiled text -/

/-- **Values are put in the places of the marks.**  On any bindings, a text written by hand is compiled
just if it has as many marks as values.  What is written then is the text, each mark being replaced by
a parameter of its own and every other character kept.  The parameter of the `i`-th mark is new and
stands for the `i`-th value; all parameters from before are kept, and there are no others. -/
theorem compileRaw_substitutes (text : String) (values : List Value) (b : Bindings) :
    ((∃ e after, (compileRaw text values).on b = (.ok e, after)) ↔
      (Raw.marks text.toList).length = values.length) ∧
    ∀ e after, (compileRaw text values).on b = (.ok e, after) →
      e.text.toList = Raw.substituted b.values.length text.toList ∧
      (∀ i v, values[i]? = some v →
        Bindings.parameterName (b.values.length + i) ∉ Fields.names b.parameters ∧
        Fields.get? after.parameters (Bindings.parameterName (b.values.length + i)) = some v) ∧
      b.Kept after ∧
      (Fields.names after.parameters).Perm (Fields.names b.parameters ++
        (List.range values.length).map fun i => Bindings.parameterName (b.values.length + i)) ∧
      after.subqueries = b.subqueries := by
  have hcompile {e : Expr} {after : Bindings} :
      (compileRaw text values).on b = (.ok e, after) ↔
        (Raw.marks text.toList).length = values.length ∧
          e = .raw (Raw.written b.values.length (Raw.places none text.toList)) ∧
            after = { b with values := b.values ++ values } := by
    rw [compileRaw, Compiling.on_bind_eq_ok, Raw.length_marks]
    simp only [Raw.fill_eq_ok, Compiling.on_pure, Prod.mk.injEq, Except.ok.injEq]
    constructor
    · rintro ⟨_, _, ⟨hcount, rfl, rfl⟩, rfl, rfl⟩
      exact ⟨hcount, rfl, rfl⟩
    · rintro ⟨hcount, rfl, rfl⟩
      exact ⟨_, _, ⟨hcount, rfl, rfl⟩, rfl, rfl⟩
  refine ⟨⟨fun ⟨e, after, h⟩ => (hcompile.mp h).1, fun h => ⟨_, _, hcompile.mpr ⟨h, rfl, rfl⟩⟩⟩, ?_⟩
  intro e after h
  obtain ⟨-, rfl, rfl⟩ := hcompile.mp h
  refine ⟨?_, fun i v hv => ⟨fun hm => ?_, ?_⟩, ?_, ?_, rfl⟩
  · rw [Expr.text]
    exact Raw.text_written_places _ _
  · obtain ⟨j, hj, hname⟩ := List.mem_map.mp ((Bindings.names_parameters_perm b).mem_iff.mp hm)
    have := Bindings.parameterName_injective hname
    have := List.mem_range.mp hj
    omega
  · refine Bindings.get?_parameters ?_
    simpa [List.getElem?_append_right] using hv
  · exact Bindings.kept_of_prefix (List.prefix_append _ _)
  · have hall := Bindings.names_parameters_perm { b with values := b.values ++ values }
    rw [List.length_append, List.range_add, List.map_append, List.map_map] at hall
    exact hall.trans ((Bindings.names_parameters_perm b).symm.append_right _)

/-- One mark, and a question mark within a string. -/
theorem compileRaw_substitutes_quoted :
    ∃ e after, (compileRaw "n.a > ? AND n.b <> 'why?'" [.int 2]).on {} = (.ok e, after) ∧
      e.text.toList = "n.a > $p0 AND n.b <> 'why?'".toList ∧
      Fields.get? after.parameters "p0" = some (.int 2) := by
  obtain ⟨haccepted, hwritten⟩ := compileRaw_substitutes "n.a > ? AND n.b <> 'why?'" [.int 2] {}
  have hmarks : (Raw.marks "n.a > ? AND n.b <> 'why?'".toList).length = 1 := by
    rw [Raw.length_marks]
    decide +kernel
  have htext : Raw.substituted 0 "n.a > ? AND n.b <> 'why?'".toList =
      "n.a > $p0 AND n.b <> 'why?'".toList := by
    rw [← Raw.text_written_places]
    decide +kernel
  obtain ⟨e, after, h⟩ := haccepted.mpr hmarks
  obtain ⟨hsubstituted, hbound, -⟩ := hwritten e after h
  exact ⟨e, after, h, hsubstituted.trans htext, (hbound 0 _ rfl).2⟩

end GraphMapper
