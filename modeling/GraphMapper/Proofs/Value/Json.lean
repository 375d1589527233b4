import GraphMapper.Proofs.Decimal.Layout
import GraphMapper.Proofs.Value.Keys

/-!
JSON texts tell values apart.

* `Number.Finite`, `Value.Finite`: values whose doubles are all finite, the others having no text;
* `Json.escape_append_inj`, `Json.quote_append_inj`: where an escaped character and a quoted text end;
* `Number.text_injOn`, `Number.isTextChar_of_mem_text`: texts of numbers;
* `Value.exists_tag`: the first character tells the kind of a value;
* `Value.jsonChars_append_inj` (**a JSON text followed by anything is read in one way**);
* `Value.eq_of_keyText_eq`, `Value.keyText_injective` (**values with one key text are equal**).

A negative zero has a text of its own, and so is told apart from zero.
-/

namespace GraphMapper

/-! ### Texts between quotes -/

namespace Json

/-- The characters that are escaped. -/
def escaped : List Char :=
  '"' :: '\\' :: (List.range 32).map Char.ofNat

lemma escape_eq_of_not_mem {c : Char} (h : c ∉ escaped) : escape c = [c] := by
  have hcontrol : 32 ≤ c.toNat := by
    by_contra hlt
    exact h (List.mem_cons_of_mem _ (List.mem_cons_of_mem _ (List.mem_map.mpr
      ⟨c.toNat, List.mem_range.mpr (not_le.mp hlt), Char.ofNat_toNat c⟩)))
  rw [escape.eq_def]
  split
  · exact absurd (by decide) h
  · exact absurd (by decide) h
  · exact absurd (by decide) h
  · exact absurd (by decide) h
  · exact absurd (by decide) h
  · rw [if_neg (by omega), if_neg (by omega), if_neg (by omega), if_neg (by omega)]

/-- What stands for an escaped character begins with a backslash. -/
lemma exists_escape_eq {c : Char} (h : c ∈ escaped) : ∃ code, escape c = '\\' :: code := by
  have hall : (escaped.all fun c => (escape c).head? = some '\\') = true := by decide +kernel
  exact List.head?_eq_some_iff.mp (of_decide_eq_true (List.all_eq_true.mp hall c h))

/-- No escape begins another. -/
lemma eq_of_escape_prefix_of_mem {c d : Char} (hc : c ∈ escaped) (hd : d ∈ escaped)
    (h : escape c <+: escape d) : c = d := by
  have hall : (escaped.all fun c => escaped.all fun d =>
      !(escape c).isPrefixOf (escape d) || decide (c = d)) = true := by decide +kernel
  have hpair := List.all_eq_true.mp (List.all_eq_true.mp hall c hc) d hd
  rw [List.isPrefixOf_iff_prefix.mpr h] at hpair
  exact of_decide_eq_true hpair

/-- Where an escaped character ends. -/
lemma escape_append_inj {c d : Char} {s t : List Char} (h : escape c ++ s = escape d ++ t) :
    c = d ∧ s = t := by
  have hsame : c = d := by
    by_cases hc : c ∈ escaped
    · by_cases hd : d ∈ escaped
      · rcases List.prefix_or_prefix_of_prefix (List.prefix_append (escape c) s)
          (h ▸ List.prefix_append (escape d) t) with hsub | hsub
        · exact eq_of_escape_prefix_of_mem hc hd hsub
        · exact (eq_of_escape_prefix_of_mem hd hc hsub).symm
      · obtain ⟨code, hcode⟩ := exists_escape_eq hc
        rw [hcode, escape_eq_of_not_mem hd] at h
        exact absurd (by rw [← (List.cons.inj h).1]; decide) hd
    · by_cases hd : d ∈ escaped
      · obtain ⟨code, hcode⟩ := exists_escape_eq hd
        rw [hcode, escape_eq_of_not_mem hc] at h
        exact absurd (by rw [(List.cons.inj h).1]; decide) hc
      · rw [escape_eq_of_not_mem hc, escape_eq_of_not_mem hd] at h
        exact (List.cons.inj h).1
  subst hsame
  exact ⟨rfl, List.append_cancel_left h⟩

/-- What stands for a character does not begin with the quote at the end. -/
lemma escape_append_ne (c : Char) (s t : List Char) : escape c ++ s ≠ '"' :: t := by
  intro h
  by_cases hc : c ∈ escaped
  · obtain ⟨code, hcode⟩ := exists_escape_eq hc
    rw [hcode] at h
    exact absurd (List.cons.inj h).1 (by decide)
  · rw [escape_eq_of_not_mem hc] at h
    exact absurd (by rw [(List.cons.inj h).1]; decide) hc

lemma flatMap_escape_append_inj {as bs s t : List Char}
    (h : as.flatMap escape ++ '"' :: s = bs.flatMap escape ++ '"' :: t) : as = bs ∧ s = t := by
  induction as generalizing bs with
  | nil =>
      cases bs with
      | nil => exact ⟨rfl, (List.cons.inj h).2⟩
      | cons d bs =>
          rw [List.flatMap_cons, List.append_assoc] at h
          exact absurd h.symm (escape_append_ne d _ _)
  | cons c as ih =>
      rw [List.flatMap_cons, List.append_assoc] at h
      cases bs with
      | nil => exact absurd h (escape_append_ne c _ _)
      | cons d bs =>
          rw [List.flatMap_cons, List.append_assoc] at h
          obtain ⟨rfl, hrest⟩ := escape_append_inj h
          obtain ⟨rfl, rfl⟩ := ih hrest
          exact ⟨rfl, rfl⟩

/-- Where a quoted text ends. -/
lemma quote_append_inj {a b : String} {s t : List Char} (h : quote a ++ s = quote b ++ t) :
    a = b ∧ s = t := by
  have hbody : a.toList.flatMap escape ++ '"' :: s = b.toList.flatMap escape ++ '"' :: t := by
    simpa [quote] using h
  exact (flatMap_escape_append_inj hbody).imp_left String.toList_inj.mp

end Json

/-! ### Numbers -/

namespace Number

/-- The number has a text of its own. -/
def Finite : Number → Prop
  | .int _ => True
  | .float x => x.isFinite

/-- Whether a character may stand in the text of a number. -/
def isTextChar (c : Char) : Bool :=
  c.isDigit || ['.', 'e', '-', '+'].contains c

lemma isTextChar_iff {c : Char} : isTextChar c ↔ c.isDigit ∨ c ∈ ['.', 'e', '-', '+'] := by
  rw [isTextChar, Bool.or_eq_true, List.contains_iff_mem]

/-- The text of an integer is made of digits, perhaps with a minus before them. -/
lemma exists_text_int (n : ℤ) : ∃ m : ℕ, (Number.int n).text = Nat.toDigits 10 m ∨
    (Number.int n).text = '-' :: Nat.toDigits 10 m := by
  have hdigits (m : ℕ) : (toString m).toList = Nat.toDigits 10 m := by
    rw [Nat.toString_eq_ofList_toDigits, String.toList_ofList]
  cases n with
  | ofNat m => exact ⟨m, .inl (hdigits m)⟩
  | negSucc m =>
      refine ⟨m + 1, .inr ?_⟩
      change ("-" ++ toString (m + 1)).toList = _
      rw [String.toList_append, hdigits]
      rfl

lemma mem_text_int {n : ℤ} {c : Char} (hc : c ∈ (Number.int n).text) : c.isDigit ∨ c = '-' := by
  obtain ⟨m, htext | htext⟩ := exists_text_int n <;> rw [htext] at hc
  · exact .inl (Nat.isDigit_of_mem_toDigits (by decide) (by decide) hc)
  · rcases List.mem_cons.mp hc with rfl | hc
    · exact .inr rfl
    · exact .inl (Nat.isDigit_of_mem_toDigits (by decide) (by decide) hc)

/-- The characters of texts of numbers. -/
lemma isTextChar_of_mem_text {n : Number} (h : n.Finite) : ∀ c ∈ n.text, isTextChar c := by
  intro c hc
  rw [isTextChar_iff]
  cases n with
  | int n => exact (mem_text_int hc).imp id (by rintro rfl; decide)
  | float x => exact Decimal.Layout.mem_write h hc

/-- The text of a double shows that it is none of an integer. -/
lemma exists_mark_text {x : Float} (h : x.isFinite) :
    '.' ∈ (Number.float x).text ∨ 'e' ∈ (Number.float x).text :=
  Decimal.Layout.exists_mark_write h (show Decimal.Layout.data.wholeFraction from rfl)

lemma text_ne_nil {n : Number} (h : n.Finite) : n.text ≠ [] := by
  cases n with
  | int n =>
      obtain ⟨m, htext | htext⟩ := exists_text_int n
      · rw [htext]
        exact List.ne_nil_of_length_pos Nat.length_toDigits_pos
      · simp [htext]
  | float x =>
      intro hnil
      have hmark := exists_mark_text h
      simp [hnil] at hmark

lemma text_int_ne_text_float {n : ℤ} {x : Float} (h : x.isFinite) :
    (Number.int n).text ≠ (Number.float x).text := by
  intro hsame
  rcases exists_mark_text h with hmark | hmark
  · exact absurd (mem_text_int (hsame ▸ hmark)) (by decide)
  · exact absurd (mem_text_int (hsame ▸ hmark)) (by decide)

/-- No two numbers have one text. -/
theorem text_injOn : Set.InjOn text {n | n.Finite} := by
  rintro (m | x) hx (n | y) hy h
  · exact congrArg int (Value.toString_int_injective (String.toList_inj.mp h))
  · exact absurd h (text_int_ne_text_float hy)
  · exact absurd h.symm (text_int_ne_text_float hx)
  · exact congrArg float (Decimal.Layout.write_injOn _ hx hy h)

end Number

/-! ### Values -/

namespace Value

mutual

/-- All doubles in the value are finite. -/
def Finite : Value → Prop
  | .null | .bool _ | .string _ => True
  | .number n => n.Finite
  | .array items => FiniteItems items
  | .object fields => FiniteFields fields

def FiniteItems : List Value → Prop
  | [] => True
  | v :: rest => v.Finite ∧ FiniteItems rest

def FiniteFields : List (String × Value) → Prop
  | [] => True
  | (_, v) :: rest => v.Finite ∧ FiniteFields rest

end

/-- A sign for each kind of value. -/
def tag : Value → Char
  | .null => 'n'
  | .bool true => 't'
  | .bool false => 'f'
  | .number _ => '0'
  | .string _ => '"'
  | .array _ => '['
  | .object _ => '\x7b'

/-- The kind of value whose text begins with a character. -/
def tagOf (c : Char) : Char :=
  if Number.isTextChar c then '0' else c

/-- The first character tells the kind of a value. -/
lemma exists_tag {v : Value} (h : v.Finite) :
    ∃ c rest, v.jsonChars = c :: rest ∧ tagOf c = v.tag := by
  match v with
  | .null => exact ⟨'n', _, rfl, by decide⟩
  | .bool true => exact ⟨'t', _, rfl, by decide⟩
  | .bool false => exact ⟨'f', _, rfl, by decide⟩
  | .number n =>
    rw [Finite] at h
    obtain ⟨c, rest, hc⟩ := List.exists_cons_of_ne_nil (Number.text_ne_nil h)
    have hchar := Number.isTextChar_of_mem_text h c (hc ▸ List.mem_cons_self)
    exact ⟨c, rest, by rw [jsonChars, hc], if_pos hchar⟩
  | .string s => exact ⟨'"', _, by rw [jsonChars, Json.quote]; rfl, rfl⟩
  | .array items => exact ⟨'[', _, by rw [jsonChars]; rfl, rfl⟩
  | .object fields => exact ⟨'\x7b', _, by rw [jsonChars]; rfl, rfl⟩

/-- Values of one kind. -/
inductive SameKind : Value → Value → Prop
  | null : SameKind .null .null
  | bool (b : Bool) : SameKind (.bool b) (.bool b)
  | number (m n : Number) : SameKind (.number m) (.number n)
  | string (a b : String) : SameKind (.string a) (.string b)
  | array (items others : List Value) : SameKind (.array items) (.array others)
  | object (fields others : List (String × Value)) : SameKind (.object fields) (.object others)

lemma sameKind_of_tag_eq {v w : Value} (h : v.tag = w.tag) : SameKind v w := by
  rcases v with _ | (_ | _) | _ | _ | _ | _ <;> rcases w with _ | (_ | _) | _ | _ | _ | _ <;>
    first
    | constructor
    | simp [tag] at h

lemma sameKind_of_append {v w : Value} (hv : v.Finite) (hw : w.Finite) {s t : List Char}
    (h : v.jsonChars ++ s = w.jsonChars ++ t) : SameKind v w := by
  obtain ⟨c, rest, hc, htag⟩ := exists_tag hv
  obtain ⟨d, rest', hd, htag'⟩ := exists_tag hw
  rw [hc, hd] at h
  exact sameKind_of_tag_eq (by rw [← htag, ← htag', (List.cons.inj h).1])

/-- No text of a number goes on where the next character is. -/
def Stops (s : List Char) : Prop :=
  ∀ c ∈ s.head?, ¬ Number.isTextChar c

lemma stops_cons {c : Char} {s : List Char} (h : ¬ Number.isTextChar c) : Stops (c :: s) := by
  rintro d ⟨⟩
  exact h

/-- What follows an item of a list. -/
def itemsTail : List Value → List Char
  | [] => []
  | rest => ',' :: jsonItems rest

lemma jsonItems_cons (item : Value) (rest : List Value) :
    jsonItems (item :: rest) = item.jsonChars ++ itemsTail rest := by
  cases rest with
  | nil => rw [jsonItems, itemsTail, List.append_nil]
  | cons next rest => rw [jsonItems, itemsTail] <;> simp

/-- What follows an entry of a map. -/
def fieldsTail : List (String × Value) → List Char
  | [] => []
  | rest => ',' :: jsonFields rest

lemma jsonFields_cons (name : String) (entry : Value) (rest : List (String × Value)) :
    jsonFields ((name, entry) :: rest) =
      Json.quote name ++ ':' :: (entry.jsonChars ++ fieldsTail rest) := by
  cases rest with
  | nil => rw [jsonFields, fieldsTail, List.append_nil]
  | cons next rest => rw [jsonFields, fieldsTail] <;> simp

/-- No value begins with the bracket at the end of a list. -/
lemma jsonChars_append_ne {v : Value} (hv : v.Finite) (s t : List Char) :
    v.jsonChars ++ s ≠ ']' :: t := by
  intro h
  obtain ⟨c, rest, hc, htag⟩ := exists_tag hv
  rw [hc] at h
  obtain rfl := (List.cons.inj h).1
  have hbracket : ']' = v.tag := htag
  cases v with
  | bool b => cases b <;> simp [tag] at hbracket
  | _ => simp [tag] at hbracket

lemma stops_itemsTail (rest : List Value) (s : List Char) : Stops (itemsTail rest ++ ']' :: s) := by
  cases rest with
  | nil => exact stops_cons (by decide)
  | cons next rest => exact stops_cons (by decide)

lemma stops_fieldsTail (rest : List (String × Value)) (s : List Char) :
    Stops (fieldsTail rest ++ '\x7d' :: s) := by
  cases rest with
  | nil => exact stops_cons (by decide)
  | cons next rest => exact stops_cons (by decide)

mutual

/-- **A JSON text followed by anything is read in one way.** -/
theorem jsonChars_append_inj : (v w : Value) → (s t : List Char) → v.Finite → w.Finite → Stops s →
    Stops t → v.jsonChars ++ s = w.jsonChars ++ t → v = w ∧ s = t
  | .null, w, s, t, hv, hw, _, _, h => by
    match w, sameKind_of_append hv hw h with
    | _, .null => exact ⟨rfl, List.append_cancel_left h⟩
  | .bool a, w, s, t, hv, hw, _, _, h => by
    match w, sameKind_of_append hv hw h with
    | _, .bool _ => exact ⟨rfl, List.append_cancel_left h⟩
  | .number m, w, s, t, hv, hw, hs, ht, h => by
    match w, sameKind_of_append hv hw h with
    | _, .number _ n =>
      rw [Finite] at hv hw
      obtain ⟨htext, rfl⟩ := Decimal.append_inj_of_all (Number.isTextChar_of_mem_text hv)
        (Number.isTextChar_of_mem_text hw) hs ht (by rwa [jsonChars, jsonChars] at h)
      exact ⟨congrArg number (Number.text_injOn hv hw htext), rfl⟩
  | .string a, w, s, t, hv, hw, _, _, h => by
    match w, sameKind_of_append hv hw h with
    | _, .string _ b =>
      rw [jsonChars, jsonChars] at h
      exact (Json.quote_append_inj h).imp_left (congrArg string)
  | .array items, w, s, t, hv, hw, _, _, h => by
    match w, sameKind_of_append hv hw h with
    | _, .array _ others =>
      rw [Finite] at hv hw
      exact (jsonItems_append_inj items others s t hv hw (by simpa [jsonChars] using h)).imp_left
        (congrArg array)
  | .object fields, w, s, t, hv, hw, _, _, h => by
    match w, sameKind_of_append hv hw h with
    | _, .object _ others =>
      rw [Finite] at hv hw
      exact (jsonFields_append_inj fields others s t hv hw (by simpa [jsonChars] using h)).imp_left
        (congrArg object)

theorem jsonItems_append_inj : (a b : List Value) → (s t : List Char) → FiniteItems a →
    FiniteItems b → jsonItems a ++ ']' :: s = jsonItems b ++ ']' :: t → a = b ∧ s = t
  | [], [], s, t, _, _, h => ⟨rfl, (List.cons.inj h).2⟩
  | [], w :: _, s, t, _, hb, h => by
    rw [jsonItems_cons, List.append_assoc] at h
    exact absurd h.symm (jsonChars_append_ne hb.1 _ _)
  | v :: _, [], s, t, ha, _, h => by
    rw [jsonItems_cons, List.append_assoc] at h
    exact absurd h (jsonChars_append_ne ha.1 _ _)
  | v :: rest, w :: others, s, t, ha, hb, h => by
    rw [jsonItems_cons, jsonItems_cons, List.append_assoc, List.append_assoc] at h
    obtain ⟨rfl, htail⟩ := jsonChars_append_inj v w _ _ ha.1 hb.1 (stops_itemsTail rest s)
      (stops_itemsTail others t) h
    match rest, others with
    | [], [] => exact ⟨rfl, (List.cons.inj htail).2⟩
    | [], _ :: _ => exact absurd (List.cons.inj htail).1 (by decide)
    | _ :: _, [] => exact absurd (List.cons.inj htail).1 (by decide)
    | v' :: rest, w' :: others =>
      exact (jsonItems_append_inj (v' :: rest) (w' :: others) s t ha.2 hb.2
        (List.cons.inj htail).2).imp_left (congrArg (v :: ·))

theorem jsonFields_append_inj : (a b : List (String × Value)) → (s t : List Char) → FiniteFields a →
    FiniteFields b → jsonFields a ++ '\x7d' :: s = jsonFields b ++ '\x7d' :: t → a = b ∧ s = t
  | [], [], s, t, _, _, h => ⟨rfl, (List.cons.inj h).2⟩
  | [], (name, w) :: _, s, t, _, _, h => by
    rw [jsonFields_cons] at h
    exact absurd (List.cons.inj h).1 (by decide)
  | (name, v) :: _, [], s, t, _, _, h => by
    rw [jsonFields_cons] at h
    exact absurd (List.cons.inj h).1 (by decide)
  | (name, v) :: rest, (other, w) :: others, s, t, ha, hb, h => by
    rw [jsonFields_cons, jsonFields_cons, List.append_assoc, List.append_assoc] at h
    obtain ⟨rfl, hentry⟩ := Json.quote_append_inj h
    rw [List.cons_append, List.cons_append, List.append_assoc, List.append_assoc] at hentry
    obtain ⟨rfl, htail⟩ := jsonChars_append_inj v w _ _ ha.1 hb.1 (stops_fieldsTail rest s)
      (stops_fieldsTail others t) (List.cons.inj hentry).2
    match rest, others with
    | [], [] => exact ⟨rfl, (List.cons.inj htail).2⟩
    | [], _ :: _ => exact absurd (List.cons.inj htail).1 (by decide)
    | _ :: _, [] => exact absurd (List.cons.inj htail).1 (by decide)
    | entry :: rest, entry' :: others =>
      exact (jsonFields_append_inj (entry :: rest) (entry' :: others) s t ha.2 hb.2
        (List.cons.inj htail).2).imp_left (congrArg ((name, v) :: ·))

end

/-- **Values with one key text are equal.** -/
theorem eq_of_keyText_eq {v w : Value} (hv : v.Finite) (hw : w.Finite) (h : v.keyText = w.keyText) :
    v = w := by
  have hjson (hsame : "v:" ++ v.json = "v:" ++ w.json) : v = w := by
    have hchars : v.jsonChars = w.jsonChars := String.ofList_inj.mp (append_injective "v:" hsame)
    exact (jsonChars_append_inj v w [] [] hv hw (by simp [Stops]) (by simp [Stops])
      (by rw [hchars])).1
  have htagged (s t : String) : "s:" ++ s ≠ "v:" ++ t := fun hsame => by
    have hchars := congrArg String.toList hsame
    simp at hchars
  cases v with
  | string s =>
      cases w with
      | string t => exact congrArg string (append_injective "s:" h)
      | _ => exact absurd h (htagged s _)
  | _ =>
      cases w with
      | string t => exact absurd h.symm (htagged t _)
      | _ => exact hjson h

/-- **No two values have one key text**, whatever they hold and however deep.  In particular an integer
and a double are told apart, also where they are equal in size. -/
theorem keyText_injective :
    Set.InjOn keyText {v | v.Finite} ∧
      ∀ (n : ℤ) (x : Float), x.isFinite → (int n).keyText ≠ (number (.float x)).keyText := by
  refine ⟨fun v hv w hw h => eq_of_keyText_eq hv hw h, fun n x hx h => ?_⟩
  have hint : (int n).Finite := by
    rw [int, Finite]
    trivial
  have hfloat : (number (.float x)).Finite := by
    rw [Finite]
    exact hx
  have hsame := eq_of_keyText_eq hint hfloat h
  simp [int] at hsame

/-- Of two lists that differ in the kind of one number within a map, under a name with a quote. -/
theorem keyText_injective_nested :
    let v : Value := .array [.string "v:1", .object [("\"id", .int 1)]]
    let w : Value := .array [.string "v:1", .object [("\"id", .number (.float 1.0))]]
    v.Finite ∧ w.Finite ∧ (1.0 : Float).isFinite ∧ v.keyText ≠ w.keyText ∧
      (int 1).keyText ≠ (number (.float 1.0)).keyText := by
  intro v w
  have hfloat : (1.0 : Float).isFinite := by decide +kernel
  have hv : v.Finite := by simp [v, int, Finite, FiniteItems, FiniteFields, Number.Finite]
  have hw : w.Finite := by simp [w, Finite, FiniteItems, FiniteFields, Number.Finite, hfloat]
  have hne : v ≠ w := by simp [v, w, int]
  exact ⟨hv, hw, hfloat, keyText_injective.1.ne hv hw hne, keyText_injective.2 1 1.0 hfloat⟩

end Value

end GraphMapper
