/-!
White space and the two ways in which a text is cut at it.

* `isBlank`: the characters of the Unicode property `White_Space`;
* `pieces`: what stands between the characters of a class;
* `trim`: a text without the blanks at its two ends;
* `words`: the blank-free pieces of a text.
-/

namespace GraphMapper.Text

/-- The 25 characters of the property `White_Space`. -/
def isBlank (c : Char) : Bool :=
  let n := c.toNat
  (9 ≤ n && n ≤ 13) || n == 0x20 || n == 0x85 || n == 0xA0 || n == 0x1680 ||
    (0x2000 ≤ n && n ≤ 0x200A) || n == 0x2028 || n == 0x2029 || n == 0x202F ||
    n == 0x205F || n == 0x3000

/-- Every blank that core knows is one here. -/
theorem isBlank_of_isWhitespace {c : Char} (h : c.isWhitespace = true) : isBlank c = true := by
  simp only [Char.isWhitespace, Bool.or_eq_true, decide_eq_true_eq] at h
  rcases h with ((h | h) | h) | h <;> subst h <;> rfl

/-- What stands between the characters of a class, the empty pieces included: one piece more than
there are such characters. -/
def pieces (cuts : Char → Bool) : List Char → List (List Char)
  | [] => [[]]
  | c :: rest =>
    if cuts c then [] :: pieces cuts rest
    else
      match pieces cuts rest with
      | [] => [[c]]
      | piece :: later => (c :: piece) :: later

/-- A text without the blanks at its two ends. -/
def trim (text : List Char) : List Char :=
  ((text.dropWhile isBlank).reverse.dropWhile isBlank).reverse

/-- The maximal blank-free pieces of a text. -/
def words (text : List Char) : List (List Char) :=
  (pieces isBlank text).filter (!·.isEmpty)

end GraphMapper.Text
