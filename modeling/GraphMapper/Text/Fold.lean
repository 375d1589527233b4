/-!
Case folding for comparison with ASCII text.

* `lower`: the lowercase form of a character, as far as an ASCII letter can show it;
* `fold`: the same for a text.
-/

namespace GraphMapper.Text

/-- Lowercase form of a character.  Besides the capitals of ASCII two characters have an ASCII letter
in their lowercase form: the Kelvin sign, and the capital I with a dot, whose dot stays behind.  All
others keep out of ASCII, so they are left alone. -/
def lower (c : Char) : List Char :=
  if 'A' ≤ c ∧ c ≤ 'Z' then [Char.ofNat (c.toNat + 32)]
  else if c.toNat = 0x212A then ['k']
  else if c.toNat = 0x130 then ['i', Char.ofNat 0x307]
  else [c]

/-- Lowercase form of a text: it equals, or contains, an ASCII text exactly when the full lowercase
form does. -/
def fold (text : List Char) : List Char :=
  text.flatMap lower

end GraphMapper.Text
