import GraphMapper.Text.Hidden

/-!
Quoted texts, as they appear inside messages.

* `quotedChar`: one character between the quotes;
* `quoted`: a text between quotes, on one line and with every character visible.
-/

namespace GraphMapper.Text

/-- A code point in lowercase hexadecimal digits, without leading zeros. -/
def hex (n : Nat) : List Char :=
  Nat.toDigits 16 n

/-- One character of a quoted text: quote and backslash are escaped, line ends, tabs and NUL have a
letter, other hidden characters are given by their code point. -/
def quotedChar (c : Char) : List Char :=
  match c with
  | '"' => ['\\', '"']
  | '\\' => ['\\', '\\']
  | '\n' => ['\\', 'n']
  | '\r' => ['\\', 'r']
  | '\t' => ['\\', 't']
  | c =>
    if c.toNat = 0 then ['\\', '0']
    else if isHidden c then ['\\', 'u', '\x7b'] ++ hex c.toNat ++ ['\x7d']
    else [c]

/-- A text between quotes. -/
def quoted (text : String) : String :=
  String.ofList ('"' :: text.toList.flatMap quotedChar ++ ['"'])

end GraphMapper.Text
