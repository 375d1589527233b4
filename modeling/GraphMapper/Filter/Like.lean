/-!
Text patterns with `%` for any text and `_` for any character.

* `Like.Token`, `Like.tokens`: a pattern read character by character;
* `Like.Shape`, `Like.shape`: the simplest test that a pattern amounts to;
* `Like.regex`: the regular expression of the patterns that amount to no simpler test.
-/

namespace GraphMapper.Like

/-- A piece of a pattern. -/
inductive Token where
  | char (c : Char)
  /-- Any text. -/
  | many
  /-- Any character. -/
  | one
deriving DecidableEq, Repr

/-- Reads a pattern.  A backslash makes the next character stand for itself; at the end it stands for
itself. -/
def tokens : List Char → List Token
  | [] => []
  | ['\\'] => [.char '\\']
  | '\\' :: c :: rest => .char c :: tokens rest
  | '%' :: rest => .many :: tokens rest
  | '_' :: rest => .one :: tokens rest
  | c :: rest => .char c :: tokens rest

/-- The test that a pattern amounts to. -/
inductive Shape where
  | equals (text : List Char)
  | startsWith (text : List Char)
  | endsWith (text : List Char)
  | contains (text : List Char)
  /-- None of the simpler tests does. -/
  | regex (tokens : List Token)
deriving DecidableEq, Repr

/-- The text of tokens without wildcards. -/
def literal? : List Token → Option (List Char)
  | [] => some []
  | .char c :: rest => (literal? rest).map (c :: ·)
  | .many :: _ | .one :: _ => none

/-- Tokens without one wildcard for any text at their end, if there is one. -/
def dropTrailing (ts : List Token) : List Token × Bool :=
  if ts.getLast? = some .many then (ts.dropLast, true) else (ts, false)

/-- The simplest test: a wildcard for any text is taken off at either end, and what remains must be
free of wildcards. -/
def shape (pattern : List Char) : Shape :=
  let all := tokens pattern
  let (rest, leading) :=
    match all with
    | .many :: rest => (rest, true)
    | _ => (all, false)
  let (middle, trailing) := dropTrailing rest
  match literal? middle with
  | none => .regex all
  | some text =>
    match leading, trailing with
    | false, false => .equals text
    | false, true => .startsWith text
    | true, false => .endsWith text
    | true, true => .contains text

/-- Whether a character has a meaning of its own in regular expressions. -/
def isMeta (c : Char) : Bool :=
  "\\.+*?()|[]\x7b\x7d^$#&-~".toList.contains c

/-- A piece of the regular expression. -/
def Token.regex : Token → List Char
  | .char c => if isMeta c then ['\\', c] else [c]
  | .many => ['.', '*']
  | .one => ['.']

/-- The regular expression of a pattern.  Its first piece lets a point stand for line ends as well, and
for either case if wanted. -/
def regex (anyCase : Bool) (ts : List Token) : List Char :=
  (if anyCase then "(?is)" else "(?s)").toList ++ ts.flatMap Token.regex

end GraphMapper.Like
