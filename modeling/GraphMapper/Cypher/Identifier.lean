/-!
Names inside query text.

* `Identifier.isPlain`: the names that stand as they are;
* `Identifier.quote`: the written form of any name;
* `Property`, `Property.ofColumn`: a property of a variable, as a column spells it;
* `Property.text`: its written form.
-/

namespace GraphMapper.Cypher

namespace Identifier

/-- Whether a character may start a plain name. -/
def isStart (c : Char) : Bool :=
  c.isAlpha || c == '_'

/-- Whether a character may continue a plain name. -/
def isPart (c : Char) : Bool :=
  c.isAlphanum || c == '_'

/-- A plain name: ASCII letters, digits and underscores, not starting with a digit. -/
def isPlain : List Char → Bool
  | [] => false
  | c :: rest => isStart c && rest.all isPart

/-- The inside of a quoted name: a backtick is written twice. -/
def doubled (name : List Char) : List Char :=
  name.flatMap fun c => if c = '`' then ['`', '`'] else [c]

/-- The written form of a name: plain names stand as they are, others between backticks. -/
def quoteChars (name : List Char) : List Char :=
  if isPlain name then name else '`' :: doubled name ++ ['`']

/-- The written form of a name. -/
def quote (name : String) : String :=
  String.ofList (quoteChars name.toList)

end Identifier

/-- A property of a variable. -/
structure Property where
  owner : String
  name : String
deriving DecidableEq, Repr

namespace Property

/-- The property that a column of a variable names.  A column `owner.name` with a plain owner and a
non-empty name speaks of another variable; every other column is a property name as a whole. -/
def ofColumn (binder column : String) : Property :=
  let chars := column.toList
  let head := chars.takeWhile (· ≠ '.')
  match chars.dropWhile (· ≠ '.') with
  | _ :: c :: rest =>
    if Identifier.isPlain head then ⟨String.ofList head, String.ofList (c :: rest)⟩
    else ⟨binder, column⟩
  | _ => ⟨binder, column⟩

/-- The written form: variable, dot, name. -/
def text (p : Property) : String :=
  p.owner ++ "." ++ Identifier.quote p.name

end Property

end GraphMapper.Cypher
