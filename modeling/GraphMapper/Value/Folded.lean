import GraphMapper.Text.Folded
import GraphMapper.Value.Json

/-!
Documents as they are read: what a value that is written in JSON is to a reader of YAML.

* `Value.keyBound`, `Value.isKey`: the names that an entry of a document can have;
* `Value.folded?`: the value that is read; `none` if the document cannot be read.
-/

namespace GraphMapper.Value

/-- The greatest length of a name as it is written, with its quotes and escapes. -/
def keyBound : Nat := 1024

/-- Whether a name is recognized as such: it stands on one line, can be read and is not too long. -/
def isKey (name : String) : Bool :=
  (name.toList.all fun c => Text.isReadable c && !Text.isLineBreak c) &&
    (Json.quote name).length ≤ keyBound

mutual

/-- The value that is read from a document.  What spoils a part of a document spoils all of it. -/
def folded? : Value → Option Value
  | .string s => return .string (String.ofList (← Text.folded? s.toList))
  | .array items => return .array (← foldedItems? items)
  | .object fields => return .object (← foldedFields? fields)
  | scalar => some scalar

/-- The items of a list as they are read. -/
def foldedItems? : List Value → Option (List Value)
  | [] => some []
  | item :: rest => return (← folded? item) :: (← foldedItems? rest)

/-- The entries of a map as they are read. -/
def foldedFields? : List (String × Value) → Option (List (String × Value))
  | [] => some []
  | (name, entry) :: rest => do
    guard (isKey name)
    return (name, ← folded? entry) :: (← foldedFields? rest)

end

end GraphMapper.Value
