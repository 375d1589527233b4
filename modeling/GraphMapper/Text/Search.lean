/-!
Searching a text for another.

* `occursIn`: whether the text is met;
* `before`, `after?`, `afterLast?`: what stands on the two sides of the place where it is met.
-/

namespace GraphMapper.Text

/-- Whether `pattern` stands somewhere in the text. -/
def occursIn (pattern : List Char) : List Char → Bool
  | [] => pattern.isEmpty
  | c :: rest => pattern.isPrefixOf (c :: rest) || occursIn pattern rest

/-- What stands before the first occurrence of `pattern`; the whole text if there is none. -/
def before (pattern : List Char) : List Char → List Char
  | [] => []
  | c :: rest => if pattern.isPrefixOf (c :: rest) then [] else c :: before pattern rest

/-- What stands after the first occurrence of `pattern`. -/
def after? (pattern : List Char) : List Char → Option (List Char)
  | [] => if pattern.isEmpty then some [] else none
  | c :: rest =>
    if pattern.isPrefixOf (c :: rest) then some ((c :: rest).drop pattern.length)
    else after? pattern rest

/-- What stands after the last occurrence of `pattern`. -/
def afterLast? (pattern : List Char) : List Char → Option (List Char)
  | [] => if pattern.isEmpty then some [] else none
  | c :: rest =>
    match afterLast? pattern rest with
    | some found => some found
    | none =>
      if pattern.isPrefixOf (c :: rest) then some ((c :: rest).drop pattern.length) else none

end GraphMapper.Text
