import GraphMapper.Filter.Compile
import GraphMapper.Relation.Basic

/-!
Selections: which nodes of a label are meant, in which order, and which part of them.

* `Selection`: label, filter, order, window and columns;
* `Selection.restrict`, `Selection.orderBy`, `Selection.page` and their neighbours: narrowing a
  selection;
* `Selection.after`, `Selection.before`: the rows past a cursor.
-/

namespace GraphMapper

open Cypher (SortDirection)

/-- The variable of the nodes of a selection unless it says otherwise. -/
def defaultVariable : String := "n"

/-- Which nodes of a label are meant. -/
structure Selection where
  label : String
  binder : String := defaultVariable
  filter : Filter := []
  orders : List OrderBy := []
  limit : Option Nat := none
  offset : Option Nat := none
  /-- The columns asked for; none means all properties. -/
  columns : List String := []
  distinct : Bool := false
deriving Repr

namespace Selection

/-- All nodes of a label. -/
def of (label : String) : Selection :=
  { label }

/-! ### Conditions -/

/-- Adds a condition that has to hold as well. -/
def and (s : Selection) (c : Condition) : Selection :=
  { s with filter := s.filter.and c }

/-- Adds an alternative to the conditions before it. -/
def or (s : Selection) (c : Condition) : Selection :=
  { s with filter := s.filter.or c }

/-- Adds a condition that must not hold. -/
def andNot (s : Selection) (c : Condition) : Selection :=
  { s with filter := s.filter.andNot c }

/-- Adds a whole filter. -/
def restrict (s : Selection) (filter : Filter) : Selection :=
  { s with filter := Filter.merge s.filter filter }

/-! ### Order and window -/

/-- Adds a sort order after those there are. -/
def orderBy (s : Selection) (column : String) (direction : SortDirection) : Selection :=
  { s with orders := s.orders ++ [⟨column, direction⟩] }

/-- Leaves out every sort order by a column. -/
def withoutOrder (s : Selection) (column : String) : Selection :=
  { s with orders := s.orders.filter fun order => order.column ≠ column }

/-- Keeps at most `count` rows. -/
def take (s : Selection) (count : Nat) : Selection :=
  { s with limit := some count }

/-- Leaves out the first `count` rows. -/
def skip (s : Selection) (count : Nat) : Selection :=
  { s with offset := some count }

/-- Counts are words of 64 bits; their arithmetic wraps around. -/
def wordSize : Nat := Nat.pow 2 64

/-- The page of the given number, counted from one; page zero is the first. -/
def page (s : Selection) (number perPage : Nat) : Selection :=
  (s.skip ((max number 1 - 1) * perPage % wordSize)).take perPage

/-! ### Cursors -/

/-- The rows on one side of a cursor, sorted by its column before anything else. -/
def seek (s : Selection) (cursor : Option Value) (symbol : String) (count : Nat)
    (column : String) (direction : SortDirection) : Selection :=
  let s := s.withoutOrder column
  let s :=
    match cursor with
    | none | some .null => s
    | some bound => s.restrict (Filter.and [] (.spelled column symbol bound))
  { s with orders := ⟨column, direction⟩ :: s.orders, limit := some count }

/-- The first `count` rows past a cursor in the given direction; from the start without a cursor. -/
def after (s : Selection) (cursor : Option Value) (count : Nat) (column : String)
    (direction : SortDirection) : Selection :=
  let symbol :=
    match direction with
    | .ascending => ">"
    | .descending => "<"
  s.seek cursor symbol count column direction

/-- The last `count` rows before a cursor in the given direction, the nearest to the cursor first. -/
def before (s : Selection) (cursor : Option Value) (count : Nat) (column : String)
    (direction : SortDirection) : Selection :=
  let symbol :=
    match direction with
    | .ascending => "<"
    | .descending => ">"
  s.seek cursor symbol count column direction.reversed

end Selection

end GraphMapper
