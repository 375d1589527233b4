import GraphMapper.Error.Basic
import GraphMapper.Selection.Statement

/-!
Pages of a selection with the number of all rows.

* `Page`: one page, with `Page.of` for the number of the last;
* `countOf`: the count in the answer of a count statement.
-/

namespace GraphMapper

/-- One page of items.  Pages are counted from one. -/
structure Page (α : Type) where
  items : List α
  /-- Number of items on all pages. -/
  total : Nat
  perPage : Nat
  current : Nat
  last : Nat
deriving Repr

namespace Page

variable {α β : Type}

/-- The page with the given number; the last page is the least that covers the total. -/
def of (items : List α) (total perPage current : Nat) : Page α :=
  let perPage := max perPage 1
  { items, total, perPage
    current := max current 1
    last := max ((total + (perPage - 1)) / perPage) 1 }

/-- Whether a page follows. -/
def hasMore (p : Page α) : Bool :=
  p.current < p.last

/-- A page with other items. -/
def withItems (p : Page α) (items : List β) : Page β :=
  { items, total := p.total, perPage := p.perPage, current := p.current, last := p.last }

/-- Changes each item. -/
def map (f : α → β) (p : Page α) : Page β :=
  p.withItems (p.items.map f)

/-- A page as a value. -/
def toValue (p : Page Value) : Value :=
  .object
    [("current_page", .int p.current),
      ("items", .array p.items),
      ("last_page", .int p.last),
      ("per_page", .int p.perPage),
      ("total", .int p.total)]

end Page

/-- The count that the rows of a count statement hold; no row counts as none. -/
def countOf (rows : List Row) : Except Error Nat :=
  match rows.head?.bind (Fields.get? · aggregateColumn) with
  | none => .ok 0
  | some v =>
    match v.asUnsigned? with
    | some n => .ok n
    | none => .error (.decode (.countNotInteger v))

end GraphMapper
