import GraphMapper.Error.Basic

/-!
Records: nodes with the related nodes loaded so far.

* `Related`: what was loaded for a relation;
* `EdgeChange`: a change of edges that waits to be written;
* `Record`: label, attributes, loaded relations, pivot and waiting changes;
* `Record.ofColumn`: the record in a column of a result row.
-/

namespace GraphMapper

/-- What was loaded for a relation: at most one record, or any number. -/
inductive Related (ρ : Type) where
  | one (record : Option ρ)
  | many (records : List ρ)
deriving Repr, Inhabited

namespace Related

variable {ρ : Type}

/-- The loaded records. -/
def toList : Related ρ → List ρ
  | .one record => record.toList
  | .many records => records

/-- Changes every loaded record. -/
def map {σ : Type} (f : ρ → σ) : Related ρ → Related σ
  | .one record => .one (record.map f)
  | .many records => .many (records.map f)

end Related

/-- A change of edges that waits to be written: the record's owner along a relation becomes the node of
the given key, or there is none any more. -/
inductive EdgeChange where
  | associate (relation : DirectRelation) (ownerKey : Value)
  | dissociate (relation : DirectRelation)
deriving Repr

/-- The relation that a change is about. -/
def EdgeChange.relation : EdgeChange → DirectRelation
  | .associate relation _ | .dissociate relation => relation

/-- A node with the related nodes loaded so far. -/
structure Record where
  label : String
  attributes : Row
  relations : List (String × Related Record) := []
  /-- The properties of the pivot through which the record was loaded. -/
  pivot : Option Row := none
  pending : List EdgeChange := []
deriving Repr

instance : Inhabited Record := ⟨{ label := "", attributes := [] }⟩

namespace Record

/-- A node with nothing loaded. -/
def of (label : String) (attributes : Row) : Record :=
  { label, attributes }

/-- The record in a column of a row, and the row without that column. -/
def ofColumn (label : String) (row : Row) (column : String) : Except Error Record × Row :=
  let found := row.get? column
  let record :=
    match found with
    | some (.object attributes) => .ok (of label attributes)
    | _ => .error (.decode (.notProperties column found))
  (record, row.drop column)

/-- An attribute that is not null. -/
def get? (r : Record) (column : String) : Option Value :=
  (r.attributes.get? column).filter (!·.isNull)

/-- Sets an attribute. -/
def set (r : Record) (column : String) (v : Value) : Record :=
  { r with attributes := r.attributes.put column v }

/-- What was loaded for a relation. -/
def relation? (r : Record) (name : String) : Option (Related Record) :=
  Fields.get? r.relations name

/-- Whether a relation was loaded. -/
def isLoaded (r : Record) (name : String) : Bool :=
  Fields.has r.relations name

/-- Puts records in place of what was loaded for a relation. -/
def setRelation (r : Record) (name : String) (related : Related Record) : Record :=
  { r with relations := Fields.put r.relations name related }

/-- The records loaded for a relation. -/
def children (r : Record) (name : String) : List Record :=
  ((r.relation? name).map Related.toList).getD []

/-- Changes every record loaded for a relation. -/
def mapChildren (r : Record) (name : String) (f : Record → Record) : Record :=
  { r with
    relations := r.relations.map fun (key, related) =>
      (key, if key = name then related.map f else related) }

end Record

end GraphMapper
