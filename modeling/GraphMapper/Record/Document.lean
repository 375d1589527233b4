import GraphMapper.Record.Basic

/-!
Records as values, for documents that show them.

* `EdgeChange.toValue`: a change of edges by the name of its relation;
* `Record.toValue`: a record with all that is loaded for it.
-/

namespace GraphMapper

def EdgeChange.toValue : EdgeChange → Value
  | .associate relation ownerKey =>
    .array [.string "associate", .string relation.name, ownerKey]
  | .dissociate relation => .array [.string "dissociate", .string relation.name]

mutual

/-- A record as a value. -/
def Record.toValue : Record → Value
  | ⟨label, attributes, relations, pivot, pending⟩ =>
    .object
      [("attributes", .object attributes),
        ("label", .string label),
        ("pending", .array (pending.map EdgeChange.toValue)),
        ("pivot", (pivot.map Value.object).getD .null),
        ("relations", .object (relationValues relations))]

/-- What was loaded for a relation as a value, telling one record from a list. -/
def Related.toValue : Related Record → Value
  | .one none => .object [("one", .null)]
  | .one (some record) => .object [("one", record.toValue)]
  | .many records => .object [("many", .array (recordValues records))]

/-- Records as values. -/
def recordValues : List Record → List Value
  | [] => []
  | record :: rest => record.toValue :: recordValues rest

/-- The loaded relations as values. -/
def relationValues : List (String × Related Record) → List (String × Value)
  | [] => []
  | (name, related) :: rest => (name, related.toValue) :: relationValues rest

end

end GraphMapper
