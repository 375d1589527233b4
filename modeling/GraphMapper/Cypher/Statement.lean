import GraphMapper.Cypher.Expression
import GraphMapper.Value.Basic

/-!
Statements of the query language and the queries made from them.

* `Query`: text, named parameters and expected columns, ready for an engine;
* `Query.placeholders`, `Query.unbound`: the parameters that a text asks for;
* `Change`, `Item`, `Step`: the steps of a statement;
* `Statement`: steps, parameters and columns, with `Statement.query` as its written form.
-/

namespace GraphMapper

/-! ### Queries -/

/-- A query ready for an engine. -/
structure Query where
  text : String
  parameters : Row := []
  /-- The columns that a row of the answer holds. -/
  columns : List String := []
deriving DecidableEq, Repr, Inhabited

namespace Query

/-- The names that follow a dollar sign in a text: a plain name as long as possible. -/
def names : List Char → List String
  | [] => []
  | '$' :: rest =>
    let name := rest.takeWhile Cypher.Identifier.isPart
    if Cypher.Identifier.isPlain name then String.ofList name :: names rest else names rest
  | _ :: rest => names rest

/-- The distinct placeholders of the text, in order of their names. -/
def placeholders (q : Query) : List String :=
  Fields.names (Fields.ofList ((names q.text.toList).map fun name => (name, ())))

/-- The placeholders without a parameter. -/
def unbound (q : Query) : List String :=
  q.placeholders.filter fun name => !q.parameters.has name

/-- The query as a value. -/
def toValue (q : Query) : Value :=
  .object
    [("columns", .array (q.columns.map .string)), ("params", .object q.parameters),
      ("text", .string q.text)]

/-- Reads a query from a value. -/
def ofValue? : Value → Option Query
  | .object fields => do
    let text ← (← fields.lookup "text").asString?
    let .object parameters ← fields.lookup "params" | none
    let .array columns ← fields.lookup "columns" | none
    return { text, parameters, columns := ← columns.mapM Value.asString? }
  | _ => none

end Query

namespace Cypher

/-! ### Steps -/

/-- A change to the properties of a bound variable. -/
inductive Change where
  /-- All properties are replaced by those of a map. -/
  | replace (binder parameter : String)
  /-- The properties of a map are added, replacing those of the same name. -/
  | extend (binder parameter : String)
  | assign (p : Property) (value : Term)
deriving DecidableEq, Repr

def Change.text : Change → String
  | .replace binder parameter => binder ++ " = $" ++ parameter
  | .extend binder parameter => binder ++ " += $" ++ parameter
  | .assign p value => p.text ++ " = " ++ value.text

/-- The name of a result column; a quoted one is written like any other name. -/
inductive ColumnName where
  | verbatim (name : String)
  | quoted (name : String)
deriving DecidableEq, Repr

def ColumnName.text : ColumnName → String
  | .verbatim name => name
  | .quoted name => Identifier.quote name

/-- What a result column holds. -/
inductive Projection where
  | bound (name : String)
  /-- All properties of a node or an edge. -/
  | properties (binder : String)
  | property (p : Property)
  /-- Number of rows in which a variable is not null. -/
  | count (binder : String)
  /-- Whether that number is positive. -/
  | anyRow (binder : String)
  /-- An aggregate function of the rows, with an optional second argument. -/
  | aggregate (function : String) (target : Term) (extra : Option Term)
  | truth
  /-- The number one. -/
  | one
deriving DecidableEq, Repr

def Projection.text : Projection → String
  | .bound name => name
  | .properties binder => binder ++ " \x7b.*\x7d"
  | .property p => p.text
  | .count binder => "count(" ++ binder ++ ")"
  | .anyRow binder => "count(" ++ binder ++ ") > 0"
  | .aggregate function target none => function ++ "(" ++ target.text ++ ")"
  | .aggregate function target (some extra) =>
    function ++ "(" ++ target.text ++ ", " ++ extra.text ++ ")"
  | .truth => "true"
  | .one => "1"

/-- One column of a result, or of the rows passed on. -/
structure Item where
  value : Projection
  name : Option ColumnName
deriving DecidableEq, Repr

def Item.text (item : Item) : String :=
  match item.name with
  | none => item.value.text
  | some name => item.value.text ++ " AS " ++ name.text

/-- A column with a name that needs no quotes. -/
def Item.named (value : Projection) (name : String) : Item :=
  ⟨value, some (.verbatim name)⟩

/-- Sort order of a column. -/
inductive SortDirection where
  | ascending
  | descending
deriving DecidableEq, Repr

def SortDirection.text : SortDirection → String
  | .ascending => "ASC"
  | .descending => "DESC"

def SortDirection.reversed : SortDirection → SortDirection
  | .ascending => .descending
  | .descending => .ascending

/-- A sort key of a statement. -/
structure SortKey where
  property : Property
  direction : SortDirection
deriving DecidableEq, Repr

def SortKey.text (key : SortKey) : String :=
  key.property.text ++ " " ++ key.direction.text

/-- One step of a statement. -/
inductive Step where
  | find (m : Match Expr)
  /-- A condition on its own, for a statement whose match is written by the caller. -/
  | condition (e : Expr)
  | unwind (parameter binder : String)
  | create (pattern : Pattern)
  | set (changes : List Change)
  | delete (binder : String)
  /-- Deletes a node together with its edges. -/
  | detachDelete (binder : String)
  /-- Passes on the rows with these columns only. -/
  | carry (items : List Item)
  | project (distinct : Bool) (items : List Item)
  | sort (keys : List SortKey)
  | skip (count : Nat)
  | limit (count : Nat)
deriving Repr

def Step.text : Step → String
  | .find m => Match.text m
  | .condition e => "WHERE " ++ e.text
  | .unwind parameter binder => "UNWIND $" ++ parameter ++ " AS " ++ binder
  | .create pattern => "CREATE " ++ pattern.text
  | .set changes => "SET " ++ ", ".intercalate (changes.map Change.text)
  | .delete binder => "DELETE " ++ binder
  | .detachDelete binder => "DETACH DELETE " ++ binder
  | .carry items => "WITH " ++ ", ".intercalate (items.map Item.text)
  | .project distinct items =>
    (if distinct then "RETURN DISTINCT " else "RETURN ") ++
      ", ".intercalate (items.map Item.text)
  | .sort keys => "ORDER BY " ++ ", ".intercalate (keys.map SortKey.text)
  | .skip count => "SKIP " ++ toString count
  | .limit count => "LIMIT " ++ toString count

/-! ### Statements -/

/-- A statement with the values of its parameters and the columns of its rows. -/
structure Statement where
  steps : List Step
  parameters : Row := []
  columns : List String := []
deriving Repr

/-- The written form of steps: one after the other. -/
def stepsText (steps : List Step) : String :=
  " ".intercalate (steps.map Step.text)

/-- The query that a statement stands for. -/
def Statement.query (s : Statement) : Query :=
  { text := stepsText s.steps, parameters := s.parameters, columns := s.columns }

end Cypher

end GraphMapper
