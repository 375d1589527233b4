import GraphMapper.Cypher.Identifier

/-!
Conditions and patterns of the query language, as syntax trees.

* `Direction`, `Node`, `Edge`, `Pattern`: what a match looks for;
* `Comparison`, `Term`, `Connective`: the parts of conditions;
* `Expr`: conditions, with existential subqueries made of `Match`es;
* `Expr.text` and the other `text` functions: the written form.

A condition keeps the parentheses that are written, so the tree says no more than the text does: a
`join` reads as one operator of a chain, to be grouped by precedence.
-/

namespace GraphMapper.Cypher

/-! ### Patterns -/

/-- Direction of an edge as seen from its left node. -/
inductive Direction where
  | outgoing
  | incoming
  | both
deriving DecidableEq, Repr

namespace Direction

/-- The name of a direction. -/
def name : Direction → String
  | .outgoing => "outgoing"
  | .incoming => "incoming"
  | .both => "both"

/-- The direction of a name. -/
def ofName? (text : String) : Option Direction :=
  [outgoing, incoming, both].find? (·.name = text)

end Direction

/-- A node in a pattern: a variable, introduced with a label or bound before. -/
structure Node where
  binder : String
  label : Option String
deriving DecidableEq, Repr

/-- An edge in a pattern; an empty variable binds nothing. -/
structure Edge where
  binder : String
  edgeType : String
  direction : Direction
deriving DecidableEq, Repr

/-- A single node, or two nodes with an edge between them. -/
inductive Pattern where
  | node (n : Node)
  | path (left : Node) (edge : Edge) (right : Node)
deriving DecidableEq, Repr

/-- The last node of a pattern. -/
def Pattern.target : Pattern → Node
  | .node n => n
  | .path _ _ right => right

def Node.text (n : Node) : String :=
  match n.label with
  | none => "(" ++ n.binder ++ ")"
  | some label => "(" ++ n.binder ++ ":" ++ Identifier.quote label ++ ")"

def Edge.text (e : Edge) : String :=
  let body := e.binder ++ ":" ++ Identifier.quote e.edgeType
  match e.direction with
  | .outgoing => "-[" ++ body ++ "]->"
  | .incoming => "<-[" ++ body ++ "]-"
  | .both => "-[" ++ body ++ "]-"

def Pattern.text : Pattern → String
  | .node n => n.text
  | .path left edge right => left.text ++ edge.text ++ right.text

/-! ### Conditions -/

/-- The six comparisons of two values. -/
inductive Comparison where
  | eq
  | ne
  | lt
  | le
  | gt
  | ge
deriving DecidableEq, Repr

def Comparison.text : Comparison → String
  | .eq => "="
  | .ne => "<>"
  | .lt => "<"
  | .le => "<="
  | .gt => ">"
  | .ge => ">="

/-- A value inside a condition. -/
inductive Term where
  | property (p : Property)
  | parameter (name : String)
  | bound (name : String)
  /-- The lowercase form of a text. -/
  | lowered (t : Term)
deriving DecidableEq, Repr

def Term.text : Term → String
  | .property p => p.text
  | .parameter name => "$" ++ name
  | .bound name => name
  | .lowered t => "toLower(" ++ t.text ++ ")"

/-- A test of two values. -/
inductive Test where
  | compare (c : Comparison)
  /-- Membership in a list. -/
  | among
  | startsWith
  | endsWith
  | contains
  /-- The whole text matches a regular expression. -/
  | matching
deriving DecidableEq, Repr

def Test.text : Test → String
  | .compare c => c.text
  | .among => "IN"
  | .startsWith => "STARTS WITH"
  | .endsWith => "ENDS WITH"
  | .contains => "CONTAINS"
  | .matching => "=~"

/-- The two connectives of a chain. -/
inductive Connective where
  | and
  | or
deriving DecidableEq, Repr

def Connective.text : Connective → String
  | .and => "AND"
  | .or => "OR"

/-- A piece of text written by hand: a character, or a parameter put in a marked place. -/
inductive Piece where
  | char (c : Char)
  | parameter (name : String)
deriving DecidableEq, Repr

def Piece.text : Piece → String
  | .char c => c.toString
  | .parameter name => "$" ++ name

/-- One match: a pattern and the conditions that its rows fulfil together. -/
structure Match (ε : Type) where
  pattern : Pattern
  conditions : List ε
deriving Repr

/-- A condition. -/
inductive Expr where
  | constant (b : Bool)
  | isNull (p : Property)
  | isNotNull (p : Property)
  | test (left : Term) (t : Test) (right : Term)
  /-- Text written by hand. -/
  | raw (pieces : List Piece)
  /-- Whether the matches have a row. -/
  | subquery (route : List (Match Expr))
  /-- Negation of the next operand. -/
  | not (e : Expr)
  /-- A condition in parentheses. -/
  | group (e : Expr)
  /-- A chain, continued by one operand. -/
  | join (chain : Expr) (c : Connective) (e : Expr)
deriving Repr, Inhabited

mutual

/-- The written form of a condition. -/
def Expr.text : Expr → String
  | .constant true => "true"
  | .constant false => "false"
  | .isNull p => p.text ++ " IS NULL"
  | .isNotNull p => p.text ++ " IS NOT NULL"
  | .test left t right => left.text ++ " " ++ t.text ++ " " ++ right.text
  | .raw pieces => String.join (pieces.map Piece.text)
  | .subquery route => "EXISTS \x7b " ++ routeText route ++ " \x7d"
  | .not e => "NOT " ++ e.text
  | .group e => "(" ++ e.text ++ ")"
  | .join chain c e => chain.text ++ " " ++ c.text ++ " " ++ e.text

/-- Matches one after the other. -/
def routeText : List (Match Expr) → String
  | [] => ""
  | [m] => Match.text m
  | m :: rest => Match.text m ++ " " ++ routeText rest

/-- The written form of a match; without conditions there is no `WHERE`. -/
def Match.text : Match Expr → String
  | ⟨pattern, []⟩ => "MATCH " ++ pattern.text
  | ⟨pattern, e :: rest⟩ => "MATCH " ++ pattern.text ++ " WHERE " ++ conditionsText (e :: rest)

/-- Conditions that hold together. -/
def conditionsText : List Expr → String
  | [] => ""
  | [e] => e.text
  | e :: rest => e.text ++ " AND " ++ conditionsText rest

end

/-- Equality of a property with a value. -/
def Expr.equals (p : Property) (value : Term) : Expr :=
  .test (.property p) (.compare .eq) value

/-- Membership of a property in a list parameter. -/
def Expr.oneOf (p : Property) (parameter : String) : Expr :=
  .test (.property p) .among (.parameter parameter)

end GraphMapper.Cypher
