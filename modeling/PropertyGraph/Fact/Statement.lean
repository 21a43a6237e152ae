import PropertyGraph.Entity
import PropertyGraph.Schema.Check

/-!
# Statements

A graph as text: one line `type(argument, …).` for each node and each edge whose type the schema
declares, nodes first.  The arguments are the identifier of the node, or those of the two ends of
the edge, and then the values of the declared fields in order of declaration.  A text is written
between double quotes, with double quotes and backslashes escaped; numbers and truth values are
written plainly, and whatever else there is becomes an underscore.

As the texts of a graph may hold halves of pairs, what is written is a list of points.  An integer
with too many digits is not written.
-/

namespace PropertyGraph

/-- An argument of a statement. -/
inductive Argument where
  | text (ps : List Text.Point)
  /-- A number, a truth value or the underscore, as it is written. -/
  | token (s : String)
deriving DecidableEq, Repr

/-- A line about one entity. -/
structure Statement where
  type : String
  arguments : List Argument
deriving DecidableEq, Repr

/-- An integer as a token. -/
def integerToken (n : Int) : Result String :=
  if Value.longInteger n then .error .unwrittenInteger else .ok (toString n)

/-- A double as a token: exactly where it is an integer, and by its shortest digits elsewhere. -/
def floatToken (x : Float) : String :=
  match (Exact.ofFloat x).integer? with
  | some n => toString n
  | none => Value.floatText x

namespace Value

/-- The points of a text. -/
def points? : Value → Option (List Text.Point)
  | .text s => some (s.toList.map .char)
  | .points ps => some ps
  | _ => none

/-- A value that is no text as a token. -/
def token : Value → Result String
  | .bool b => .ok (if b then "true" else "false")
  | .int n => integerToken n
  | .float x => .ok (floatToken x)
  | _ => .ok "_"

/-- A value as an argument. -/
def argument (v : Value) : Result Argument :=
  match v.points? with
  | some ps => .ok (.text ps)
  | none => v.token.map .token

end Value

namespace Argument

/-- One point of a text between the quotes. -/
def escaped (p : Text.Point) : List Text.Point :=
  if p = .char '\\' ∨ p = .char Text.doubleQuote then [.char '\\', p] else [p]

/-- The points of an argument. -/
def points : Argument → List Text.Point
  | .text ps =>
    .char Text.doubleQuote :: (ps.flatMap escaped ++ [.char Text.doubleQuote])
  | .token s => s.toList.map .char

end Argument

/-- A value as it is written in a statement. -/
def Value.rendered (v : Value) : Result (List Text.Point) := v.argument.map Argument.points

namespace Statement

/-- The points of a statement. -/
def points (s : Statement) : List Text.Point :=
  s.type.toList.map .char ++ .char '(' ::
    ([.char ',', .char ' '].intercalate (s.arguments.map Argument.points) ++
      [.char ')', .char '.'])

/-- The values of the declared fields in some data; a field that is not there is null. -/
def fieldValues (fields : Record Kind) (data : Fields) : List Value :=
  (Record.keys fields).map fun name => (data.get? name).getD .null

/-- The statement that says something of values. -/
def ofValues (type : String) (values : List Value) : Result Statement := do
  return ⟨type, ← values.mapM Value.argument⟩

/-- The statement about an entity of a type, if the type is declared. -/
def ofDeclared? (types : Record α) (type : Value) (values : α → List Value) :
    Result (Option Statement) := do
  match ← Schema.declared? types type with
  | none => return none
  | some (name, t) => return some (← ofValues name (values t))

def ofNode? (s : Schema) (n : Node) : Result (Option Statement) :=
  ofDeclared? s.nodeTypes n.type fun t => n.id :: fieldValues t.fields n.data

def ofEdge? (s : Schema) (e : Edge) : Result (Option Statement) :=
  ofDeclared? s.edgeTypes e.type fun t => e.source :: e.target :: fieldValues t.fields e.data

/-- The statements about nodes and edges, in order. -/
def ofGraph (s : Schema) (nodes : List Node) (edges : List Edge) : Result (List Statement) := do
  let ns ← nodes.mapM (ofNode? s)
  let es ← edges.mapM (ofEdge? s)
  return ns.filterMap id ++ es.filterMap id

/-- Statements as a text, one a line. -/
def render (ss : List Statement) : List Text.Point :=
  [.char '\n'].intercalate (ss.map points)

end Statement

/-- The text of a graph. -/
def renderGraph (s : Schema) (nodes : List Node) (edges : List Edge) :
    Result (List Text.Point) := do
  return Statement.render (← Statement.ofGraph s nodes edges)

end PropertyGraph
