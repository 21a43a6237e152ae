import PropertyGraph.Graph.Adjacency
import PropertyGraph.Schema.Check

/-!
# Graphs

A graph keeps its nodes and its edges, each in the order in which they were added, and beside them
the adjacency of its nodes.  Entities are looked up by their identifiers; two of them that identify
the same thing are one.

An edge may be added, or moved, when both of its ends are there, when its type and data and the
types of its ends are what the schema declares, and when no other edge of its type crowds a side
that takes only one.  `Graph.checkEdge` checks this in that order.
-/

namespace PropertyGraph

/-- Nodes and edges with their adjacency. -/
structure Graph where
  nodes : List Node
  edges : List Edge
  adjacency : Adjacency

namespace Graph

/-- A graph without nodes. -/
def empty : Graph := ⟨[], [], []⟩

/-! ### Looking things up -/

/-- The node with an identifier. -/
def node? (g : Graph) (id : Value) : Option Node := g.nodes.find? fun n => n.id.sameKey id

/-- The edge with an identifier. -/
def edge? (g : Graph) (id : Value) : Option Edge := g.edges.find? fun e => e.id.sameKey id

/-- Whether there is a node with an identifier. -/
def hasNode (g : Graph) (id : Value) : Bool := (g.node? id).isSome

/-- Whether there is an edge with an identifier. -/
def hasEdge (g : Graph) (id : Value) : Bool := (g.edge? id).isSome

/-- Whether an edge starts or ends at a node. -/
def touches (e : Edge) (id : Value) : Bool := e.source.sameKey id || e.target.sameKey id

/-- The edges that start or end at a node, in their order. -/
def edgesOf (g : Graph) (id : Value) : List Edge := g.edges.filter fun e => touches e id

/-- The nodes that a node has an edge to. -/
def neighbors (g : Graph) (id : Value) : List Value :=
  if g.hasNode id then g.adjacency.neighbors id else []

/-- The nodes that have an edge to a node. -/
def predecessors (g : Graph) (id : Value) : List Value :=
  if g.hasNode id then g.adjacency.predecessors id else []

/-- The type of a node, or null when there is no such node. -/
def typeOf (g : Graph) (id : Value) : Value :=
  match g.node? id with
  | some n => n.type
  | none => .null

/-- The facts of all nodes and then of all edges. -/
def facts (g : Graph) : List Fields := g.nodes.map Node.toFact ++ g.edges.map Edge.toFact

/-- A graph as a document. -/
def toValue (g : Graph) : Value :=
  .record [
    ("nodes", .list (g.nodes.map Node.toValue)),
    ("edges", .list (g.edges.map Edge.toValue))]

/-! ### Checking an edge -/

/-- Something that must be able to identify. -/
def requireKey (id : Value) : Result Unit :=
  if id.identifies then .ok () else .error (.misfit .noKey)

/-- The ends of an edge that are not there, the source first. -/
def missingEnds (g : Graph) (e : Edge) : List Value :=
  [e.source, e.target].filter fun id => !g.hasNode id

/-- Whether a value is a text. -/
def isText : Value → Bool
  | .text _ | .points _ => true
  | _ => false

/-- The fault of an edge whose ends are not all there; ends that are no texts cannot be named. -/
def endsFault? (g : Graph) (e : Edge) : Option Failure :=
  match g.missingEnds e with
  | [] => none
  | missing =>
    if missing.all isText then some (.missingEndpoints e.id missing)
    else some (.misfit .notText)

/-- The edge that counts for a link: the one that it carries; or, where that one has no identifier,
the one whose identifier is the number that the link is kept under. -/
def linkedEdge? (g : Graph) (l : Link) : Option Edge :=
  match l.edge.id with
  | .null => g.edge? l.key
  | _ => some l.edge

/-- The fault of a link that an edge meets on one side: it is of the same type, or no edge counts
for it. -/
def linkFault? (g : Graph) (e : Edge) (side : Side) (ignored : Value) (l : Link) :
    Option Failure :=
  if l.key.eqv ignored then none
  else
    match g.linkedEdge? l with
    | none => some (.missingKey l.key)
    | some f =>
      if f.type.eqv e.type then some (.cardinality e.type side (e.endpoint side) l.key) else none

/-- The fault of an edge on a side that takes only one of its type; the link under the key
`ignored` does not count. -/
def crowdFault? (g : Graph) (e : Edge) (side : Side) (ignored : Value) : Option Failure :=
  (g.adjacency.linksAt side (e.endpoint side)).findSome? (g.linkFault? e side ignored)

/-- The fault of an edge on the sides that take only one, the source first. -/
def cardinalityFault? (g : Graph) (t : EdgeType) (e : Edge) (ignored : Value) : Option Failure :=
  (if t.source.multiple then none else g.crowdFault? e .source ignored).or
    (if t.target.multiple then none else g.crowdFault? e .target ignored)

/-- Checks an edge; the link under the key `ignored` does not crowd any side. -/
def checkEdge (g : Graph) (schema : Option Schema) (e : Edge) (ignored : Value) :
    Result Unit := do
  Schema.refuse (g.endsFault? e)
  match schema with
  | none => return ()
  | some s =>
    let t ← s.checkEdge e.type (.ofFields e.data) (g.typeOf e.source) (g.typeOf e.target)
    Schema.refuse (g.cardinalityFault? t e ignored)

/-- Checks the type and the data of a node. -/
def checkNode (schema : Option Schema) (n : Node) : Result Unit := do
  match schema with
  | none => return ()
  | some s =>
    let _ ← s.checkNode n.type (.ofFields n.data)
    return ()

end Graph

end PropertyGraph
