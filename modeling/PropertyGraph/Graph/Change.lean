import PropertyGraph.Graph

/-!
# Changing a graph

Adding, updating and deleting nodes and edges.  Each function checks its arguments in full before
it builds the new graph, so a change that fails leaves nothing behind.  An update or a deletion of
something that is not there is no failure: it gives nothing.

An edge is deleted by a value that identifies it (`deleteEdge`), or by the very identifier that the
edge at some place holds (`deleteHeld`), which finds the edge even if it is elusive.
-/

namespace PropertyGraph.Graph

/-! ### Nodes -/

/-- Checks that a value may become the identifier of a node. -/
def requireNodeId : Value → Result Unit
  | .null => .error .nullNode
  | id => requireKey id

/-- Adds a node. -/
def addNode (schema : Option Schema) (g : Graph) (n : Node) : Result Graph := do
  if g.hasNode n.id then throw (.duplicate .node n.id)
  checkNode schema n
  requireNodeId n.id
  return { g with nodes := g.nodes ++ [n] }

/-- Puts a node in the place of the one with an identifier. -/
def replaceNode (g : Graph) (id : Value) (n : Node) : Graph :=
  { g with nodes := g.nodes.map fun m => if m.id.sameKey id then n else m }

/-- The changes of an update of an entity, which must be a record.  Where some name is no text, the
first one that the entity may not be updated by is refused. -/
def requireChanges (updatable : List String) (type : Value) (cls : EntityClass) :
    Value → Result (Record Value)
  | .record changes => .ok changes
  | .mapping changes =>
    let allowed := (Entity.fixed ++ updatable).map Value.text
    match changes.find? fun p => !allowed.any p.1.sameKey with
    | some p => .error (.unknownProperty p.1 type cls)
    | none => .ok (Fields.named changes)
  | _ => .error (.misfit .notRecord)

/-- Updates the node with an identifier, if it is there; gives the changes and the new node too. -/
def updateNode (schema : Option Schema) (g : Graph) (id changes : Value) :
    Result (Option (Graph × Node × Record Value)) :=
  match g.node? id with
  | none => .ok none
  | some n => do
    let changes ← requireChanges Node.updatable n.type .node changes
    let m ← n.updated changes
    checkNode schema m
    return some (g.replaceNode id m, m, changes)

/-- Deletes the node with an identifier and the edges that touch it, if it is there; gives the
identifiers of those edges too. -/
def deleteNode (g : Graph) (id : Value) : Option (Graph × List Value) :=
  if g.hasNode id then
    some ({
      nodes := g.nodes.filter fun n => !n.id.sameKey id
      edges := g.edges.filter fun e => !touches e id
      adjacency := g.adjacency.dropNode id }, (g.edgesOf id).map (·.id))
  else none

/-! ### Edges -/

/-- Adds an edge. -/
def addEdge (schema : Option Schema) (g : Graph) (e : Edge) : Result Graph := do
  requireKey e.id
  if g.hasEdge e.id then throw (.duplicate .edge e.id)
  g.checkEdge schema e .null
  return { g with edges := g.edges ++ [e], adjacency := g.adjacency.link e.id e }

/-- Puts an edge in the place of another one, and links it anew. -/
def replaceEdge (g : Graph) (id : Value) (old new : Edge) : Graph :=
  { g with
    edges := g.edges.map fun e => if e.id.sameKey id then new else e
    adjacency := (g.adjacency.unlink old).link id new }

/-- Updates the edge with an identifier, if it is there; gives the changes and the new edge too. -/
def updateEdge (schema : Option Schema) (g : Graph) (id changes : Value) :
    Result (Option (Graph × Edge × Record Value)) := do
  requireKey id
  match g.edge? id with
  | none => return none
  | some e =>
    let changes ← requireChanges Edge.updatable e.type .edge changes
    let f ← e.updated changes
    g.checkEdge schema f id
    return some (g.replaceEdge id e f, f, changes)

/-- A graph without an edge that it holds. -/
def removeEdge (g : Graph) (id : Value) (e : Edge) : Graph :=
  { g with
    edges := g.edges.filter fun f => !f.id.sameKey id
    adjacency := g.adjacency.unlink e }

/-- Deletes the edge with an identifier, if it is there; where there are no edges, any value will
do for the identifier. -/
def deleteEdge (g : Graph) (id : Value) : Result (Option Graph) := do
  unless g.edges.isEmpty do requireKey id
  return (g.edge? id).map (g.removeEdge id)

/-- How many edges before a place join the same ends as an edge, and are elusive. -/
def elusiveBefore (g : Graph) (place : Nat) (e : Edge) : Nat :=
  (g.edges.take place).countP fun f =>
    f.id.elusive && (f.source.sameKey e.source && f.target.sameKey e.target)

/-- A graph without the edge at a place, which is found by the identifier that it holds. -/
def removeHeld (g : Graph) (place : Nat) (e : Edge) : Graph :=
  if e.id.elusive then
    { g with
      edges := g.edges.eraseIdx place
      adjacency := g.adjacency.unlinkBy (Link.removeElusive (g.elusiveBefore place e)) e }
  else g.removeEdge e.id e

/-- Deletes the edge at a place, if there is one; gives its identifier too. -/
def deleteHeld (g : Graph) (place : Nat) : Option (Graph × Value) :=
  g.edges[place]?.map fun e => (g.removeHeld place e, e.id)

/-! ### Documents -/

/-- A document, which must be a record; only what is named by a text counts. -/
def requireDocument : Value → Result (Record Value)
  | .record document => .ok document
  | .mapping document => .ok (Fields.named document)
  | _ => .error (.misfit .notRecord)

/-- The values that a document lists under a name, which may be left out. -/
def entriesOf (document : Record Value) (name : String) : Result (List Value) :=
  ((Record.get? document name).getD (.list [])).members

/-- Reads a node and adds it. -/
def loadNode (schema : Option Schema) (g : Graph) (v : Value) : Result Graph := do
  g.addNode schema (← Node.ofValue v)

/-- Reads an edge and adds it. -/
def loadEdge (schema : Option Schema) (g : Graph) (v : Value) : Result Graph := do
  g.addEdge schema (← Edge.ofValue v)

/-- Adds the nodes and then the edges of a document. -/
def load (schema : Option Schema) (g : Graph) (document : Value) : Result Graph := do
  let document ← requireDocument document
  let g ← (← entriesOf document "nodes").foldlM (loadNode schema) g
  (← entriesOf document "edges").foldlM (loadEdge schema) g

end PropertyGraph.Graph
