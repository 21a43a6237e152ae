import PropertyGraph.Entity
import PropertyGraph.Value.Key
import PropertyGraph.Embedding.Vector

/-!
# Soft links

Connections that are only suggested.  Two nodes with vectors are linked when the vectors are more
similar than a threshold, each pair once and from the earlier node to the later one; and a node is
linked to another one whose identifier is the value of one of its fields.  Links by similarity come
first.
-/

namespace PropertyGraph

/-- Why two nodes may belong together. -/
inductive SoftLink.Reason where
  | similarity (score : Float)
  /-- The value of the field with this label is the identifier of the other node. -/
  | reference (property : Value)

/-- A suggested connection. -/
structure SoftLink where
  source : Value
  target : Value
  reason : SoftLink.Reason

namespace SoftLink

/-- Whether a score lies above a threshold, which must be a number. -/
def exceeds (score : Float) (threshold : Value) : Result Bool :=
  match threshold.number? with
  | some t => .ok (t.less (.ofFloat score))
  | none => .error (.misfit .notComparable)

/-- A node that has a vector, with it. -/
def embedded? (n : Node) : Option (Node × Value) :=
  n.embedding.map fun xs => (n, .tuple xs)

/-- The link between two nodes with vectors, if their score is high enough. -/
def similar? (score : Value → Value → Result Float) (threshold : Value) (a b : Node × Value) :
    Result (Option SoftLink) := do
  let s ← score a.2 b.2
  return if ← exceeds s threshold then some ⟨a.1.id, b.1.id, .similarity s⟩ else none

/-- All pairs of an item with a later one, in order. -/
def pairs : List α → List (α × α)
  | [] => []
  | a :: rest => rest.map (fun b => (a, b)) ++ pairs rest

/-- The links by similarity. -/
def bySimilarity (score : Value → Value → Result Float) (threshold : Value) (nodes : List Node) :
    Result (List SoftLink) := do
  let links ← (pairs (nodes.filterMap embedded?)).mapM fun p => similar? score threshold p.1 p.2
  return links.filterMap id

/-- Whether a value is the identifier of a node other than `n`. -/
def refersTo (nodes : List Node) (n : Node) (v : Value) : Bool :=
  match v with
  | .text _ | .points _ => nodes.any (fun m => m.id.sameKey v) && !n.id.sameKey v
  | _ => false

/-- The links from the fields of a node. -/
def ofFields (nodes : List Node) (n : Node) : List SoftLink :=
  (n.data.filter fun p => refersTo nodes n p.2).map fun p => ⟨n.id, p.2, .reference p.1⟩

/-- The links by reference; every identifier must be able to identify. -/
def byReference (nodes : List Node) : Result (List SoftLink) :=
  if nodes.all fun n => n.id.identifies then .ok (nodes.flatMap (ofFields nodes))
  else .error (.misfit .noKey)

/-- The links between nodes, by a score for two vectors. -/
def linksBy (score : Value → Value → Result Float) (threshold : Value) (nodes : List Node) :
    Result (List SoftLink) := do
  let similar ← bySimilarity score threshold nodes
  let referring ← byReference nodes
  return similar ++ referring

/-- The links between nodes. -/
def links (threshold : Value) (nodes : List Node) : Result (List SoftLink) :=
  linksBy Embedding.similarity threshold nodes

end SoftLink

end PropertyGraph
