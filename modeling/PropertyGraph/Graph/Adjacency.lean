import PropertyGraph.Entity
import PropertyGraph.Value.Key

/-!
# Adjacency

Which nodes are connected, and in what order.  All links from one node to another form a *bundle*,
which takes its place when the first of them is made and leaves it when the last one goes.  The
neighbours of a node are the targets of the bundles that leave it, its predecessors the sources of
those that enter it, each in the order of the bundles.

A link is kept under the identifier of its edge.  A null identifier names no link: such an edge is
linked under a number that is free, and unlinking it takes away the last link of the bundle.  Links
under elusive identifiers are told apart by their order, which is that of their edges.
-/

namespace PropertyGraph

/-- An edge in a bundle, with the key that it is kept under. -/
structure Link where
  key : Value
  edge : Edge

/-- All links from one node to another. -/
structure Bundle where
  source : Value
  target : Value
  links : List Link

/-- The bundles of a graph, in the order in which they were opened. -/
abbrev Adjacency := List Bundle

namespace Bundle

/-- Whether a bundle runs from one node to another. -/
def joins (b : Bundle) (source target : Value) : Bool :=
  b.source.sameKey source && b.target.sameKey target

/-- The node at one end. -/
def endpoint (b : Bundle) : Side → Value
  | .source => b.source
  | .target => b.target

end Bundle

namespace Link

/-- The first number, counted from the number of links, that is no key; one of the numbers up to
twice that many is none. -/
def freeNumber (links : List Link) : Value :=
  let candidates := (List.range (links.length + 1)).map fun i =>
    Value.int (Int.ofNat (links.length + i))
  (candidates.find? fun v => !links.any fun l => l.key.sameKey v).getD (.int links.length)

/-- The key for a new link. -/
def keyFor (links : List Link) : Value → Value
  | .null => freeNumber links
  | key => key

/-- Puts a link in place of one with the same key, or at the end. -/
def put (links : List Link) (l : Link) : List Link :=
  if links.any fun m => m.key.sameKey l.key then
    links.map fun m => if m.key.sameKey l.key then { m with edge := l.edge } else m
  else links ++ [l]

/-- Takes away the link with a key, or the last one where the key is null. -/
def remove (links : List Link) : Value → List Link
  | .null => links.dropLast
  | key => links.filter fun l => !l.key.sameKey key

/-- Takes away one of the links whose keys are elusive, by its number among them. -/
def removeElusive : Nat → List Link → List Link
  | _, [] => []
  | n, l :: rest =>
    if l.key.elusive then
      match n with
      | 0 => rest
      | n + 1 => l :: removeElusive n rest
    else l :: removeElusive n rest

end Link

namespace Adjacency

/-- Links an edge under a key, in its bundle or in a new one at the end. -/
def link (key : Value) (e : Edge) : Adjacency → Adjacency
  | [] => [⟨e.source, e.target, [⟨Link.keyFor [] key, e⟩]⟩]
  | b :: rest =>
    if b.joins e.source e.target then
      { b with links := Link.put b.links ⟨Link.keyFor b.links key, e⟩ } :: rest
    else b :: link key e rest

/-- Takes links out of the bundle that joins the ends of an edge; a bundle that has no link left
goes. -/
def unlinkBy (remove : List Link → List Link) (e : Edge) : Adjacency → Adjacency
  | [] => []
  | b :: rest =>
    if b.joins e.source e.target then
      match remove b.links with
      | [] => rest
      | links => { b with links } :: rest
    else b :: unlinkBy remove e rest

/-- Takes an edge out of its bundle. -/
def unlink (e : Edge) : Adjacency → Adjacency := unlinkBy (fun links => Link.remove links e.id) e

theorem unlink_cons (e : Edge) (b : Bundle) (rest : Adjacency) :
    unlink e (b :: rest) = if b.joins e.source e.target then
      match Link.remove b.links e.id with
      | [] => rest
      | links => { b with links } :: rest
    else b :: unlink e rest := rfl

/-- Takes away every bundle that leaves or enters a node. -/
def dropNode (id : Value) (a : Adjacency) : Adjacency :=
  a.filter fun b => !b.source.sameKey id && !b.target.sameKey id

/-- The bundles with a node at one end. -/
def bundlesAt (a : Adjacency) (side : Side) (id : Value) : List Bundle :=
  a.filter fun b => (b.endpoint side).sameKey id

/-- The nodes that a node has an edge to. -/
def neighbors (a : Adjacency) (id : Value) : List Value := (a.bundlesAt .source id).map (·.target)

/-- The nodes that have an edge to a node. -/
def predecessors (a : Adjacency) (id : Value) : List Value :=
  (a.bundlesAt .target id).map (·.source)

/-- The links with a node at one end, bundle by bundle. -/
def linksAt (a : Adjacency) (side : Side) (id : Value) : List Link :=
  (a.bundlesAt side id).flatMap (·.links)

/-- All links, bundle by bundle. -/
def links (a : Adjacency) : List Link := a.flatMap (·.links)

end Adjacency

end PropertyGraph
