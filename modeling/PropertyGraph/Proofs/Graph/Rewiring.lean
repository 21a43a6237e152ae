import PropertyGraph.Proofs.Graph.Document
import PropertyGraph.Proofs.Graph.Loading

/-!
# Rewiring

An edge that is updated stays where it is in the list of edges, and its link is taken out of the
adjacency and made anew.  The checks come first, while the old link is still there and must not
count.  Deleting the edge and adding the new one is another way to the same end: the checks come
between, and look at a graph without the old edge.

Both ways check the same (`Valid.checkEdge_removeEdge`), because the old link is the only one that
is gone, and the others keep their order (`Valid.linksAt_unlink`).  So one way is open just when the
other is, and fails as the other does (`Valid.updateEdge_eq`, `Valid.readdEdge_eq`); what comes of
them differs in the place of the edge only (`Valid.rewired`).
-/

namespace PropertyGraph

/-! ### Links at a node -/

/-- The node at one end of an entry. -/
def Entry.endpoint (x : Entry) : Side → Value
  | .source => x.source
  | .target => x.target

/-- An entry without its ends. -/
def Entry.link (x : Entry) : Link := ⟨x.key, x.edge⟩

namespace Adjacency

/-- The links at a node are those of the entries with this end, in their order. -/
theorem linksAt_eq (a : Adjacency) (side : Side) (id : Value) :
    a.linksAt side id =
      (a.entries.filter fun x => (x.endpoint side).sameKey id).map Entry.link := by
  induction a with
  | nil => rfl
  | cons b rest ih =>
    have hend : ∀ x ∈ b.entries, x.endpoint side = b.endpoint side := by
      intro x hx
      obtain ⟨l, -, rfl⟩ := List.mem_map.1 hx
      cases side <;> rfl
    have hlinks : b.entries.map Entry.link = b.links := by
      rw [Bundle.entries, List.map_map]
      exact List.map_id _
    have hfirst : b.entries.filter (fun x => (x.endpoint side).sameKey id) =
        if (b.endpoint side).sameKey id then b.entries else [] := by
      split
      · rename_i hkey
        exact List.filter_eq_self.2 fun x hx => hend x hx ▸ hkey
      · rename_i hkey
        exact List.filter_eq_nil_iff.2 fun x hx => hend x hx ▸ hkey
    rw [linksAt_cons, entries_cons, List.filter_append, List.map_append, ← ih, hfirst]
    split
    · rw [hlinks]
    · rfl

end Adjacency

/-- What is found first among some of many things, when the others are passed over. -/
theorem findSome?_filter {α β : Type} (p : α → Bool) (f : α → Option β) (l : List α) :
    (l.filter p).findSome? f = l.findSome? fun x => if p x then f x else none := by
  induction l with
  | nil => rfl
  | cons x rest ih =>
    rw [List.filter_cons, List.findSome?_cons]
    cases p x with
    | true => rw [if_pos rfl, if_pos rfl, List.findSome?_cons, ih]
    | false => exact ih

namespace Graph

/-- A graph with a new edge `f` for an old one `e`: in `updated` the new edge was put in place of
the old one, in `readded` the old one was deleted first. -/
structure Rewired (g : Graph) (e f : Edge) (updated readded : Graph) : Prop where
  adjacency : updated.adjacency = readded.adjacency
  neighbors : ∀ v, updated.neighbors v = readded.neighbors v
  predecessors : ∀ v, updated.predecessors v = readded.predecessors v
  edges : updated.edges.Perm readded.edges
  place : ∃ before after, g.edges = before ++ e :: after ∧ updated.edges = before ++ f :: after
  nodes : updated.nodes = g.nodes
  id : f.id = e.id
  type : f.type = e.type

namespace Valid

variable {schema : Option Schema} {g : Graph}

/-- Without an edge, the links at a node are the others, in their order. -/
theorem linksAt_unlink (hv : Valid schema g) {e : Edge} (he : e ∈ g.edges) (side : Side)
    (id : Value) :
    (g.adjacency.unlink e).linksAt side id =
      (g.adjacency.linksAt side id).filter fun l => !l.key.sameKey e.id := by
  rw [Adjacency.linksAt_eq, Adjacency.linksAt_eq, hv.entries_unlink he, List.filter_map,
    List.filter_filter, List.filter_filter]
  refine congrArg (List.map Entry.link) (List.filter_congr fun x _ => ?_)
  exact Bool.and_comm _ _

/-- What crowds a side without an edge is what crowds it when that edge is not counted. -/
theorem crowdFault?_removeEdge (hv : Valid schema g) {e : Edge} (he : e ∈ g.edges) (f : Edge)
    (side : Side) :
    (g.removeEdge e.id e).crowdFault? f side .null = g.crowdFault? f side e.id := by
  have hlinks : (g.removeEdge e.id e).adjacency.linksAt side (f.endpoint side) =
      (g.adjacency.linksAt side (f.endpoint side)).filter fun l => !l.key.sameKey e.id :=
    hv.linksAt_unlink he side _
  rw [crowdFault?, crowdFault?, hlinks, findSome?_filter, ← List.head?_filterMap,
    ← List.head?_filterMap]
  refine congrArg List.head? (List.filterMap_congr fun l hl => ?_)
  obtain ⟨k, hk, -, rfl⟩ := (hv.linked.mem_linksAt_iff hv.sound side _ l).1 hl
  have hnamed := hv.sound.edge_named hk
  rw [linkFault?_of_named _ hnamed, linkFault?_of_named _ hnamed, eqv_null_eq_false hnamed,
    Value.eqv_eq_sameKey (hv.sound.edgeTexts k hk)]
  cases k.id.sameKey e.id <;> rfl

/-- An edge passes the checks without an old edge just as when that one is not counted. -/
theorem checkEdge_removeEdge (hv : Valid schema g) {e : Edge} (he : e ∈ g.edges) (f : Edge) :
    (g.removeEdge e.id e).checkEdge schema f .null = g.checkEdge schema f e.id := by
  have hcard : ∀ t, (g.removeEdge e.id e).cardinalityFault? t f .null =
      g.cardinalityFault? t f e.id := by
    intro t
    rw [cardinalityFault?, cardinalityFault?, hv.crowdFault?_removeEdge he,
      hv.crowdFault?_removeEdge he]
  -- the nodes are the same, and with them all that is looked up for the other checks
  have hends : (g.removeEdge e.id e).endsFault? f = g.endsFault? f := rfl
  have htype : ∀ id, (g.removeEdge e.id e).typeOf id = g.typeOf id := fun _ => rfl
  unfold checkEdge
  simp only [hends, htype, hcard]

/-- An update of an edge that is there hangs on the checks only. -/
theorem updateEdge_eq (hv : Valid schema g) {e f : Edge} (he : e ∈ g.edges)
    {changes : Record Value} (hf : e.updated changes = .ok f) :
    g.updateEdge schema e.id (.record changes) =
      (g.checkEdge schema f e.id).map fun _ => some (g.replaceEdge e.id e f, f, changes) := by
  rw [updateEdge, requireKey_of_isText (hv.sound.edgeTexts e he),
    (hv.sound.edge?_eq_some_iff e.id e).2 ⟨he, rfl⟩]
  show (do let f ← e.updated changes
           g.checkEdge schema f e.id
           return some (g.replaceEdge e.id e f, f, changes)) = _
  rw [hf]
  rfl

/-- So does adding the new edge when the old one is deleted. -/
theorem readdEdge_eq (hv : Valid schema g) {e f : Edge} (he : e ∈ g.edges) (hid : f.id = e.id) :
    (g.removeEdge e.id e).addEdge schema f =
      (g.checkEdge schema f e.id).map fun _ => (g.removeEdge e.id e).insertEdge f := by
  have htext : isText f.id = true := hid ▸ hv.sound.edgeTexts e he
  have hnew : (g.removeEdge e.id e).hasEdge f.id = false := by
    rw [hasEdge_eq_false_iff, hid]
    intro k hk
    simpa using (List.mem_filter.1 hk).2
  rw [Graph.addEdge, requireKey_of_isText htext, hnew, hv.checkEdge_removeEdge he]
  rfl

theorem deleteEdge_eq (hv : Valid schema g) {e : Edge} (he : e ∈ g.edges) :
    g.deleteEdge e.id = .ok (some (g.removeEdge e.id e)) := by
  rw [deleteEdge, requireKey_of_isText (hv.sound.edgeTexts e he),
    (hv.sound.edge?_eq_some_iff e.id e).2 ⟨he, rfl⟩]
  cases g.edges.isEmpty <;> rfl

/-- What is replaced is replaced in its place. -/
theorem place_replaceEdge (hv : Valid schema g) {e : Edge} (he : e ∈ g.edges) (f : Edge) :
    ∃ before after, g.edges = before ++ e :: after ∧
      (g.replaceEdge e.id e f).edges = before ++ f :: after := by
  obtain ⟨before, after, hsplit⟩ := List.append_of_mem he
  exact ⟨before, after, hsplit,
    replace_of_split hv.sound.edgeTexts hv.sound.edgeIds hsplit f⟩

/-- Both ways lead to the same but for the place of the edge. -/
theorem rewired (hv : Valid schema g) {e f : Edge} (he : e ∈ g.edges)
    {changes : Record Value} (hf : e.updated changes = .ok f) :
    Rewired g e f (g.replaceEdge e.id e f) ((g.removeEdge e.id e).insertEdge f) := by
  obtain ⟨hid, htype⟩ := Edge.id_type_of_updated hf
  have hadjacency : (g.replaceEdge e.id e f).adjacency =
      ((g.removeEdge e.id e).insertEdge f).adjacency := by
    show (g.adjacency.unlink e).link e.id f = (g.adjacency.unlink e).link f.id f
    rw [hid]
  refine ⟨hadjacency, fun v => ?_, fun v => ?_, ?_, hv.place_replaceEdge he f, rfl, hid, htype⟩
  · unfold neighbors
    rw [hadjacency]
    rfl
  · unfold predecessors
    rw [hadjacency]
    rfl
  · have hperm := replace_perm hv.sound.edgeTexts hv.sound.edgeIds he f
    exact hperm.trans (List.perm_append_singleton f _).symm

end Valid

end Graph

end PropertyGraph
