import PropertyGraph.Proofs.Graph.Overlay
import PropertyGraph.Proofs.Graph.Rewiring
import PropertyGraph.Proofs.Graph.Seniority

/-!
# Revisions

To *revise* an entity is to update it where it is held.  Two revisions of an entity one after
another come to one, with the changes of both (`Revises.fuse`), and a revision that is repeated goes
through again and changes nothing (`Revises.again`).

For an edge this needs a look at the adjacency.  Each revision takes out the link and makes it anew,
so that the second one finds it elsewhere, and is checked against another graph; but what it takes
out is just what the first one put in (`Adjacency.unlink_link`), and without it the graph is as it
was without the old edge (`Valid.removeEdge_replaceEdge`).
-/

namespace PropertyGraph

/-! ### Linking and unlinking -/

/-- What was just linked under a new key is unlinked without a trace. -/
theorem Adjacency.unlink_link {f : Edge} (hs : Graph.isText f.source = true)
    (ht : Graph.isText f.target = true) (hk : Graph.isText f.id = true) {a : Adjacency}
    (hfilled : ∀ b ∈ a, b.links ≠ []) (hnew : ∀ x ∈ a.entries, x.key ≠ f.id) :
    unlink f (link f.id f a) = a := by
  have hself : f.id.sameKey f.id = true := (Value.sameKey_iff_eq hk f.id).2 rfl
  induction a with
  | nil =>
    have hjoins : Bundle.joins ⟨f.source, f.target, [⟨Link.keyFor [] f.id, f⟩]⟩ f.source f.target =
        true := (Bundle.joins_iff hs ht).2 ⟨rfl, rfl⟩
    have hrest : [(⟨f.id, f⟩ : Link)].filter (fun l => !l.key.sameKey f.id) = [] := by
      rw [List.filter_cons, hself]
      rfl
    rw [link, unlink_cons, if_pos hjoins, Link.keyFor_of_isText hk, Link.remove_of_isText hk, hrest]
  | cons b rest ih =>
    rw [List.forall_mem_cons] at hfilled
    rw [entries_cons, List.forall_mem_append] at hnew
    rw [link]
    split
    · rename_i hjoins
      have hlinks : ∀ l ∈ b.links, l.key.sameKey f.id = false := fun l hl =>
        (Value.sameKey_eq_false_iff hk l.key).2
          (hnew.1 ⟨b.source, b.target, l.key, l.edge⟩ (List.mem_map_of_mem hl))
      have hput : Link.put b.links ⟨Link.keyFor b.links f.id, f⟩ = b.links ++ [⟨f.id, f⟩] := by
        rw [Link.keyFor_of_isText hk]
        exact Link.put_of_new hlinks
      have hremove : Link.remove (b.links ++ [⟨f.id, f⟩]) f.id = b.links := by
        rw [Link.remove_of_isText hk, List.filter_append, List.filter_cons, hself,
          List.filter_eq_self.2 fun l hl => by rw [hlinks l hl]; rfl]
        exact List.append_nil _
      have hjoins' : Bundle.joins { b with links := b.links ++ [⟨f.id, f⟩] } f.source f.target =
          true := hjoins
      rw [hput, unlink_cons, if_pos hjoins', hremove]
      split
      · rename_i hnil
        exact absurd hnil hfilled.1
      · rfl
    · rename_i hjoins
      rw [unlink_cons, if_neg hjoins, ih hfilled.2 hnew.2]

namespace Graph

variable {schema : Option Schema} {g : Graph}

/-! ### Replacing twice -/

/-- What is replaced where something was replaced takes its place. -/
theorem map_replace_replace {α : Type} {id : α → Value} {v : Value} {z : α}
    (hz : (id z).sameKey v = true) (y : α) (l : List α) :
    ((l.map fun x => if (id x).sameKey v then z else x).map fun x =>
        if (id x).sameKey v then y else x) =
      l.map fun x => if (id x).sameKey v then y else x := by
  rw [List.map_map]
  refine List.map_congr_left fun x _ => ?_
  by_cases hx : (id x).sameKey v = true
  · simp [hx, hz]
  · simp [hx]

namespace Valid

section Nodes

variable {n : Node} (hv : Valid schema g) (hn : n ∈ g.nodes)

include hv

theorem exists_of_updateNode {id : Value} {changes : Record Value} {g' : Graph} {m : Node}
    (h : g.updateNode schema id (.record changes) = .ok (some (g', m, changes))) :
    ∃ n ∈ g.nodes, n.id = id := by
  obtain ⟨n, hn, -⟩ := updateNode_eq_some_iff.1 h
  exact ⟨n, (hv.sound.node?_eq_some_iff id n).1 hn⟩

include hn

theorem updateNode_ne_none (v : Value) : g.updateNode schema n.id v ≠ .ok none := by
  rw [Graph.updateNode, (hv.sound.node?_eq_some_iff n.id n).2 ⟨hn, rfl⟩]
  intro h
  obtain ⟨_, -, h⟩ := bind_eq_ok_iff.1 h
  obtain ⟨_, -, h⟩ := bind_eq_ok_iff.1 h
  obtain ⟨_, -, h⟩ := bind_eq_ok_iff.1 h
  cases h

/-- An update of a node that is there hangs on the changes and on the new node only. -/
theorem updateNode_iff {id : Value} (hid : n.id = id) {changes : Record Value} {g' : Graph}
    {m : Node} :
    g.updateNode schema id (.record changes) = .ok (some (g', m, changes)) ↔
      n.updated changes = .ok m ∧ checkNode schema m = .ok () ∧ g' = g.replaceNode id m := by
  rw [updateNode_eq_some_iff, (hv.sound.node?_eq_some_iff id n).2 ⟨hn, hid⟩]
  simp only [Option.some.injEq, exists_eq_left', requireChanges, true_and]

theorem mem_replaceNode (m : Node) : m ∈ (g.replaceNode n.id m).nodes :=
  (mem_replace_iff hv.sound.nodeTexts hv.sound.nodeIds hn m m).2 (.inl rfl)

theorem replaceNode_replaceNode {m : Node} (hid : m.id = n.id) (k : Node) :
    (g.replaceNode n.id m).replaceNode n.id k = g.replaceNode n.id k := by
  have hself : m.id.sameKey n.id = true := by
    rw [hid]
    exact (Value.sameKey_iff_eq (hv.sound.nodeTexts n hn) n.id).2 rfl
  unfold Graph.replaceNode
  rw [map_replace_replace hself]

end Nodes

section Edges

variable {e f : Edge} (hv : Valid schema g) (he : e ∈ g.edges)

include hv

theorem exists_of_updateEdge {id : Value} {changes : Record Value} {g' : Graph}
    (h : g.updateEdge schema id (.record changes) = .ok (some (g', f, changes))) :
    ∃ e ∈ g.edges, e.id = id := by
  obtain ⟨-, e, he, -⟩ := updateEdge_eq_some_iff.1 h
  exact ⟨e, (hv.sound.edge?_eq_some_iff id e).1 he⟩

include he

theorem updateEdge_ne_none (v : Value) : g.updateEdge schema e.id v ≠ .ok none := by
  rw [Graph.updateEdge, requireKey_of_isText (hv.sound.edgeTexts e he),
    (hv.sound.edge?_eq_some_iff e.id e).2 ⟨he, rfl⟩]
  intro h
  obtain ⟨_, -, h⟩ := bind_eq_ok_iff.1 h
  obtain ⟨_, -, h⟩ := bind_eq_ok_iff.1 h
  obtain ⟨_, -, h⟩ := bind_eq_ok_iff.1 h
  obtain ⟨_, -, h⟩ := bind_eq_ok_iff.1 h
  cases h

theorem updateEdge_iff {id : Value} (hid : e.id = id) {changes : Record Value} {g' : Graph} :
    g.updateEdge schema id (.record changes) = .ok (some (g', f, changes)) ↔
      e.updated changes = .ok f ∧ g.checkEdge schema f id = .ok () ∧
        g' = g.replaceEdge id e f := by
  have htext : isText id = true := hid ▸ hv.sound.edgeTexts e he
  rw [updateEdge_eq_some_iff, requireKey_of_isText htext,
    (hv.sound.edge?_eq_some_iff id e).2 ⟨he, hid⟩]
  simp only [Option.some.injEq, exists_eq_left', requireChanges, true_and]

variable (hid : f.id = e.id) (hcheck : g.checkEdge schema f e.id = .ok ())

theorem mem_replaceEdge (f : Edge) : f ∈ (g.replaceEdge e.id e f).edges :=
  (mem_replace_iff hv.sound.edgeTexts hv.sound.edgeIds he f f).2 (.inl rfl)

include hid hcheck

theorem unlink_replaceEdge :
    (g.replaceEdge e.id e f).adjacency.unlink f = g.adjacency.unlink e := by
  have hf := hv.mem_replaceEdge he f
  have hsound := (hv.replaceEdge he hid hcheck).sound
  have hnew : ∀ x ∈ (g.adjacency.unlink e).entries, x.key ≠ f.id := by
    intro x hx
    rw [hv.entries_unlink he] at hx
    rw [hid, ← Value.sameKey_eq_false_iff (hv.sound.edgeTexts e he)]
    simpa using (List.mem_filter.1 hx).2
  have hunlink := Adjacency.unlink_link (hsound.isText_endpoint hf .source)
    (hsound.isText_endpoint hf .target) (hsound.edgeTexts f hf)
    (hv.linked.tidy.unlink e).filled hnew
  rwa [hid] at hunlink

/-- Without an edge that was put in place of another one, the graph is as without that one. -/
theorem removeEdge_replaceEdge :
    (g.replaceEdge e.id e f).removeEdge e.id f = g.removeEdge e.id e := by
  have hself : f.id.sameKey e.id = true := by
    rw [hid]
    exact (Value.sameKey_iff_eq (hv.sound.edgeTexts e he) e.id).2 rfl
  have hedges : (g.edges.map fun k => if k.id.sameKey e.id then f else k).filter
      (fun k => !k.id.sameKey e.id) = g.edges.filter fun k => !k.id.sameKey e.id := by
    induction g.edges with
    | nil => rfl
    | cons k rest ih =>
      rw [List.map_cons, List.filter_cons, List.filter_cons, ih]
      by_cases hk : k.id.sameKey e.id = true
      · simp [hk, hself]
      · simp [hk]
  exact congrArg₂ (Graph.mk g.nodes) hedges (hv.unlink_replaceEdge he hid hcheck)

theorem replaceEdge_replaceEdge (k : Edge) :
    (g.replaceEdge e.id e f).replaceEdge e.id f k = g.replaceEdge e.id e k := by
  have hself : f.id.sameKey e.id = true := by
    rw [hid]
    exact (Value.sameKey_iff_eq (hv.sound.edgeTexts e he) e.id).2 rfl
  have hedges := map_replace_replace hself k g.edges
  have hadjacency := congrArg (Adjacency.link e.id k) (hv.unlink_replaceEdge he hid hcheck)
  exact congrArg₂ (Graph.mk g.nodes) hedges hadjacency

/-- An edge passes the checks where one was put in place of another as it did before. -/
theorem checkEdge_replaceEdge (k : Edge) :
    (g.replaceEdge e.id e f).checkEdge schema k e.id = g.checkEdge schema k e.id := by
  have hf := hv.mem_replaceEdge he f
  have hwithout := (hv.replaceEdge he hid hcheck).checkEdge_removeEdge hf k
  rw [hid, hv.removeEdge_replaceEdge he hid hcheck, hv.checkEdge_removeEdge he] at hwithout
  exact hwithout.symm

end Edges

end Valid

/-! ### Revising -/

/-- An entity as an update makes it. -/
inductive Revised where
  | node (n : Node)
  | edge (e : Edge)

/-- What is told of it. -/
def Revised.notice (changes : Record Value) : Revised → Notice
  | .node n => .nodeUpdated n changes
  | .edge e => .edgeUpdated e changes

/-- The entity of a class with an identifier is updated, which leads to a graph and to the new
entity. -/
inductive Revises (schema : Option Schema) (g : Graph) (id : Value) (changes : Record Value) :
    EntityClass → Graph → Revised → Prop
  | node {g' : Graph} {n : Node} :
    g.updateNode schema id (.record changes) = .ok (some (g', n, changes)) →
      Revises schema g id changes .node g' (.node n)
  | edge {g' : Graph} {e : Edge} :
    g.updateEdge schema id (.record changes) = .ok (some (g', e, changes)) →
      Revises schema g id changes .edge g' (.edge e)

namespace Revises

variable {id : Value} {first second changes : Record Value} {cls : EntityClass}
  {g₁ g₂ : Graph} {x y : Revised}

theorem step (h : Revises schema g id changes cls g₁ x) :
    Step schema g g₁ [x.notice changes] := by
  cases h with
  | node h => exact .nodeUpdated h
  | edge h => exact .edgeUpdated h

theorem valid (h : Revises schema g id changes cls g₁ x) (hv : Valid schema g) :
    Valid schema g₁ := by
  refine h.step.valid hv fun n hn p hp => ?_
  obtain rfl := Option.some.inj hn
  cases x <;> exact List.mem_singleton.1 hp ▸ rfl

/-- What was revised is still held. -/
theorem mem_ids (h : Revises schema g id changes cls g₁ x) (hv : Valid schema g) :
    id ∈ (g₁.roster cls).ids := by
  cases h with
  | @node _ m h =>
    obtain ⟨n, hn, rfl⟩ := hv.exists_of_updateNode h
    obtain ⟨hm, -, rfl⟩ := (hv.updateNode_iff hn rfl).1 h
    rw [ids_roster_node]
    exact List.mem_map.2 ⟨m, hv.mem_replaceNode hn m, (Node.id_type_of_updated hm).1⟩
  | @edge _ f h =>
    obtain ⟨e, he, rfl⟩ := hv.exists_of_updateEdge h
    obtain ⟨hf, -, rfl⟩ := (hv.updateEdge_iff he rfl).1 h
    rw [ids_roster_edge]
    exact List.mem_map.2 ⟨f, hv.mem_replaceEdge he f, (Edge.id_type_of_updated hf).1⟩

/-- Two revisions of an entity one after another come to one, with the changes of both. -/
theorem fuse (hv : Valid schema g) (hfirst : Entity.Regular first)
    (hsecond : Entity.Regular second) (h : Revises schema g id first cls g₁ x)
    (h' : Revises schema g₁ id second cls g₂ y) :
    Revises schema g id (Entity.fused first second) cls g₂ y := by
  have hv₁ := h.valid hv
  cases h with
  | @node _ m h =>
    cases h' with
    | @node _ k h' =>
    obtain ⟨n, hn, rfl⟩ := hv.exists_of_updateNode h
    obtain ⟨hm, -, rfl⟩ := (hv.updateNode_iff hn rfl).1 h
    obtain ⟨hid, -⟩ := Node.id_type_of_updated hm
    obtain ⟨hk, hcheck, rfl⟩ := (hv₁.updateNode_iff (hv.mem_replaceNode hn m) hid).1 h'
    rw [hv.replaceNode_replaceNode hn hid]
    have hfused := Node.updated_fused hfirst hsecond hm hk
    exact .node ((hv.updateNode_iff hn rfl).2 ⟨hfused, hcheck, rfl⟩)
  | @edge _ f h =>
    cases h' with
    | @edge _ k h' =>
    obtain ⟨e, he, rfl⟩ := hv.exists_of_updateEdge h
    obtain ⟨hf, hcheck, rfl⟩ := (hv.updateEdge_iff he rfl).1 h
    obtain ⟨hid, -⟩ := Edge.id_type_of_updated hf
    obtain ⟨hk, hcheck', rfl⟩ := (hv₁.updateEdge_iff (hv.mem_replaceEdge he f) hid).1 h'
    rw [hv.checkEdge_replaceEdge he hid hcheck] at hcheck'
    rw [hv.replaceEdge_replaceEdge he hid hcheck]
    have hfused := Edge.updated_fused hfirst hsecond hf hk
    exact .edge ((hv.updateEdge_iff he rfl).2 ⟨hfused, hcheck', rfl⟩)

/-- A revision that is repeated goes through again and changes nothing. -/
theorem again (hv : Valid schema g) (hregular : Entity.Regular changes)
    (hfind : ∀ fs, Entity.changedData? changes = some fs → fs.Findable)
    (h : Revises schema g id changes cls g₁ x) : Revises schema g₁ id changes cls g₁ x := by
  have hv₁ := h.valid hv
  cases h with
  | @node _ m h =>
    obtain ⟨n, hn, rfl⟩ := hv.exists_of_updateNode h
    obtain ⟨hm, hcheck, rfl⟩ := (hv.updateNode_iff hn rfl).1 h
    obtain ⟨hid, -⟩ := Node.id_type_of_updated hm
    have hagain := Node.updated_again hregular hfind hm
    have hsame := (hv.replaceNode_replaceNode hn hid m).symm
    exact .node ((hv₁.updateNode_iff (hv.mem_replaceNode hn m) hid).2 ⟨hagain, hcheck, hsame⟩)
  | @edge _ f h =>
    obtain ⟨e, he, rfl⟩ := hv.exists_of_updateEdge h
    obtain ⟨hf, hcheck, rfl⟩ := (hv.updateEdge_iff he rfl).1 h
    obtain ⟨hid, -⟩ := Edge.id_type_of_updated hf
    have hagain := Edge.updated_again hregular hfind hf
    have hcheck' := (hv.checkEdge_replaceEdge he hid hcheck f).trans hcheck
    have hsame := (hv.replaceEdge_replaceEdge he hid hcheck f).symm
    exact .edge ((hv₁.updateEdge_iff (hv.mem_replaceEdge he f) hid).2 ⟨hagain, hcheck', hsame⟩)

end Revises

end Graph

end PropertyGraph
