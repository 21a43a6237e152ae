import PropertyGraph.Proofs.Graph.Rewiring

/-!
# Removal of a node

A node goes together with the edges that touch it: the edges are taken out of their list one by one,
and the adjacency loses every bundle that starts or ends at the node.  In a valid graph the two
agree, however the edges run, and leave everything else in its order (`Valid.without`).  It comes to
the same as deleting these edges one after another before the node (`Valid.removeNode_removeEdge`).
-/

namespace PropertyGraph

namespace Adjacency

variable {id u : Value}

/-- Without a node, the bundles at another one are those that do not lead to it. -/
theorem mem_bundlesAt {a : Adjacency} {side : Side} {b : Bundle} (hb : b ∈ a.bundlesAt side u) :
    (b.endpoint side).sameKey u = true := (List.mem_filter.1 hb).2

theorem bundlesAt_dropNode (side : Side) (a : Adjacency) :
    (a.dropNode id).bundlesAt side u =
      (a.bundlesAt side u).filter fun b => !b.source.sameKey id && !b.target.sameKey id := by
  unfold bundlesAt dropNode
  rw [List.filter_filter, List.filter_filter]
  exact List.filter_congr fun b _ => Bool.and_comm _ _

/-- Without a node, the neighbours of another one are the rest of them. -/
theorem neighbors_dropNode (hne : u.sameKey id = false) (a : Adjacency) :
    (a.dropNode id).neighbors u = (a.neighbors u).filter fun v => !v.sameKey id := by
  unfold neighbors
  rw [bundlesAt_dropNode, List.filter_map]
  refine congrArg (List.map _) (List.filter_congr fun b hb => ?_)
  have hsource : b.source.sameKey id = false :=
    Value.sameKey_eq_false_of_sameKey (mem_bundlesAt hb) hne
  rw [hsource]
  rfl

/-- Without a node, the predecessors of another one are the rest of them. -/
theorem predecessors_dropNode (hne : u.sameKey id = false) (a : Adjacency) :
    (a.dropNode id).predecessors u = (a.predecessors u).filter fun v => !v.sameKey id := by
  unfold predecessors
  rw [bundlesAt_dropNode, List.filter_map]
  refine congrArg (List.map _) (List.filter_congr fun b hb => ?_)
  have htarget : b.target.sameKey id = false :=
    Value.sameKey_eq_false_of_sameKey (mem_bundlesAt hb) hne
  rw [htarget, Bool.not_false, Bool.and_true]
  rfl

/-- What an edge leaves behind at a node that it touches goes with the node. -/
theorem dropNode_unlink {e : Edge} (htouch : Graph.touches e id = true) (a : Adjacency) :
    (a.unlink e).dropNode id = a.dropNode id := by
  induction a with
  | nil => rfl
  | cons b rest ih =>
    rw [unlink_cons]
    split
    · rename_i hjoins
      -- the bundle of the edge has the node at one end, whatever links are in it
      have hdropped : (!b.source.sameKey id && !b.target.sameKey id) = false := by
        obtain ⟨hsource, htarget⟩ := Bool.and_eq_true_iff.1 hjoins
        rcases Bool.or_eq_true_iff.1 htouch with h | h
        · rw [Value.sameKey_trans hsource h]
          rfl
        · rw [Value.sameKey_trans htarget h, Bool.not_true, Bool.and_false]
      have hrest : dropNode id (b :: rest) = dropNode id rest :=
        List.filter_cons_of_neg (ne_true_of_eq_false hdropped)
      rw [hrest]
      split
      · rfl
      · exact List.filter_cons_of_neg (ne_true_of_eq_false hdropped)
    · unfold dropNode at ih ⊢
      rw [List.filter_cons, List.filter_cons, ih]

end Adjacency

namespace Graph

/-- A graph without a node and the edges that touch it. -/
def removeNode (g : Graph) (id : Value) : Graph where
  nodes := g.nodes.filter fun n => !n.id.sameKey id
  edges := g.edges.filter fun e => !touches e id
  adjacency := g.adjacency.dropNode id

/-- In `g'` everything is as in `g`, in the same order, but the node `n` is gone and so are the
edges that started or ended there, which are listed in `gone`, each of them once. -/
structure Without (g : Graph) (n : Node) (gone : List Edge) (g' : Graph) : Prop where
  nodes : ∃ before after, g.nodes = before ++ n :: after ∧ g'.nodes = before ++ after
  edges : g'.edges = g.edges.filter fun e => !touches e n.id
  listed : gone = g.edges.filter fun e => touches e n.id
  touches : ∀ e ∈ g.edges, touches e n.id = true ↔ e.source = n.id ∨ e.target = n.id
  once : (gone.map (·.id)).Nodup
  neighbors : ∀ u, u ≠ n.id → g'.neighbors u = (g.neighbors u).filter fun v => !v.sameKey n.id
  predecessors : ∀ u, u ≠ n.id →
    g'.predecessors u = (g.predecessors u).filter fun v => !v.sameKey n.id

theorem hasNode_removeNode {id u : Value} (hne : u.sameKey id = false) (g : Graph) :
    (g.removeNode id).hasNode u = g.hasNode u := by
  rw [Bool.eq_iff_iff, hasNode_iff_exists, hasNode_iff_exists]
  refine exists_congr fun n => and_congr_left fun hn => ?_
  have hother : n.id.sameKey id = false := Value.sameKey_eq_false_of_sameKey hn hne
  simp [removeNode, hother]

namespace Valid

variable {schema : Option Schema} {g : Graph} {n : Node}

theorem deleteNode_eq (hv : Valid schema g) (hn : n ∈ g.nodes) :
    g.deleteNode n.id = some (g.removeNode n.id, (g.edgesOf n.id).map (·.id)) := by
  have hthere : g.hasNode n.id = true := (hv.sound.hasNode_iff n.id).2 ⟨n, hn, rfl⟩
  rw [Graph.deleteNode, if_pos hthere]
  rfl

/-- A node is taken out of its place. -/
theorem place_removeNode (hv : Valid schema g) (hn : n ∈ g.nodes) :
    ∃ before after, g.nodes = before ++ n :: after ∧
      (g.removeNode n.id).nodes = before ++ after := by
  obtain ⟨before, after, hsplit⟩ := List.append_of_mem hn
  exact ⟨before, after, hsplit, remove_of_split hv.sound.nodeTexts hv.sound.nodeIds hsplit⟩

theorem without (hv : Valid schema g) (hn : n ∈ g.nodes) :
    Without g n (g.edgesOf n.id) (g.removeNode n.id) := by
  have hother : ∀ u, u ≠ n.id → u.sameKey n.id = false := fun u =>
    (Value.sameKey_eq_false_iff (hv.sound.nodeTexts n hn) u).2
  refine ⟨hv.place_removeNode hn, rfl, rfl, fun e he => hv.sound.touches_iff he n.id, ?_,
    fun u hu => ?_, fun u hu => ?_⟩
  · exact hv.sound.edgeIds.sublist (List.filter_sublist.map _)
  · unfold neighbors
    rw [hasNode_removeNode (hother u hu)]
    split
    · exact Adjacency.neighbors_dropNode (hother u hu) g.adjacency
    · rfl
  · unfold predecessors
    rw [hasNode_removeNode (hother u hu)]
    split
    · exact Adjacency.predecessors_dropNode (hother u hu) g.adjacency
    · rfl

/-! ### Edge by edge -/

/-- An edge that touches a node may be deleted before it. -/
theorem removeNode_removeEdge (hv : Valid schema g) {e : Edge} (he : e ∈ g.edges) {id : Value}
    (htouch : touches e id = true) : (g.removeEdge e.id e).removeNode id = g.removeNode id := by
  have hedges : (g.edges.filter fun f => !f.id.sameKey e.id).filter (fun f => !touches f id) =
      g.edges.filter fun f => !touches f id := by
    rw [List.filter_filter]
    refine List.filter_congr fun f hf => ?_
    by_cases hid : f.id.sameKey e.id = true
    · obtain rfl : f = e := List.inj_on_of_nodup_map hv.sound.edgeIds hf he
        ((Value.sameKey_iff_eq (hv.sound.edgeTexts e he) f.id).1 hid)
      rw [htouch]
      rfl
    · rw [eq_false_of_ne_true hid, Bool.not_false, Bool.and_true]
  unfold removeNode
  show Graph.mk _ _ _ = _
  rw [Graph.mk.injEq]
  exact ⟨rfl, hedges, Adjacency.dropNode_unlink htouch g.adjacency⟩

end Valid

end Graph

end PropertyGraph
