import PropertyGraph.Proofs.Graph.Removal
import PropertyGraph.Proofs.Session.Dispatch
import PropertyGraph.Proofs.Session.EdgeChanges

/-!
# Removal of a node in a session

When a node is deleted, it is told first of each edge that goes with it, in the order of the edges,
and then of the node; each of this is dispatched in turn, after the whole change is made
(`deleteNode_cascades`).  The graph is the same in the end as when the edges are deleted by
themselves first (`graph_afterAll_deleteEdges`).
-/

namespace PropertyGraph.Session

variable {depth : Nat} {s : Session} {id : Value}

/-! ### Telling one thing after another -/

/-- Notices are told one after another, each of them to all who listen to it by then, and none of
those fails. -/
inductive Delivered (depth : Nat) : List Notice → Session → Session → Prop
  | nil (s : Session) : Delivered depth [] s s
  | cons {n : Notice} {rest : List Notice} {s t u : Session} :
    Dispatch (run depth) (Conduct depth) n.event n.payload s (.ok ()) t →
      Delivered depth rest t u → Delivered depth (n :: rest) s u

theorem delivered_of_tellAll {notices : List Notice} {t : Session}
    (h : carryOut (notices.forM (tell (run depth))) s = (.ok (), t)) :
    Delivered depth notices s t := by
  induction notices generalizing s with
  | nil =>
    obtain rfl := (Prod.mk.inj h).2
    exact .nil s
  | cons n rest ih =>
    have hdispatch := dispatch_publish (called_call (conduct_run depth)) n.event n.payload s
    rw [carryOut_forM_cons, carryOut_bind] at h
    rcases htell : carryOut (tell (run depth) n) s with ⟨f | _, u⟩
    · rw [htell] at h
      cases h
    · rw [htell] at h
      have htold : carryOut (publish (run depth) n.event n.payload) s = (.ok (), u) := htell
      rw [htold] at hdispatch
      exact .cons hdispatch (ih h)

/-- What is told of a step is delivered in turn, up to the first listener that fails. -/
theorem delivered_of_committed {α : Type} {a : Act α} {x : α} {g : Graph} {notices : List Notice}
    (hstep : Graph.Step s.schema s.graph g notices)
    (ha : carryOut a s = carryOut (do commit (run depth) g notices; return x) s) :
    (carryOut a s).1 = .ok x ∧ Delivered depth notices { s with graph := g } (carryOut a s).2 ∨
      ∃ f, (carryOut a s).1 = .error f ∧ FromListener (run depth) s f (carryOut a s).2 := by
  rw [ha, carryOut_return]
  rcases htold : carryOut (commit (run depth) g notices) s with ⟨f | _, t⟩
  · exact .inr ⟨f, rfl, fromListener_of_commit (moving_run depth) hstep (.refl s) htold⟩
  · exact .inl ⟨rfl, delivered_of_tellAll htold⟩

/-! ### Edge by edge -/

theorem carryOut_run_deleteNode (depth : Nat) (id : Value) (s : Session) :
    carryOut (run (depth + 1) (.deleteNode id)) s =
      match s.graph.deleteNode id with
      | some (g, edges) =>
        carryOut (do commit (run depth) g (Notice.ofDeletion id edges); return Outcome.flag true) s
      | none => (.ok (.flag false), s) := by
  show carryOut (deleteNode (run depth) id) s = _
  unfold deleteNode
  rw [carryOut_get_bind]
  rcases s.graph.deleteNode id with _ | ⟨g, edges⟩ <;> rfl

/-- A graph from which edges at a node were deleted, as far as the node is concerned. -/
structure EdgesGone (id : Value) (s t : Session) : Prop where
  valid : Graph.Valid t.schema t.graph
  nodes : t.graph.nodes = s.graph.nodes
  removeNode : t.graph.removeNode id = s.graph.removeNode id

theorem edgesGone_deleteEdge (hv : Graph.Valid s.schema s.graph) {e : Edge}
    (he : e ∈ s.graph.edges) (htouch : Graph.touches e id = true)
    (hleft : LeftAlone (run depth) (run (depth + 1) (.deleteEdge e.id)) s) :
    (carryOut (run (depth + 1) (.deleteEdge e.id)) s).2.graph = s.graph.removeEdge e.id e ∧
      EdgesGone id s (carryOut (run (depth + 1) (.deleteEdge e.id)) s).2 := by
  have hrun := carryOut_run_deleteEdge depth e.id s
  rw [hv.deleteEdge_eq he] at hrun
  have hgraph := hleft.graph_of_committed (.edgeDeleted (hv.deleteEdge_eq he)) hrun
  have hschema := (moving_run (depth + 1) (.deleteEdge e.id) s).schema_eq
  refine ⟨hgraph, ?_, ?_, ?_⟩
  · rw [hgraph, hschema]
    exact hv.removeEdge he
  · rw [hgraph]
    rfl
  · rw [hgraph]
    exact hv.removeNode_removeEdge he htouch

/-- Edges that touch a node may be deleted one after another before it. -/
theorem graph_afterAll_deleteEdges (hv : Graph.Valid s.schema s.graph) {gone : List Edge}
    (hgone : ∀ e ∈ gone, e ∈ s.graph.edges ∧ Graph.touches e id = true)
    (honce : (gone.map (·.id)).Nodup)
    (hleft : LeftAloneAlong depth (gone.map fun e => .deleteEdge e.id) s) :
    EdgesGone id s (afterAll (depth + 1) (gone.map fun e => .deleteEdge e.id) s) := by
  induction gone generalizing s with
  | nil => exact ⟨hv, rfl, rfl⟩
  | cons e rest ih =>
    rw [List.forall_mem_cons] at hgone
    rw [List.map_cons, List.nodup_cons] at honce
    obtain ⟨hgraph, hfirst⟩ := edgesGone_deleteEdge hv hgone.1.1 hgone.1.2 hleft.1
    -- the others are still there, as their identifiers are different
    have hothers : ∀ f ∈ rest,
        f ∈ (carryOut (run (depth + 1) (.deleteEdge e.id)) s).2.graph.edges ∧
          Graph.touches f id = true := by
      intro f hf
      obtain ⟨hmem, htouch⟩ := hgone.2 f hf
      have hne : f.id ≠ e.id := fun h => honce.1 (h ▸ List.mem_map_of_mem hf)
      refine ⟨?_, htouch⟩
      rw [hgraph]
      refine List.mem_filter.2 ⟨hmem, ?_⟩
      rw [Bool.not_eq_true', Value.sameKey_eq_false_iff (hv.sound.edgeTexts e hgone.1.1)]
      exact hne
    have hrest := ih hfirst.valid hothers honce.2 hleft.2
    exact ⟨hrest.valid, hrest.nodes.trans hfirst.nodes,
      hrest.removeNode.trans hfirst.removeNode⟩

/-! ### The node -/

section Node

variable {n : Node} (hv : Graph.Valid s.schema s.graph) (hn : n ∈ s.graph.nodes)

include hv hn

theorem carryOut_run_deleteNode_of_mem (depth : Nat) :
    carryOut (run (depth + 1) (.deleteNode n.id)) s =
      carryOut (do commit (run depth) (s.graph.removeNode n.id)
                     (Notice.ofDeletion n.id ((s.graph.edgesOf n.id).map (·.id)))
                   return Outcome.flag true) s := by
  rw [carryOut_run_deleteNode, hv.deleteNode_eq hn]

theorem graph_deleteNode (hleft : LeftAlone (run depth) (run (depth + 1) (.deleteNode n.id)) s) :
    (carryOut (run (depth + 1) (.deleteNode n.id)) s).2.graph = s.graph.removeNode n.id :=
  hleft.graph_of_committed (.nodeDeleted (hv.deleteNode_eq hn))
    (carryOut_run_deleteNode_of_mem hv hn depth)

end Node

/-- A node with the edges that touch it, to be deleted one after another. -/
def piecemeal (g : Graph) (n : Node) : List Command :=
  (g.edgesOf n.id).map (fun e => .deleteEdge e.id) ++ [.deleteNode n.id]

theorem changesGraph_of_mem_piecemeal {g : Graph} {n : Node} :
    ∀ c ∈ piecemeal g n, c.changesGraph = true := by
  refine List.forall_mem_append.2 ⟨fun c hc => ?_, List.forall_mem_singleton.2 rfl⟩
  obtain ⟨e, -, rfl⟩ := List.mem_map.1 hc
  rfl

/-- The same comes of deleting the edges at a node by themselves and then the node. -/
theorem graph_afterAll_piecemeal (hv : Graph.Valid s.schema s.graph) {n : Node}
    (hn : n ∈ s.graph.nodes) (hleft : LeftAloneAlong depth (piecemeal s.graph n) s) :
    (afterAll (depth + 1) (piecemeal s.graph n) s).graph = s.graph.removeNode n.id := by
  obtain ⟨hedges, hnode, -⟩ := (leftAloneAlong_append depth _ _ s).1 hleft
  have honce : ((s.graph.edgesOf n.id).map (·.id)).Nodup :=
    hv.sound.edgeIds.sublist (List.filter_sublist.map _)
  have hgone := graph_afterAll_deleteEdges hv (fun e he => List.mem_filter.1 he) honce hedges
  have hlast := graph_deleteNode hgone.valid (hgone.nodes ▸ hn) hnode
  rw [piecemeal, afterAll_append]
  exact hlast.trans hgone.removeNode

/-- Deleting a node succeeds, unless a listener fails, and takes out the node with just the edges
that touch it, while everything else is as before and in the same order.  It is told of each of
these edges once, in their order, and then of the node, and whoever is called finds the change made
if the listeners leave the graph alone.  The same graph comes of deleting the edges by themselves
and then the node. -/
theorem deleteNode_cascades {schema : Option Schema} {policy : Policy} {provider : Option Provider}
    (hs : Moves (start schema policy provider) s) (htext : s.textual = true) {n : Node}
    (hn : n ∈ s.graph.nodes) :
    let gone := s.graph.edgesOf n.id
    let left := s.graph.removeNode n.id
    let notices := Notice.ofDeletion n.id (gone.map (·.id))
    let done := carryOut (run (depth + 1) (.deleteNode n.id)) s
    Graph.Without s.graph n gone left ∧
      (done.1 = .ok (.flag true) ∧ Delivered depth notices { s with graph := left } done.2 ∨
        ∃ f, done.1 = .error f ∧ FromListener (run depth) s f done.2) ∧
      (LeftAlone (run depth) (run (depth + 1) (.deleteNode n.id)) s →
        done.2.graph = left ∧
          ∀ m e u, CalledIn (run depth) left notices s m e u → u.graph = left) ∧
      (LeftAloneAlong depth (piecemeal s.graph n) s →
        (afterAll (depth + 1) (piecemeal s.graph n) s).graph = left) := by
  intro gone left notices done
  have hv : Graph.Valid s.schema s.graph := by
    rw [hs.schema_eq]
    exact hs.valid htext
  have hrun := carryOut_run_deleteNode_of_mem hv hn depth
  have hstep : Graph.Step s.schema s.graph left notices := .nodeDeleted (hv.deleteNode_eq hn)
  refine ⟨hv.without hn, delivered_of_committed hstep hrun, fun hleft => ?_,
    graph_afterAll_piecemeal hv hn⟩
  refine ⟨graph_deleteNode hv hn hleft, fun m e u hu => ?_⟩
  exact graph_of_calledIn (hleft s left notices _ (.refl s) hstep hrun) hu

/-- A bus on which `counter` is subscribed to all that is deleted. -/
def attending : Bus Listener :=
  ((Bus.empty.subscribe .edgeDeleted counter).2.subscribe .nodeDeleted counter).2

/-- Two pairs of `a` with `b`, one of `b` with `a`, and one of `a` with itself, beside a pair of `b`
with `c`; while `counter` listens. -/
def entangled : Session :=
  { afterAll 1 [.addNodes (.list [item "b", item "a", item "c"]), .addEdge (pair "ab" "a" "b"),
      .addEdge (pair "bc" "b" "c"), .addEdge (pair "aa" "a" "a"), .addEdge (pair "ba" "b" "a"),
      .addEdge (pair "ab2" "a" "b")] (start none plainPolicy none) with bus := attending }

/-- The item `a`. -/
def itemA : Node := ⟨.text "a", .text "item", [(.text "label", .text "a")], .null, .null, none⟩

/-- Four edges go with the item, each of which is told of once. -/
theorem entangled_deleteNode_cascades :
    let gone := entangled.graph.edgesOf itemA.id
    let left := entangled.graph.removeNode itemA.id
    let done := carryOut (run 3 (.deleteNode itemA.id)) entangled
    entangled.textual = true ∧ itemA ∈ entangled.graph.nodes ∧
      gone.map (·.id) = [.text "ab", .text "aa", .text "ba", .text "ab2"] ∧
      left.edges.map (·.id) = [.text "bc"] ∧ left.neighbors (.text "b") = [.text "c"] ∧
      Graph.Without entangled.graph itemA gone left ∧
      (done.1 = .ok (.flag true) ∧
          Delivered 2 (Notice.ofDeletion itemA.id (gone.map (·.id)))
            { entangled with graph := left } done.2 ∨
        ∃ f, done.1 = .error f ∧ FromListener (run 2) entangled f done.2) ∧
      done.2.graph = left ∧
      (afterAll 3 (piecemeal entangled.graph itemA) entangled).graph = left :=
  have hmoves : Moves (start none plainPolicy none) entangled :=
    (moves_afterAll 1 _ _).tail (.listening attending _)
  have htext : entangled.textual = true := by decide +kernel
  have hitem : itemA ∈ entangled.graph.nodes := List.mem_cons_of_mem _ List.mem_cons_self
  have hspares : entangled.HeardBy fun _ listener => listener.Spares := by
    simp [entangled, attending, HeardBy, Bus.subscribe, Bus.empty, counter_spares]
  have hcascades := @deleteNode_cascades 2 entangled none plainPolicy none hmoves htext itemA hitem
  ⟨htext, hitem, by rfl, by rfl, by rfl, hcascades.1, hcascades.2.1,
    (hcascades.2.2.1 (leftAlone_of_spares hspares 2 _)).1,
    hcascades.2.2.2 (leftAloneAlong_of_spares changesGraph_of_mem_piecemeal hspares)⟩

end PropertyGraph.Session
