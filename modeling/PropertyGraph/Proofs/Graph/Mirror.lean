import PropertyGraph.Proofs.Graph.Step

/-!
# Mirrors

A *mirror* is what somebody knows of a graph who hears only what is told of its changes.  It keeps
a list of nodes and a list of edges: what is added goes to the end of its list, what is updated is
replaced in its place, and what is deleted is taken out, that one entity and nothing else.  A mirror
does not follow when it is told of an entity that it should hold and does not, of a new entity whose
identifier it holds already, or of the deletion of a node that one of its edges still touches.

Every step of a valid graph tells just what a mirror needs (`Step.replay`): one that holds the nodes
and the edges of the graph before the step can follow, and holds those of the graph after it.
-/

namespace PropertyGraph

/-- Nodes and edges as somebody knows them from what is told. -/
structure Mirror where
  nodes : List Node
  edges : List Edge

namespace Mirror

/-! ### Lists of entities -/

section Entities

variable {α : Type}

/-- Whether something in a list has an identifier. -/
def holds (id : α → Value) (l : List α) (v : Value) : Bool := l.any fun x => (id x).eqv v

/-- A list with something new at its end. -/
def append? (id : α → Value) (l : List α) (x : α) : Option (List α) :=
  if holds id l (id x) then none else some (l ++ [x])

/-- A list with something in the place of what has its identifier. -/
def replace? (id : α → Value) (l : List α) (x : α) : Option (List α) :=
  if holds id l (id x) then some (l.map fun y => if (id y).eqv (id x) then x else y) else none

/-- A list without what has an identifier. -/
def remove? (id : α → Value) (l : List α) (v : Value) : Option (List α) :=
  if holds id l v then some (l.filter fun x => !(id x).eqv v) else none

end Entities

/-! ### Hearing -/

/-- A mirror of a graph without nodes. -/
def empty : Mirror := ⟨[], []⟩

/-- Whether an edge of a mirror starts or ends at a node. -/
def touched (m : Mirror) (id : Value) : Bool :=
  m.edges.any fun e => e.source.eqv id || e.target.eqv id

/-- A mirror after something is told, if it can follow. -/
def hear? (m : Mirror) : Event × List Payload → Option Mirror
  | (.nodeAdded, [.node n]) => (append? Node.id m.nodes n).map fun nodes => { m with nodes }
  | (.nodeUpdated, [.nodeChange n _]) =>
    (replace? Node.id m.nodes n).map fun nodes => { m with nodes }
  | (.nodeDeleted, [.value id]) =>
    if m.touched id then none else (remove? Node.id m.nodes id).map fun nodes => { m with nodes }
  | (.edgeAdded, [.edge e]) => (append? Edge.id m.edges e).map fun edges => { m with edges }
  | (.edgeUpdated, [.edgeChange e _]) =>
    (replace? Edge.id m.edges e).map fun edges => { m with edges }
  | (.edgeDeleted, [.value id]) => (remove? Edge.id m.edges id).map fun edges => { m with edges }
  | (.graphCleared, []) => some empty
  | _ => none

/-- A mirror after some things are told in order, if it can follow all of them. -/
def replay? (m : Mirror) (told : List (Event × List Payload)) : Option Mirror :=
  told.foldlM hear? m

theorem replay?_nil (m : Mirror) : m.replay? [] = some m := rfl

theorem replay?_cons (m : Mirror) (t : Event × List Payload) (rest : List (Event × List Payload)) :
    m.replay? (t :: rest) = (m.hear? t).bind fun m' => m'.replay? rest := rfl

theorem replay?_singleton (m : Mirror) (t : Event × List Payload) : m.replay? [t] = m.hear? t := by
  cases h : m.hear? t <;> simp [replay?_cons, replay?_nil, h]

theorem replay?_append (m : Mirror) (told more : List (Event × List Payload)) :
    m.replay? (told ++ more) = (m.replay? told).bind fun m' => m'.replay? more :=
  List.foldlM_append

end Mirror

/-- What the listeners are told by a notice. -/
def Notice.telling (n : Notice) : Event × List Payload := (n.event, n.payload)

/-- What a mirror should hold. -/
def Graph.mirror (g : Graph) : Mirror := ⟨g.nodes, g.edges⟩

theorem Graph.mirror_nodes (g : Graph) : g.mirror.nodes = g.nodes := rfl

theorem Graph.mirror_edges (g : Graph) : g.mirror.edges = g.edges := rfl

namespace Mirror

/-! ### Entities that are known by texts -/

section Texts

variable {α : Type} {id : α → Value} {l : List α} {x : α}

theorem holds_iff (ht : ∀ y ∈ l, Graph.isText (id y) = true) (v : Value) :
    holds id l v = true ↔ ∃ y ∈ l, id y = v := by
  rw [holds, List.any_eq_true]
  exact exists_congr fun y => and_congr_right fun hy => Value.eqv_iff_eq (ht y hy) v

theorem append?_of_new (ht : ∀ y ∈ l, Graph.isText (id y) = true)
    (hnew : ∀ y ∈ l, id y ≠ id x) : append? id l x = some (l ++ [x]) := by
  rw [append?, if_neg]
  rw [holds_iff ht]
  rintro ⟨y, hy, hid⟩
  exact hnew y hy hid

theorem replace?_of_held (ht : ∀ y ∈ l, Graph.isText (id y) = true) {y : α} (hy : y ∈ l)
    (hid : id y = id x) :
    replace? id l x = some (l.map fun z => if (id z).sameKey (id x) then x else z) := by
  rw [replace?, if_pos ((holds_iff ht _).2 ⟨y, hy, hid⟩)]
  refine congrArg some (List.map_congr_left fun z hz => ?_)
  rw [Value.eqv_eq_sameKey (ht z hz)]

theorem remove?_of_held (ht : ∀ y ∈ l, Graph.isText (id y) = true) {y : α} (hy : y ∈ l) :
    remove? id l (id y) = some (l.filter fun z => !(id z).sameKey (id y)) := by
  rw [remove?, if_pos ((holds_iff ht _).2 ⟨y, hy, rfl⟩)]
  refine congrArg some (List.filter_congr fun z hz => ?_)
  rw [Value.eqv_eq_sameKey (ht z hz)]

end Texts

/-! ### What a mirror makes of notices -/

variable (m : Mirror)

theorem hear?_nodeAdded (n : Node) :
    m.hear? (Notice.nodeAdded n).telling =
      (append? Node.id m.nodes n).map fun nodes => { m with nodes } := rfl

theorem hear?_nodeUpdated (n : Node) (changes : Record Value) :
    m.hear? (Notice.nodeUpdated n changes).telling =
      (replace? Node.id m.nodes n).map fun nodes => { m with nodes } := rfl

theorem hear?_nodeDeleted {id : Value} (h : m.touched id = false) :
    m.hear? (Notice.nodeDeleted id).telling =
      (remove? Node.id m.nodes id).map fun nodes => { m with nodes } := by
  show (if m.touched id = true then none else _) = _
  rw [h]
  rfl

theorem hear?_edgeAdded (e : Edge) :
    m.hear? (Notice.edgeAdded e).telling =
      (append? Edge.id m.edges e).map fun edges => { m with edges } := rfl

theorem hear?_edgeUpdated (e : Edge) (changes : Record Value) :
    m.hear? (Notice.edgeUpdated e changes).telling =
      (replace? Edge.id m.edges e).map fun edges => { m with edges } := rfl

theorem hear?_edgeDeleted (id : Value) :
    m.hear? (Notice.edgeDeleted id).telling =
      (remove? Edge.id m.edges id).map fun edges => { m with edges } := rfl

/-- Edges may be deleted one after another, if they are there and no two of them are known by one
identifier. -/
theorem replay?_edgesDeleted (ht : ∀ e ∈ m.edges, Graph.isText e.id = true) {es : List Edge}
    (hes : ∀ e ∈ es, e ∈ m.edges) (hn : (es.map (·.id)).Nodup) :
    m.replay? (es.map fun e => (Notice.edgeDeleted e.id).telling) =
      some { m with edges := m.edges.filter fun f => es.all fun e => !f.id.sameKey e.id } := by
  induction es generalizing m with
  | nil => simp [replay?_nil]
  | cons e rest ih =>
    rw [List.forall_mem_cons] at hes
    rw [List.map_cons, List.nodup_cons] at hn
    -- the other edges are still there, as they are known by other identifiers
    have hrest : ∀ f ∈ rest, f ∈ m.edges.filter fun f => !f.id.sameKey e.id := by
      intro f hf
      refine List.mem_filter.2 ⟨hes.2 f hf, ?_⟩
      rw [Bool.not_eq_true', Value.sameKey_eq_false_iff (ht e hes.1)]
      exact fun hid => hn.1 (List.mem_map.2 ⟨f, hf, hid⟩)
    rw [List.map_cons, replay?_cons, hear?_edgeDeleted, remove?_of_held ht hes.1, Option.map_some,
      Option.bind_some,
      ih { m with edges := _ } (fun f hf => ht f (List.mem_filter.1 hf).1) hrest hn.2,
      List.filter_filter]
    simp only [List.all_cons, Bool.and_comm]

end Mirror

namespace Graph

variable {schema : Option Schema} {g g' : Graph}

/-- The edges that are left without those of a node are the ones that do not touch it. -/
theorem Sound.filter_edgesOf (hg : g.Sound) (id : Value) :
    (g.edges.filter fun f => (g.edgesOf id).all fun e => !f.id.sameKey e.id) =
      g.edges.filter fun f => !touches f id := by
  refine List.filter_congr fun f hf => ?_
  rw [Bool.eq_iff_iff, List.all_eq_true, Bool.not_eq_true']
  constructor
  · intro h
    rw [← Bool.not_eq_true]
    intro htouch
    have hself := h f (List.mem_filter.2 ⟨hf, htouch⟩)
    rw [Bool.not_eq_true', Value.sameKey_eq_false_iff (hg.edgeTexts f hf)] at hself
    exact hself rfl
  · intro htouch e he
    obtain ⟨he, hetouch⟩ := List.mem_filter.1 he
    rw [Bool.not_eq_true', Value.sameKey_eq_false_iff (hg.edgeTexts e he)]
    intro hid
    rw [List.inj_on_of_nodup_map hg.edgeIds hf he hid, hetouch] at htouch
    cases htouch

/-- The notices of the deletion of a node let a mirror follow: its edges go first, each by itself,
so that none is left when the node goes. -/
theorem Sound.replay_deletion (hg : g.Sound) {n : Node} (hn : n ∈ g.nodes) :
    g.mirror.replay?
        ((Notice.ofDeletion n.id ((g.edgesOf n.id).map (·.id))).map Notice.telling) =
      some {
        nodes := g.nodes.filter fun m => !m.id.sameKey n.id
        edges := g.edges.filter fun e => !touches e n.id } := by
  have htellings : (Notice.ofDeletion n.id ((g.edgesOf n.id).map (·.id))).map Notice.telling =
      (g.edgesOf n.id).map (fun e => (Notice.edgeDeleted e.id).telling) ++
        [(Notice.nodeDeleted n.id).telling] := by
    simp only [Notice.ofDeletion, List.map_append, List.map_map, Function.comp_def, List.map_cons,
      List.map_nil]
  have hedges : g.mirror.replay? ((g.edgesOf n.id).map fun e => (Notice.edgeDeleted e.id).telling) =
      some ⟨g.nodes, g.edges.filter fun e => !touches e n.id⟩ := by
    have hmem : ∀ e ∈ g.edgesOf n.id, e ∈ g.mirror.edges := fun e he => (List.mem_filter.1 he).1
    have hids : ((g.edgesOf n.id).map (·.id)).Nodup :=
      hg.edgeIds.sublist (List.filter_sublist.map _)
    rw [g.mirror.replay?_edgesDeleted hg.edgeTexts hmem hids]
    exact congrArg (fun edges => some (Mirror.mk g.nodes edges)) (hg.filter_edgesOf n.id)
  have hfree : Mirror.touched ⟨g.nodes, g.edges.filter fun e => !touches e n.id⟩ n.id = false := by
    rw [Mirror.touched, List.any_eq_false]
    intro e he
    obtain ⟨he, htouch⟩ := List.mem_filter.1 he
    have hsource := Value.eqv_eq_sameKey (hg.isText_endpoint he .source) n.id
    have htarget := Value.eqv_eq_sameKey (hg.isText_endpoint he .target) n.id
    rw [Edge.endpoint_source] at hsource
    rw [Edge.endpoint_target] at htarget
    rw [hsource, htarget]
    rwa [Bool.not_eq_true', ← Bool.not_eq_true] at htouch
  rw [htellings, Mirror.replay?_append, hedges, Option.bind_some, Mirror.replay?_singleton,
    Mirror.hear?_nodeDeleted _ hfree, Mirror.remove?_of_held hg.nodeTexts hn]
  rfl

/-- Every step of a valid graph tells what a mirror needs to follow it. -/
theorem Step.replay {notices : List Notice} (h : Step schema g g' notices)
    (hv : Valid schema g) :
    g.mirror.replay? (notices.map Notice.telling) = some g'.mirror := by
  have hg := hv.sound
  cases h with
  | @nodeAdded n _ h =>
    obtain ⟨hnew, -, -, rfl⟩ := addNode_eq_ok_iff.1 h
    have hids : ∀ m ∈ g.nodes, m.id ≠ n.id := by
      intro m hm hid
      rw [(hg.hasNode_iff n.id).2 ⟨m, hm, hid⟩] at hnew
      cases hnew
    rw [List.map_singleton, Mirror.replay?_singleton, Mirror.hear?_nodeAdded, mirror_nodes,
      Mirror.append?_of_new hg.nodeTexts hids]
    rfl
  | nodeUpdated h =>
    obtain ⟨n, hn, -, hm, -, rfl⟩ := updateNode_eq_some_iff.1 h
    obtain ⟨hmem, rfl⟩ := (hg.node?_eq_some_iff _ n).1 hn
    have hid := (Node.id_type_of_updated hm).1
    rw [List.map_singleton, Mirror.replay?_singleton, Mirror.hear?_nodeUpdated, mirror_nodes,
      Mirror.replace?_of_held hg.nodeTexts hmem hid.symm, hid]
    rfl
  | nodeDeleted h =>
    obtain ⟨hhas, rfl, rfl⟩ := deleteNode_eq_some_iff.1 h
    obtain ⟨n, hn, rfl⟩ := (hg.hasNode_iff _).1 hhas
    exact hg.replay_deletion hn
  | @edgeAdded e _ h =>
    obtain ⟨-, hnew, -, rfl⟩ := addEdge_eq_ok_iff.1 h
    have hids : ∀ f ∈ g.edges, f.id ≠ e.id := by
      intro f hf hid
      rw [(hg.hasEdge_iff e.id).2 ⟨f, hf, hid⟩] at hnew
      cases hnew
    rw [List.map_singleton, Mirror.replay?_singleton, Mirror.hear?_edgeAdded, mirror_edges,
      Mirror.append?_of_new hg.edgeTexts hids]
    rfl
  | edgeUpdated h =>
    obtain ⟨-, e, he, -, hf, -, rfl⟩ := updateEdge_eq_some_iff.1 h
    obtain ⟨hmem, rfl⟩ := (hg.edge?_eq_some_iff _ e).1 he
    have hid := (Edge.id_type_of_updated hf).1
    rw [List.map_singleton, Mirror.replay?_singleton, Mirror.hear?_edgeUpdated, mirror_edges,
      Mirror.replace?_of_held hg.edgeTexts hmem hid.symm, hid]
    rfl
  | edgeDeleted h =>
    obtain ⟨e, he, rfl⟩ := edge?_of_deleteEdge h
    obtain ⟨hmem, rfl⟩ := (hg.edge?_eq_some_iff _ e).1 he
    rw [List.map_singleton, Mirror.replay?_singleton, Mirror.hear?_edgeDeleted, mirror_edges,
      Mirror.remove?_of_held hg.edgeTexts hmem]
    rfl
  | heldDeleted h =>
    obtain ⟨e, hmem, rfl, rfl⟩ := hg.removed_of_deleteHeld h
    rw [List.map_singleton, Mirror.replay?_singleton, Mirror.hear?_edgeDeleted, mirror_edges,
      Mirror.remove?_of_held hg.edgeTexts hmem]
    rfl
  | cleared => rfl

end Graph

end PropertyGraph
