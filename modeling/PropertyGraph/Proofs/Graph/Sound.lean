import PropertyGraph.Proofs.Graph.Entries

/-!
# Sound graphs

A graph is *sound* when its nodes, and its edges, have texts for identifiers and no two of them the
same one, and when both ends of every edge are nodes that it holds.  It is *linked* when its
adjacency is tidy and has one entry for each of its edges and no others.

In a graph that is both, everything that is read off the adjacency can be read off the list of
edges: the links at a node (`mem_linksAt_iff`) with the edges that count for them
(`linkedEdge?_eq`), its neighbours and its predecessors (`mem_neighbors_iff`,
`mem_predecessors_iff`), which do not repeat (`nodup_neighbors`, `nodup_predecessors`).
-/

namespace PropertyGraph

@[simp] theorem Edge.endpoint_source (e : Edge) : e.endpoint .source = e.source := rfl

@[simp] theorem Edge.endpoint_target (e : Edge) : e.endpoint .target = e.target := rfl

namespace Graph

/-- Entities are known by texts, each by its own one, and no edge has an end that is not there. -/
structure Sound (g : Graph) : Prop where
  nodeTexts : ∀ n ∈ g.nodes, isText n.id = true
  edgeTexts : ∀ e ∈ g.edges, isText e.id = true
  nodeIds : (g.nodes.map (·.id)).Nodup
  edgeIds : (g.edges.map (·.id)).Nodup
  ends : ∀ e ∈ g.edges, ∀ side, ∃ n ∈ g.nodes, n.id = e.endpoint side

/-- The adjacency has one entry for each edge, and nothing else. -/
structure Linked (g : Graph) : Prop where
  tidy : g.adjacency.Tidy
  entries : g.adjacency.entries.Perm (g.edges.map Edge.entry)

theorem sound_empty : empty.Sound :=
  ⟨nofun, nofun, List.nodup_nil, List.nodup_nil, nofun⟩

theorem linked_empty : empty.Linked := ⟨Adjacency.tidy_nil, List.Perm.refl _⟩

/-! ### Looking things up -/

namespace Sound

variable {g : Graph}

theorem node?_eq_some_iff (h : g.Sound) (id : Value) (n : Node) :
    g.node? id = some n ↔ n ∈ g.nodes ∧ n.id = id :=
  find?_sameKey_eq_some_iff h.nodeTexts h.nodeIds id n

theorem edge?_eq_some_iff (h : g.Sound) (id : Value) (e : Edge) :
    g.edge? id = some e ↔ e ∈ g.edges ∧ e.id = id :=
  find?_sameKey_eq_some_iff h.edgeTexts h.edgeIds id e

theorem hasNode_iff (h : g.Sound) (id : Value) :
    g.hasNode id = true ↔ ∃ n ∈ g.nodes, n.id = id := by
  rw [hasNode, Option.isSome_iff_exists]
  exact exists_congr fun n => h.node?_eq_some_iff id n

theorem hasEdge_iff (h : g.Sound) (id : Value) :
    g.hasEdge id = true ↔ ∃ e ∈ g.edges, e.id = id := by
  rw [hasEdge, Option.isSome_iff_exists]
  exact exists_congr fun e => h.edge?_eq_some_iff id e

theorem edge_named (h : g.Sound) {e : Edge} (he : e ∈ g.edges) : e.id ≠ .null :=
  Value.ne_null_of_isText (h.edgeTexts e he)

/-- The ends of an edge are texts, as the nodes there are known by texts. -/
theorem isText_endpoint (h : g.Sound) {e : Edge} (he : e ∈ g.edges) (side : Side) :
    isText (e.endpoint side) = true := by
  obtain ⟨n, hn, hid⟩ := h.ends e he side
  exact hid ▸ h.nodeTexts n hn

theorem touches_iff (h : g.Sound) {e : Edge} (he : e ∈ g.edges) (id : Value) :
    touches e id = true ↔ e.source = id ∨ e.target = id := by
  have hs := Value.sameKey_iff_eq_left (h.isText_endpoint he .source) id
  have ht := Value.sameKey_iff_eq_left (h.isText_endpoint he .target) id
  rw [touches, Bool.or_eq_true]
  exact or_congr hs ht

/-- The type of a node that is there. -/
theorem typeOf_eq (h : g.Sound) {n : Node} (hn : n ∈ g.nodes) : g.typeOf n.id = n.type := by
  rw [typeOf, (h.node?_eq_some_iff n.id n).2 ⟨hn, rfl⟩]

end Sound

/-- For the link of an edge with an identifier, that edge counts. -/
theorem linkedEdge?_of_named (g : Graph) {e : Edge} (h : e.id ≠ .null) :
    g.linkedEdge? ⟨e.id, e⟩ = some e := by
  unfold linkedEdge?
  split
  · rename_i hnull
    exact absurd hnull h
  · rfl

/-! ### What the adjacency says -/

namespace Linked

variable {g : Graph}

/-- A link of a bundle is that of an edge between the nodes that the bundle joins. -/
theorem edge_of_link (h : g.Linked) {b : Bundle} (hb : b ∈ g.adjacency) {l : Link}
    (hl : l ∈ b.links) :
    ∃ e ∈ g.edges, l = ⟨e.id, e⟩ ∧ ∀ side, b.endpoint side = e.endpoint side := by
  have hx := h.entries.subset ((Adjacency.mem_entries_iff _ _).2 ⟨b, hb, l, hl, rfl⟩)
  obtain ⟨e, he, hx⟩ := List.mem_map.1 hx
  obtain ⟨key, edge⟩ := l
  injection hx with hs ht hk hedge
  subst hk hedge
  refine ⟨e, he, rfl, fun side => ?_⟩
  cases side
  · exact hs.symm
  · exact ht.symm

/-- Every edge has its link, in a bundle between its ends. -/
theorem link_of_edge (h : g.Linked) {e : Edge} (he : e ∈ g.edges) :
    ∃ b ∈ g.adjacency, (⟨e.id, e⟩ : Link) ∈ b.links ∧
      ∀ side, b.endpoint side = e.endpoint side := by
  have hx := h.entries.symm.subset (List.mem_map_of_mem (f := Edge.entry) he)
  obtain ⟨b, hb, l, hl, hx⟩ := (Adjacency.mem_entries_iff _ _).1 hx
  obtain ⟨key, edge⟩ := l
  injection hx with hs ht hk hedge
  subst hk hedge
  refine ⟨b, hb, hl, fun side => ?_⟩
  cases side
  · exact hs.symm
  · exact ht.symm

/-- The links at a node are those of the edges with that end. -/
theorem mem_linksAt_iff (h : g.Linked) (hg : g.Sound) (side : Side) (id : Value) (l : Link) :
    l ∈ g.adjacency.linksAt side id ↔
      ∃ e ∈ g.edges, e.endpoint side = id ∧ l = ⟨e.id, e⟩ := by
  simp only [Adjacency.linksAt, Adjacency.bundlesAt, List.mem_flatMap, List.mem_filter]
  constructor
  · rintro ⟨b, ⟨hb, hkey⟩, hl⟩
    obtain ⟨e, he, rfl, hends⟩ := h.edge_of_link hb hl
    rw [hends side, Value.sameKey_iff_eq_left (hg.isText_endpoint he side)] at hkey
    exact ⟨e, he, hkey, rfl⟩
  · rintro ⟨e, he, rfl, rfl⟩
    obtain ⟨b, hb, hl, hends⟩ := h.link_of_edge he
    refine ⟨b, ⟨hb, ?_⟩, hl⟩
    rw [hends side, Value.sameKey_iff_eq (hg.isText_endpoint he side)]

/-- The edge that counts for a link at a node is the one that is found under its key. -/
theorem linkedEdge?_eq (h : g.Linked) (hg : g.Sound) {side : Side} {id : Value} {l : Link}
    (hl : l ∈ g.adjacency.linksAt side id) : g.linkedEdge? l = g.edge? l.key := by
  obtain ⟨e, he, -, rfl⟩ := (h.mem_linksAt_iff hg side id l).1 hl
  rw [linkedEdge?_of_named g (hg.edge_named he)]
  exact ((hg.edge?_eq_some_iff e.id e).2 ⟨he, rfl⟩).symm

/-- Two nodes are joined exactly when an edge runs from the first to the second. -/
theorem mem_ends_iff (h : g.Linked) (source target : Value) :
    (source, target) ∈ g.adjacency.map Bundle.ends ↔
      ∃ e ∈ g.edges, e.source = source ∧ e.target = target := by
  constructor
  · intro hmem
    obtain ⟨b, hb, hends⟩ := List.mem_map.1 hmem
    obtain ⟨l, hl⟩ := List.exists_mem_of_ne_nil _ (h.tidy.filled b hb)
    obtain ⟨e, he, -, hside⟩ := h.edge_of_link hb hl
    exact ⟨e, he, (hside .source).symm.trans (Prod.mk.inj hends).1,
      (hside .target).symm.trans (Prod.mk.inj hends).2⟩
  · rintro ⟨e, he, rfl, rfl⟩
    obtain ⟨b, hb, -, hside⟩ := h.link_of_edge he
    exact List.mem_map.2 ⟨b, hb, Prod.ext (hside .source) (hside .target)⟩

/-- The ends of a bundle are texts. -/
theorem isText_bundle (h : g.Linked) (hg : g.Sound) {b : Bundle} (hb : b ∈ g.adjacency)
    (side : Side) : isText (b.endpoint side) = true := by
  obtain ⟨l, hl⟩ := List.exists_mem_of_ne_nil _ (h.tidy.filled b hb)
  obtain ⟨e, he, -, hside⟩ := h.edge_of_link hb hl
  rw [hside side]
  exact hg.isText_endpoint he side

theorem bundlesAt_eq (h : g.Linked) (hg : g.Sound) {side : Side} {id : Value} {b : Bundle} :
    b ∈ g.adjacency.bundlesAt side id ↔ b ∈ g.adjacency ∧ b.endpoint side = id := by
  rw [Adjacency.bundlesAt, List.mem_filter]
  refine and_congr_right fun hb => ?_
  exact Value.sameKey_iff_eq_left (h.isText_bundle hg hb side) id

/-- The neighbours of a node are the targets of the edges that leave it. -/
theorem mem_neighbors_iff (h : g.Linked) (hg : g.Sound) (u v : Value) :
    v ∈ g.neighbors u ↔ ∃ e ∈ g.edges, e.source = u ∧ e.target = v := by
  have hmem : v ∈ g.adjacency.neighbors u ↔ (u, v) ∈ g.adjacency.map Bundle.ends := by
    simp only [Adjacency.neighbors, List.mem_map, h.bundlesAt_eq hg, Bundle.ends, Prod.mk.injEq,
      and_assoc]
    rfl
  rw [neighbors]
  split
  · rw [hmem, h.mem_ends_iff]
  · rename_i hu
    refine iff_of_false List.not_mem_nil ?_
    rintro ⟨e, he, rfl, -⟩
    exact hu ((hg.hasNode_iff e.source).2 (hg.ends e he .source))

/-- The predecessors of a node are the sources of the edges that enter it. -/
theorem mem_predecessors_iff (h : g.Linked) (hg : g.Sound) (u v : Value) :
    u ∈ g.predecessors v ↔ ∃ e ∈ g.edges, e.source = u ∧ e.target = v := by
  have hmem : u ∈ g.adjacency.predecessors v ↔ (u, v) ∈ g.adjacency.map Bundle.ends := by
    simp only [Adjacency.predecessors, List.mem_map, h.bundlesAt_eq hg, Bundle.ends,
      Prod.mk.injEq, and_assoc]
    exact exists_congr fun b => and_congr_right fun _ => and_comm
  rw [predecessors]
  split
  · rw [hmem, h.mem_ends_iff]
  · rename_i hv
    refine iff_of_false List.not_mem_nil ?_
    rintro ⟨e, he, -, rfl⟩
    exact hv ((hg.hasNode_iff e.target).2 (hg.ends e he .target))

theorem nodup_neighbors (h : g.Linked) (hg : g.Sound) (u : Value) : (g.neighbors u).Nodup := by
  rw [neighbors]
  split
  · rw [Adjacency.neighbors]
    -- bundles from one node differ in where they lead
    refine List.Nodup.map_on ?_ (List.Nodup.of_map _ h.tidy.apart |>.filter _)
    intro b hb c hc hbc
    obtain ⟨hb, hbu⟩ := (h.bundlesAt_eq hg).1 hb
    obtain ⟨hc, hcu⟩ := (h.bundlesAt_eq hg).1 hc
    exact List.inj_on_of_nodup_map h.tidy.apart hb hc (Prod.ext (hbu.trans hcu.symm) hbc)
  · exact List.nodup_nil

theorem nodup_predecessors (h : g.Linked) (hg : g.Sound) (v : Value) :
    (g.predecessors v).Nodup := by
  rw [predecessors]
  split
  · rw [Adjacency.predecessors]
    refine List.Nodup.map_on ?_ (List.Nodup.of_map _ h.tidy.apart |>.filter _)
    intro b hb c hc hbc
    obtain ⟨hb, hbv⟩ := (h.bundlesAt_eq hg).1 hb
    obtain ⟨hc, hcv⟩ := (h.bundlesAt_eq hg).1 hc
    exact List.inj_on_of_nodup_map h.tidy.apart hb hc (Prod.ext hbc (hbv.trans hcv.symm))
  · exact List.nodup_nil

/-- A node is touched by no edge exactly when it has neither neighbours nor predecessors. -/
theorem edgesOf_eq_nil_iff (h : g.Linked) (hg : g.Sound) (u : Value) :
    g.edgesOf u = [] ↔ g.neighbors u = [] ∧ g.predecessors u = [] := by
  rw [edgesOf, List.filter_eq_nil_iff]
  constructor
  · intro hnone
    refine ⟨List.eq_nil_iff_forall_not_mem.2 fun v hv => ?_,
      List.eq_nil_iff_forall_not_mem.2 fun v hv => ?_⟩
    · obtain ⟨e, he, hs, -⟩ := (h.mem_neighbors_iff hg u v).1 hv
      exact hnone e he ((hg.touches_iff he u).2 (.inl hs))
    · obtain ⟨e, he, -, ht⟩ := (h.mem_predecessors_iff hg v u).1 hv
      exact hnone e he ((hg.touches_iff he u).2 (.inr ht))
  · rintro ⟨hto, hfrom⟩ e he htouch
    rcases (hg.touches_iff he u).1 htouch with hs | ht
    · have hmem := (h.mem_neighbors_iff hg u e.target).2 ⟨e, he, hs, rfl⟩
      rw [hto] at hmem
      exact List.not_mem_nil hmem
    · have hmem := (h.mem_predecessors_iff hg e.source u).2 ⟨e, he, rfl, ht⟩
      rw [hfrom] at hmem
      exact List.not_mem_nil hmem

end Linked

end Graph

end PropertyGraph
