import PropertyGraph.Proofs.Graph.Step

/-!
# Documents of graphs

The document of a valid graph can be loaded into an empty graph with the same schema, in whatever
way the graph came about, and what comes of it has the same nodes and edges in the same order
(`Valid.exists_load`).

Loading goes through the nodes and then through the edges.  What was loaded so far is always a
beginning of the lists of the graph, and a beginning of a valid graph leaves room for what comes
next: its identifier is new, its ends are there, and nothing crowds it (`Valid.addNode_next`,
`Valid.addEdge_next`).
-/

namespace PropertyGraph.Graph

variable {schema : Option Schema} {g k : Graph}

/-! ### Reading a document -/

/-- Loading the document of a graph adds its nodes and then its edges. -/
theorem load_toValue (schema : Option Schema) (k g : Graph) :
    k.load schema g.toValue =
      (do let k ← g.nodes.foldlM (addNode schema) k; g.edges.foldlM (addEdge schema) k) := by
  have hnodes : (g.nodes.map Node.toValue).foldlM (loadNode schema) k =
      g.nodes.foldlM (addNode schema) k := by
    rw [List.foldlM_map]
    congr 1
    funext k n
    rw [loadNode, Node.ofValue_toValue]
    rfl
  have hedges : ∀ k : Graph, (g.edges.map Edge.toValue).foldlM (loadEdge schema) k =
      g.edges.foldlM (addEdge schema) k := by
    intro k
    rw [List.foldlM_map]
    congr 1
    funext k e
    rw [loadEdge, Edge.ofValue_toValue]
    rfl
  rw [← hnodes]
  simp only [← hedges]
  rfl

/-! ### The next node and the next edge -/

theorem requireKey_of_isText {id : Value} (h : isText id = true) : requireKey id = .ok () := by
  cases id with
  | text | points => simp [requireKey, Value.identifies]
  | _ => cases h

theorem requireNodeId_of_isText {id : Value} (h : isText id = true) :
    requireNodeId id = .ok () := by
  cases id with
  | text | points => exact requireKey_of_isText h
  | _ => cases h

/-- What comes later in a list without repetitions is none of what came before. -/
theorem ne_of_nodup_map {α : Type} {l before after : List α} {x : α} {id : α → Value}
    (hn : (l.map id).Nodup) (h : l = before ++ x :: after) : ∀ y ∈ before, id y ≠ id x := by
  subst h
  rw [List.map_append, List.nodup_append] at hn
  intro y hy
  exact hn.2.2 _ (List.mem_map_of_mem hy) _ (List.mem_map_of_mem List.mem_cons_self)

namespace Valid

/-- The first nodes of a valid graph are one by themselves. -/
theorem firstNodes (hv : Valid schema g) {before after : List Node}
    (h : g.nodes = before ++ after) : Valid schema ⟨before, [], []⟩ := by
  have hfirst : before <+: g.nodes := ⟨after, h.symm⟩
  apply (valid_empty schema).withNodes
  · exact fun n hn => hv.sound.nodeTexts n (hfirst.subset hn)
  · exact hv.sound.nodeIds.sublist (hfirst.sublist.map _)
  · exact fun s hs n hn => (hv.conforming s hs).nodes n (hfirst.subset hn)
  · exact nofun

theorem addNode_next (hv : Valid schema g) {before after : List Node} {n : Node}
    (h : g.nodes = before ++ n :: after) :
    Graph.addNode schema ⟨before, [], []⟩ n = .ok ⟨before ++ [n], [], []⟩ := by
  have hn : n ∈ g.nodes := h ▸ List.mem_append_right _ List.mem_cons_self
  have hnew : hasNode ⟨before, [], []⟩ n.id = false := by
    rw [← Bool.not_eq_true, (hv.firstNodes h).sound.hasNode_iff]
    rintro ⟨m, hm, hid⟩
    exact ne_of_nodup_map hv.sound.nodeIds h m hm hid
  have hcheck : checkNode schema n = .ok () := by
    cases schema with
    | none => rfl
    | some s => exact (checkNode_eq_ok_iff s n).2 ((hv.conforming s rfl).nodes n hn)
  exact addNode_eq_ok_iff.2
    ⟨hnew, hcheck, requireNodeId_of_isText (hv.sound.nodeTexts n hn), rfl⟩

/-- A valid graph with the nodes of another one and its first edges takes the next edge, and is
valid still. -/
theorem addEdge_next (hv : Valid schema g) (hk : Valid schema k) (hnodes : k.nodes = g.nodes)
    {e : Edge} {after : List Edge} (h : g.edges = k.edges ++ e :: after) :
    ∃ k', Graph.addEdge schema k e = .ok k' ∧ Valid schema k' ∧ k'.nodes = g.nodes ∧
      k'.edges = k.edges ++ [e] := by
  have he : e ∈ g.edges := h ▸ List.mem_append_right _ List.mem_cons_self
  have htext := hv.sound.edgeTexts e he
  have hnew : k.hasEdge e.id = false := by
    rw [← Bool.not_eq_true, hk.sound.hasEdge_iff]
    rintro ⟨f, hf, hid⟩
    exact ne_of_nodup_map hv.sound.edgeIds h f hf hid
  -- the edges before this one are among those that do not crowd it
  have hcheck : k.checkEdge schema e .null = .ok () := by
    rw [checkEdge_eq_ok_iff hk.sound hk.linked, hnodes]
    refine ⟨hv.sound.ends e he, fun s hs => ⟨(hv.conforming s hs).edges e he, ?_⟩⟩
    intro f hf _
    have hsingle := (hv.conforming s hs).single
    rw [h, List.pairwise_append] at hsingle
    exact hsingle.2.2 f hf e List.mem_cons_self
  exact ⟨_, addEdge_eq_ok_iff.2 ⟨requireKey_of_isText htext, hnew, hcheck, rfl⟩,
    hk.addEdge htext hnew hcheck, hnodes, rfl⟩

/-! ### All nodes and all edges -/

theorem addNodes (hv : Valid schema g) {before after : List Node}
    (h : g.nodes = before ++ after) :
    after.foldlM (Graph.addNode schema) ⟨before, [], []⟩ = .ok ⟨g.nodes, [], []⟩ := by
  induction after generalizing before with
  | nil =>
    rw [h, List.append_nil]
    rfl
  | cons n rest ih =>
    rw [List.foldlM_cons, hv.addNode_next h]
    exact ih (by rw [h, List.append_assoc, List.singleton_append])

theorem addEdges (hv : Valid schema g) (hk : Valid schema k) (hnodes : k.nodes = g.nodes)
    {after : List Edge} (h : g.edges = k.edges ++ after) :
    ∃ k', after.foldlM (Graph.addEdge schema) k = .ok k' ∧ Valid schema k' ∧
      k'.nodes = g.nodes ∧ k'.edges = g.edges := by
  induction after generalizing k with
  | nil =>
    rw [List.append_nil] at h
    exact ⟨k, rfl, hk, hnodes, h.symm⟩
  | cons e rest ih =>
    obtain ⟨k₁, hadd, hk₁, hnodes₁, hedges₁⟩ := hv.addEdge_next hk hnodes h
    obtain ⟨k₂, hfold, hk₂, hsame⟩ :=
      ih hk₁ hnodes₁ (by rw [h, hedges₁, List.append_assoc, List.singleton_append])
    refine ⟨k₂, ?_, hk₂, hsame⟩
    rw [List.foldlM_cons, hadd]
    exact hfold

/-- The document of a valid graph can be loaded, and what comes of it is valid and has the same
nodes and edges in the same order. -/
theorem exists_load (hv : Valid schema g) :
    ∃ g', empty.load schema g.toValue = .ok g' ∧ Valid schema g' ∧ g'.nodes = g.nodes ∧
      g'.edges = g.edges := by
  have hnodes := hv.addNodes (List.nil_append g.nodes).symm
  have hbare := hv.firstNodes (List.append_nil g.nodes).symm
  obtain ⟨g', hedges, hg', hsame⟩ := hv.addEdges hbare rfl (List.nil_append g.edges).symm
  refine ⟨g', ?_, hg', hsame⟩
  rw [load_toValue, empty, hnodes]
  exact hedges

theorem mem_neighbors_congr {g' : Graph} (hv : Valid schema g) (hv' : Valid schema g')
    (h : g'.edges = g.edges) (u v : Value) : v ∈ g'.neighbors u ↔ v ∈ g.neighbors u := by
  rw [hv'.linked.mem_neighbors_iff hv'.sound, hv.linked.mem_neighbors_iff hv.sound, h]

theorem mem_predecessors_congr {g' : Graph} (hv : Valid schema g) (hv' : Valid schema g')
    (h : g'.edges = g.edges) (u v : Value) : u ∈ g'.predecessors v ↔ u ∈ g.predecessors v := by
  rw [hv'.linked.mem_predecessors_iff hv'.sound, hv.linked.mem_predecessors_iff hv.sound, h]

end Valid

end PropertyGraph.Graph
