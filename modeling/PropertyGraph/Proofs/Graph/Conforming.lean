import PropertyGraph.Proofs.Graph.Sound

/-!
# Graphs that conform to a schema

A graph conforms to a schema when the type of every node and every edge is declared, its data has
exactly the declared fields with values of their kinds, every edge runs between nodes of the types
that its type asks for, and no two edges of one type meet at a side that takes only one.

The second half of the file says when the checks of a node and of an edge pass:
`checkNode_eq_ok_iff` and `checkEdge_eq_ok_iff` in the terms of `NodeFits` and `EdgeFits`, and
`crowdFault?_eq_none_iff` in terms of the list of edges, which is where the adjacency comes in.
-/

namespace PropertyGraph

theorem Value.eqv_text_right_iff (v : Value) (s : String) :
    v.eqv (.text s) = true ↔ v = .text s := by
  cases v with
  | text t => rw [eqv_text_text, beq_iff_eq, Value.text.injEq]
  | _ => simp [eqv, sameNumber, number?]

namespace Graph

/-- The type of a node is declared, and its data is as declared. -/
def NodeFits (s : Schema) (n : Node) : Prop :=
  ∃ name t, n.type = .text name ∧ s.nodeType? name = some t ∧ Schema.Conforms t.fields n.data

/-- The type of an edge is declared, its data is as declared, and its ends are nodes of the types
that it asks for. -/
def EdgeFits (s : Schema) (nodes : List Node) (e : Edge) : Prop :=
  ∃ name t, e.type = .text name ∧ s.edgeType? name = some t ∧ Schema.Conforms t.fields e.data ∧
    ∀ side, ∃ n ∈ nodes, n.id = e.endpoint side ∧ n.type = .text (t.side side).nodeType

/-- Two edges are not both at one node, on a side of their type that takes only one. -/
def Uncrowded (s : Schema) (e f : Edge) : Prop :=
  ∀ name t side, e.type = .text name → f.type = .text name → s.edgeType? name = some t →
    (t.side side).multiple = false → e.endpoint side ≠ f.endpoint side

/-- Nodes and edges are as the schema declares them. -/
structure Conforming (s : Schema) (g : Graph) : Prop where
  nodes : ∀ n ∈ g.nodes, NodeFits s n
  edges : ∀ e ∈ g.edges, EdgeFits s g.nodes e
  single : g.edges.Pairwise (Uncrowded s)

theorem conforming_empty (s : Schema) : empty.Conforming s := ⟨nofun, nofun, List.Pairwise.nil⟩

theorem Uncrowded.symm {s : Schema} {e f : Edge} (h : Uncrowded s e f) : Uncrowded s f e :=
  fun name t side hf he ht hm heq => h name t side he hf ht hm heq.symm

/-! ### Checking a node -/

theorem declared?_eq_some_iff {α : Type} (types : Record α) (type : Value) (p : String × α) :
    Schema.declared? types type = .ok (some p) ↔
      type = .text p.1 ∧ Record.get? types p.1 = some p.2 := by
  obtain ⟨name, t⟩ := p
  cases type with
  | text s =>
    rw [Schema.declared?, Except.ok.injEq, Option.map_eq_some_iff, Value.text.injEq]
    constructor
    · rintro ⟨u, hu, hp⟩
      obtain ⟨rfl, rfl⟩ := Prod.mk.inj hp
      exact ⟨rfl, hu⟩
    · rintro ⟨rfl, hu⟩
      exact ⟨t, hu, rfl⟩
  | _ => simp only [Schema.declared?, reduceCtorEq, false_and, iff_false]; split <;> simp

theorem checkData_eq_ok_iff (cls : EntityClass) (type : Value) (declared : Record Kind)
    (data : Fields) :
    Schema.checkData cls type declared (.ofFields data) = .ok () ↔
      Schema.Conforms declared data := by
  rw [Schema.checkData_ofFields, Schema.refuse_eq_ok_iff, Schema.dataFault?_eq_none_iff]

theorem checkNode_eq_ok_iff (s : Schema) (n : Node) :
    checkNode (some s) n = .ok () ↔ NodeFits s n := by
  simp only [checkNode, Schema.checkNode, bind_eq_ok_iff]
  constructor
  · rintro ⟨t, ⟨found, hfound, ht⟩, -⟩
    rcases found with _ | ⟨name, u⟩
    · cases ht
    · obtain ⟨hname, hu⟩ := (declared?_eq_some_iff _ _ _).1 hfound
      obtain ⟨_, hdata, -⟩ := bind_eq_ok_iff.1 ht
      exact ⟨name, u, hname, hu, (checkData_eq_ok_iff _ _ _ _).1 hdata⟩
  · rintro ⟨name, t, hname, ht, hdata⟩
    refine ⟨t, ⟨some (name, t), (declared?_eq_some_iff _ _ _).2 ⟨hname, ht⟩, ?_⟩, rfl⟩
    exact bind_eq_ok_iff.2 ⟨(), (checkData_eq_ok_iff _ _ _ _).2 hdata, rfl⟩

/-! ### Checking an edge -/

theorem endsFault?_eq_none_iff (g : Graph) (e : Edge) :
    g.endsFault? e = none ↔ ∀ side, g.hasNode (e.endpoint side) = true := by
  have hsides : (∀ side, g.hasNode (e.endpoint side) = true) ↔ g.missingEnds e = [] := by
    rw [missingEnds, List.filter_eq_nil_iff]
    constructor
    · intro h id hid
      have hs := h .source
      have ht := h .target
      simp only [List.mem_cons, List.not_mem_nil, or_false] at hid
      rcases hid with rfl | rfl
      · simpa using hs
      · simpa using ht
    · intro h side
      cases side
      · simpa using h e.source (by simp)
      · simpa using h e.target (by simp)
  rw [hsides, endsFault?]
  split
  · rename_i hnil
    simp [hnil]
  · rename_i hne
    refine iff_of_false ?_ hne
    split <;> simp

theorem endpointFault?_eq_none_iff (type : Value) (t : EdgeType) (sourceType targetType : Value) :
    Schema.endpointFault? type t sourceType targetType = none ↔
      sourceType = .text t.source.nodeType ∧ targetType = .text t.target.nodeType := by
  rw [← Value.eqv_text_right_iff, ← Value.eqv_text_right_iff, Schema.endpointFault?]
  cases sourceType.eqv (.text t.source.nodeType) <;>
    cases targetType.eqv (.text t.target.nodeType) <;> simp

theorem schemaCheckEdge_eq_ok_iff (s : Schema) (type : Value) (data : Fields)
    (sourceType targetType : Value) (t : EdgeType) :
    s.checkEdge type (.ofFields data) sourceType targetType = .ok t ↔
      ∃ name, type = .text name ∧ s.edgeType? name = some t ∧ Schema.Conforms t.fields data ∧
        sourceType = .text t.source.nodeType ∧ targetType = .text t.target.nodeType := by
  simp only [Schema.checkEdge, bind_eq_ok_iff]
  constructor
  · rintro ⟨found, hfound, ht⟩
    rcases found with _ | ⟨name, u⟩
    · cases ht
    · obtain ⟨hname, hu⟩ := (declared?_eq_some_iff _ _ _).1 hfound
      obtain ⟨_, hdata, ht⟩ := bind_eq_ok_iff.1 ht
      obtain ⟨_, hends, ht⟩ := bind_eq_ok_iff.1 ht
      cases ht
      rw [Schema.refuse_eq_ok_iff, endpointFault?_eq_none_iff] at hends
      exact ⟨name, hname, hu, (checkData_eq_ok_iff _ _ _ _).1 hdata, hends⟩
  · rintro ⟨name, hname, ht, hdata, hends⟩
    refine ⟨some (name, t), (declared?_eq_some_iff _ _ _).2 ⟨hname, ht⟩, ?_⟩
    refine bind_eq_ok_iff.2 ⟨(), (checkData_eq_ok_iff _ _ _ _).2 hdata, ?_⟩
    refine bind_eq_ok_iff.2 ⟨(), ?_, rfl⟩
    rw [Schema.refuse_eq_ok_iff, endpointFault?_eq_none_iff]
    exact hends

/-- The fault that the link of an edge with an identifier is, for an edge that meets it. -/
theorem linkFault?_of_named (g : Graph) {f : Edge} (hf : f.id ≠ .null) (e : Edge) (side : Side)
    (ignored : Value) :
    g.linkFault? e side ignored ⟨f.id, f⟩ =
      if f.id.eqv ignored then none
      else if f.type.eqv e.type then some (.cardinality e.type side (e.endpoint side) f.id)
      else none := by
  rw [linkFault?, linkedEdge?_of_named g hf]

/-- The link of an edge with an identifier is no fault of another edge, if it is ignored or of
another type. -/
theorem linkFault?_eq_none_iff {g : Graph} {f : Edge} (hf : f.id ≠ .null) (e : Edge) (side : Side)
    (ignored : Value) :
    g.linkFault? e side ignored ⟨f.id, f⟩ = none ↔
      (f.id.eqv ignored = false → f.type.eqv e.type = false) := by
  rw [linkFault?_of_named g hf]
  by_cases hid : f.id.eqv ignored = true
  · simp [hid]
  · simp [hid]

/-- On one side of a node, each edge has its link under its identifier, and there are no other
links. -/
structure NamedLinks (g : Graph) (side : Side) (id : Value) : Prop where
  links : ∀ l, l ∈ g.adjacency.linksAt side id ↔
    ∃ f ∈ g.edges, (f.endpoint side).sameKey id = true ∧ l = ⟨f.id, f⟩
  named : ∀ f ∈ g.edges, (f.endpoint side).sameKey id = true → f.id ≠ .null

theorem Linked.namedLinks {g : Graph} (hl : g.Linked) (hg : g.Sound) (side : Side) (id : Value) :
    NamedLinks g side id where
  links l := by
    rw [hl.mem_linksAt_iff hg]
    refine exists_congr fun f => and_congr_right fun hf => and_congr_left fun _ => ?_
    exact (Value.sameKey_iff_eq_left (hg.isText_endpoint hf side) id).symm
  named _ hf _ := hg.edge_named hf

/-- A side that takes only one is free for an edge when no edge but the one that is ignored has
the same type and the same node there. -/
theorem NamedLinks.crowdFault?_eq_none_iff {g : Graph} {e : Edge} {side : Side}
    (h : NamedLinks g side (e.endpoint side)) (ignored : Value) :
    g.crowdFault? e side ignored = none ↔
      ∀ f ∈ g.edges, (f.endpoint side).sameKey (e.endpoint side) = true →
        f.id.eqv ignored = false → f.type.eqv e.type = false := by
  rw [crowdFault?, List.findSome?_eq_none_iff]
  constructor
  · intro hfree f hf hend
    rw [← linkFault?_eq_none_iff (h.named f hf hend)]
    exact hfree _ ((h.links _).2 ⟨f, hf, hend, rfl⟩)
  · intro hfree l hl
    obtain ⟨f, hf, hend, rfl⟩ := (h.links l).1 hl
    rw [linkFault?_eq_none_iff (h.named f hf hend)]
    exact hfree f hf hend

theorem crowdFault?_eq_none_iff {g : Graph} (hg : g.Sound) (hl : g.Linked) (e : Edge)
    (side : Side) (ignored : Value) :
    g.crowdFault? e side ignored = none ↔
      ∀ f ∈ g.edges, f.endpoint side = e.endpoint side → f.id ≠ ignored →
        f.type.eqv e.type = false := by
  rw [(hl.namedLinks hg side _).crowdFault?_eq_none_iff]
  refine forall₂_congr fun f hf => ?_
  rw [Value.sameKey_iff_eq_left (hg.isText_endpoint hf side),
    ← Bool.not_eq_true (f.id.eqv ignored), Value.eqv_iff_eq (hg.edgeTexts f hf)]

theorem cardinalityFault?_eq_none_iff (g : Graph) (t : EdgeType) (e : Edge) (ignored : Value) :
    g.cardinalityFault? t e ignored = none ↔
      ∀ side, (t.side side).multiple = false → g.crowdFault? e side ignored = none := by
  rw [cardinalityFault?, Option.or_eq_none_iff]
  constructor
  · rintro ⟨hs, ht⟩ side hm
    cases side
    · simpa [show t.source.multiple = false from hm] using hs
    · simpa [show t.target.multiple = false from hm] using ht
  · intro h
    constructor
    · split
      · rfl
      · rename_i hm
        exact h .source (eq_false_of_ne_true hm)
    · split
      · rfl
      · rename_i hm
        exact h .target (eq_false_of_ne_true hm)

theorem checkEdge_none_eq_ok_iff {g : Graph} (hg : g.Sound) (e : Edge) (ignored : Value) :
    g.checkEdge none e ignored = .ok () ↔ ∀ side, ∃ n ∈ g.nodes, n.id = e.endpoint side := by
  simp only [checkEdge, bind_eq_ok_iff, Schema.refuse_eq_ok_iff, endsFault?_eq_none_iff,
    hg.hasNode_iff]
  constructor
  · rintro ⟨_, h, -⟩
    exact h
  · exact fun h => ⟨(), h, rfl⟩

/-- The checks of an edge pass when it is as the schema declares, with its ends there, and no other
edge crowds it. -/
theorem checkEdge_some_eq_ok_iff {g : Graph} (hg : g.Sound) (hl : g.Linked) (s : Schema) (e : Edge)
    (ignored : Value) :
    g.checkEdge (some s) e ignored = .ok () ↔
      EdgeFits s g.nodes e ∧ ∀ f ∈ g.edges, f.id ≠ ignored → Uncrowded s f e := by
  simp only [checkEdge, bind_eq_ok_iff, Schema.refuse_eq_ok_iff, endsFault?_eq_none_iff,
    schemaCheckEdge_eq_ok_iff, cardinalityFault?_eq_none_iff, crowdFault?_eq_none_iff hg hl]
  constructor
  · rintro ⟨-, hthere, t, ⟨name, hname, ht, hdata, hsource, htarget⟩, hfree⟩
    refine ⟨⟨name, t, hname, ht, hdata, fun side => ?_⟩, ?_⟩
    · obtain ⟨n, hn, hid⟩ := (hg.hasNode_iff _).1 (hthere side)
      refine ⟨n, hn, hid, ?_⟩
      rw [← hg.typeOf_eq hn, hid]
      cases side
      · exact hsource
      · exact htarget
    · intro f hf hid name' u side htype hename hu hm hend
      obtain rfl : name' = name := Value.text.inj (hename.symm.trans hname)
      obtain rfl : t = u := Option.some.inj (ht.symm.trans hu)
      have hother := hfree side hm f hf hend hid
      rw [htype, hname, Value.eqv_text_text, beq_self_eq_true] at hother
      cases hother
  · rintro ⟨⟨name, t, hname, ht, hdata, hends⟩, hfree⟩
    have htypes : ∀ side, g.typeOf (e.endpoint side) = .text (t.side side).nodeType := by
      intro side
      obtain ⟨n, hn, hid, htype⟩ := hends side
      rw [← hid, hg.typeOf_eq hn, htype]
    refine ⟨(), fun side => ?_, t, ⟨name, hname, ht, hdata, htypes .source, htypes .target⟩, ?_⟩
    · obtain ⟨n, hn, hid, -⟩ := hends side
      exact (hg.hasNode_iff _).2 ⟨n, hn, hid⟩
    · intro side hm f hf hend hid
      rw [← Bool.not_eq_true, hname, Value.eqv_text_right_iff]
      exact fun htype => hfree f hf hid name t side htype hname ht hm hend

/-- What the checks of an edge ask for, with a schema or without one. -/
theorem checkEdge_eq_ok_iff {g : Graph} (hg : g.Sound) (hl : g.Linked) (schema : Option Schema)
    (e : Edge) (ignored : Value) :
    g.checkEdge schema e ignored = .ok () ↔
      (∀ side, ∃ n ∈ g.nodes, n.id = e.endpoint side) ∧
        ∀ s, schema = some s →
          EdgeFits s g.nodes e ∧ ∀ f ∈ g.edges, f.id ≠ ignored → Uncrowded s f e := by
  cases schema with
  | none =>
    rw [checkEdge_none_eq_ok_iff hg]
    exact ⟨fun h => ⟨h, nofun⟩, fun h => h.1⟩
  | some s =>
    rw [checkEdge_some_eq_ok_iff hg hl]
    constructor
    · rintro ⟨hfit, hfree⟩
      obtain ⟨_, _, -, -, -, hends⟩ := id hfit
      refine ⟨fun side => ?_, fun u hu => Option.some.inj hu ▸ ⟨hfit, hfree⟩⟩
      obtain ⟨n, hn, hid, -⟩ := hends side
      exact ⟨n, hn, hid⟩
    · rintro ⟨-, h⟩
      exact h s rfl

end Graph

end PropertyGraph
