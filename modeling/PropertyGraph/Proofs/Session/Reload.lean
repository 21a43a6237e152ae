import PropertyGraph.Proofs.Graph.Document
import PropertyGraph.Proofs.Session.Onlookers

/-!
# Loading what was written

Every graph that a run shows can be written as a document and loaded into a new session with the
same schema: this goes through, and the nodes, the edges and the document are the same again
(`reload_of_shown`).

The listeners of the new session may ask questions meanwhile.  `Announced` says what they hear:
whoever is subscribed to an event is called once for each notice of it, in the order of the notices.
-/

namespace PropertyGraph

/-- Who was called and what was given, if somebody was called. -/
def Occurrence.hearing? : Occurrence → Option (String × List Payload)
  | .called _ name payload _ => some (name, payload)
  | _ => none

namespace Bus

/-- What the listeners hear of a notice, each with its name. -/
def hearings (b : Bus Listener) (n : Notice) : List (String × List Payload) :=
  (b.entriesOf n.event).map fun e => (e.listener.name, n.payload)

/-- How often the listeners of a name are subscribed to an event. -/
def audience (b : Bus Listener) (event : Event) (name : String) : Nat :=
  (b.entriesOf event).countP fun e => e.listener.name = name

theorem hearings_of_name (b : Bus Listener) (n : Notice) (name : String) :
    ((b.hearings n).filter fun h => h.1 = name).map (·.2) =
      List.replicate (b.audience n.event name) n.payload := by
  rw [hearings, audience, List.filter_map, List.map_map, List.countP_eq_length_filter,
    ← List.map_const']
  rfl

end Bus

namespace Session

variable {depth : Nat} {α : Type}

/-- Everything that listeners were given, in order, with their names. -/
def hearings (s : Session) : List (String × List Payload) :=
  s.history.filterMap Occurrence.hearing?

/-- What the listeners of a name were given, in order. -/
def heard (name : String) (s : Session) : List (List Payload) :=
  (s.hearings.filter fun h => h.1 = name).map (·.2)

/-! ### What is added to the record of a session -/

/-- One session differs from another only in what happened since: some things were told, and
listeners were given something. -/
structure Adds (told : List (Event × List Payload)) (given : List (String × List Payload))
    (s t : Session) : Prop where
  same : t = { s with history := t.history }
  emitted : t.emitted = s.emitted ++ told
  hearings : t.hearings = s.hearings ++ given

namespace Adds

variable {told more : List (Event × List Payload)} {given others : List (String × List Payload)}
  {s t u : Session}

theorem refl (s : Session) : Adds [] [] s s :=
  ⟨rfl, (List.append_nil _).symm, (List.append_nil _).symm⟩

theorem trans (h : Adds told given s t) (h' : Adds more others t u) :
    Adds (told ++ more) (given ++ others) s u where
  same := by rw [h'.same, h.same]
  emitted := by rw [h'.emitted, h.emitted, List.append_assoc]
  hearings := by rw [h'.hearings, h.hearings, List.append_assoc]

/-- What happens hangs on no graph. -/
theorem withGraph (h : Adds told given s t) (g : Graph) :
    Adds told given { s with graph := g } { t with graph := g } where
  same := by conv_lhs => rw [h.same]
  emitted := h.emitted
  hearings := h.hearings

theorem of_occurrences (s : Session) (os : List Occurrence) :
    Adds (os.filterMap Occurrence.telling?) (os.filterMap Occurrence.hearing?)
      s { s with history := s.history ++ os } :=
  ⟨rfl, List.filterMap_append, List.filterMap_append⟩

end Adds

/-- Some notices are told while the graph and those who listen stay the same, and whoever is
subscribed to an event hears all notices of it. -/
abbrev Announced (notices : List Notice) (s t : Session) : Prop :=
  Adds (notices.map Notice.telling) (notices.flatMap s.bus.hearings) s t

theorem Announced.trans {notices more : List Notice} {s t u : Session}
    (h : Announced notices s t) (h' : Announced more t u) : Announced (notices ++ more) s u := by
  have hbus : t.bus = s.bus := by rw [h.same]
  have hall := Adds.trans h h'
  rwa [hbus, ← List.map_append, ← List.flatMap_append] at hall

theorem Announced.heard_eq {notices : List Notice} {s t : Session} (h : Announced notices s t)
    (name : String) :
    t.heard name = s.heard name ++
      notices.flatMap fun n => List.replicate (s.bus.audience n.event name) n.payload := by
  rw [heard, h.hearings, List.filter_append, List.map_append, List.filter_flatMap,
    List.map_flatMap]
  simp only [Bus.hearings_of_name]
  rfl

/-! ### Telling those who ask -/

/-- All listeners only ask questions. -/
def Asked (s : Session) : Prop := ∀ e ∈ s.bus.entries, e.listener.Asks

theorem exists_call {e : Bus.Entry Listener} (he : e.listener.Asks) (payload : List Payload)
    (s : Session) :
    ∃ t, carryOut (call (run depth) payload e) s = (.ok ⟨⟩, t) ∧
      Adds [] [(e.listener.name, payload)] s t := by
  let o : Occurrence := .called e.subscription.token e.listener.name payload s.graph
  obtain ⟨os, hos, h⟩ := carryOut_perform_asks depth e.listener.name
    (he (s.calls e.subscription.token) payload) { s with history := s.history ++ [o] }
  have hcalled : Adds [] [(e.listener.name, payload)] s { s with history := s.history ++ [o] } :=
    Adds.of_occurrences s [o]
  have hadds := hcalled.trans (.of_occurrences _ os)
  rw [filterMap_of_did hos fun _ _ _ _ => rfl, filterMap_of_did hos fun _ _ _ _ => rfl] at hadds
  exact ⟨_, h, hadds⟩

theorem exists_calls {es : List (Bus.Entry Listener)} (hes : ∀ e ∈ es, e.listener.Asks)
    (payload : List Payload) (s : Session) :
    ∃ t, carryOut (es.forM (call (run depth) payload)) s = (.ok ⟨⟩, t) ∧
      Adds [] (es.map fun e => (e.listener.name, payload)) s t := by
  induction es generalizing s with
  | nil => exact ⟨s, rfl, .refl s⟩
  | cons e rest ih =>
    rw [List.forall_mem_cons] at hes
    obtain ⟨t, ht, hfirst⟩ := exists_call hes.1 payload s
    obtain ⟨u, hu, hrest⟩ := ih hes.2 t
    refine ⟨u, ?_, hfirst.trans hrest⟩
    rw [carryOut_forM_cons, carryOut_bind_ok ht]
    exact hu

theorem exists_tell {s : Session} (hs : s.Asked) (n : Notice) :
    ∃ t, carryOut (tell (run depth) n) s = (.ok ⟨⟩, t) ∧ Announced [n] s t := by
  have htold : Adds [n.telling] [] s
      { s with history := s.history ++ [.told n.event n.payload] } :=
    Adds.of_occurrences s [.told n.event n.payload]
  obtain ⟨t, ht, hcalls⟩ := exists_calls (fun e he => hs e (List.mem_filter.1 he).1) n.payload
    { s with history := s.history ++ [.told n.event n.payload] }
  refine ⟨t, ht, ?_⟩
  rw [Announced, List.flatMap_singleton]
  exact htold.trans hcalls

theorem commit_singleton (inner : Command → Act Outcome) (g : Graph) (n : Notice) :
    commit inner g [n] = (do modify fun s => { s with graph := g }; tell inner n) := by
  rw [commit, List.forM_eq_forM, List.forM_cons, List.forM_nil, bind_pure_unit]

/-! ### Loading -/

/-- Things that a graph takes one after another are added one after another, each with its
notice. -/
theorem exists_forM {add : Option Schema → Graph → α → Result Graph} {notice : α → Notice}
    {a : α → Act PUnit}
    (ha : ∀ (x : α) (s : Session) (g : Graph), add s.schema s.graph x = .ok g →
      carryOut (a x) s = carryOut (commit (run depth) g [notice x]) s)
    {l : List α} {s : Session} (hs : s.Asked) {g : Graph}
    (h : l.foldlM (add s.schema) s.graph = .ok g) :
    ∃ t, carryOut (l.forM a) s = (.ok ⟨⟩, t) ∧
      Announced (l.map notice) { s with graph := g } t := by
  induction l generalizing s with
  | nil =>
    cases h
    exact ⟨s, rfl, .refl s⟩
  | cons x rest ih =>
    rw [List.foldlM_cons] at h
    obtain ⟨g₁, hadd, hfold⟩ := bind_eq_ok_iff.1 h
    obtain ⟨t, ht, hfirst⟩ : ∃ t, carryOut (a x) s = (.ok ⟨⟩, t) ∧
        Announced [notice x] { s with graph := g₁ } t := by
      rw [ha x s g₁ hadd, commit_singleton]
      exact exists_tell (s := { s with graph := g₁ }) hs (notice x)
    -- telling left the schema and the listeners as they were, so that the rest goes the same way
    obtain ⟨u, hu, hrest⟩ : ∃ u, carryOut (rest.forM a) t = (.ok ⟨⟩, u) ∧
        Announced (rest.map notice) { t with graph := g } u := by
      have hsame := hfirst.same
      refine ih ?_ ?_
      · rw [hsame]
        exact hs
      · rw [hsame]
        exact hfold
    have hall : Announced ([notice x] ++ rest.map notice) { s with graph := g } u :=
      .trans (hfirst.withGraph g) hrest
    refine ⟨u, ?_, hall⟩
    rw [carryOut_forM_cons, carryOut_bind_ok ht]
    exact hu

theorem carryOut_addNode {s : Session} {n : Node} {g : Graph} (inner : Command → Act Outcome)
    (h : s.graph.addNode s.schema n = .ok g) :
    carryOut (addNode inner n) s = carryOut (commit inner g [.nodeAdded n]) s := by
  unfold addNode
  rw [carryOut_get_bind, carryOut_settle_bind, h]

theorem carryOut_addEdge {s : Session} {e : Edge} {g : Graph} (inner : Command → Act Outcome)
    (h : s.graph.addEdge s.schema e = .ok g) :
    carryOut (addEdge inner e) s = carryOut (commit inner g [.edgeAdded e]) s := by
  unfold addEdge
  rw [carryOut_get_bind, carryOut_settle_bind, h]

theorem loadNode_toValue (inner : Command → Act Outcome) (n : Node) :
    loadNode inner n.toValue = addNode inner n := by
  rw [loadNode, Node.ofValue_toValue]
  rfl

theorem loadEdge_toValue (inner : Command → Act Outcome) (e : Edge) :
    loadEdge inner e.toValue = addEdge inner e := by
  rw [loadEdge, Edge.ofValue_toValue]
  rfl

/-- Loading the document of a graph adds its nodes and then its edges. -/
theorem load_toValue (inner : Command → Act Outcome) (g : Graph) :
    load inner g.toValue = (do g.nodes.forM (addNode inner); g.edges.forM (addEdge inner)) := by
  have hnodes : (g.nodes.map Node.toValue).forM (loadNode inner) =
      g.nodes.forM (addNode inner) := by
    simp only [List.forM_eq_forM, List.forM_map, loadNode_toValue]
  have hedges : (g.edges.map Edge.toValue).forM (loadEdge inner) =
      g.edges.forM (addEdge inner) := by
    simp only [List.forM_eq_forM, List.forM_map, loadEdge_toValue]
  rw [← hnodes, ← hedges]
  rfl

/-- Where the graph takes the document of another one, so does the session if its listeners only
ask: the nodes and then the edges are announced one by one. -/
theorem exists_load {s : Session} (hs : s.Asked) {g k : Graph}
    (h : s.graph.load s.schema g.toValue = .ok k) :
    ∃ t, carryOut (load (run depth) g.toValue) s = (.ok ⟨⟩, t) ∧
      Announced (g.nodes.map .nodeAdded ++ g.edges.map .edgeAdded) { s with graph := k } t := by
  rw [Graph.load_toValue] at h
  obtain ⟨k₁, hnodes, hedges⟩ := bind_eq_ok_iff.1 h
  obtain ⟨t, ht, hfirst⟩ := exists_forM (fun _ _ _ => carryOut_addNode (run depth)) hs hnodes
  obtain ⟨u, hu, hrest⟩ : ∃ u, carryOut (g.edges.forM (addEdge (run depth))) t = (.ok ⟨⟩, u) ∧
      Announced (g.edges.map .edgeAdded) { t with graph := k } u := by
    have hsame := hfirst.same
    refine exists_forM (fun _ _ _ => carryOut_addEdge (run depth)) ?_ ?_
    · rw [hsame]
      exact hs
    · rw [hsame]
      exact hedges
  refine ⟨u, ?_, Announced.trans (hfirst.withGraph k) hrest⟩
  rw [load_toValue, carryOut_bind_ok ht]
  exact hu

/-! ### What runs can be written and loaded -/

section Runs

variable {schema : Option Schema} {policy : Policy} {provider : Option Provider}
  {cs : List Command}

/-- A new session with the same schema, whose listeners only ask, loads the document of any graph
that a run shows.  It has the same nodes and edges then, in the same order, and the same document;
the neighbours and the predecessors are the same; each node and then each edge was told of once, in
order, and whoever is subscribed once for nodes and once for edges heard of just these. -/
theorem reload_of_shown
    (htext : (afterAll depth cs (start schema policy provider)).textual = true) {g : Graph}
    (hg : g ∈ (afterAll depth cs (start schema policy provider)).shown) {bus : Bus Listener}
    (hbus : ∀ e ∈ bus.entries, e.listener.Asks) (policy' : Policy) (provider' : Option Provider)
    (depth' : Nat) :
    ∃ t, carryOut (run (depth' + 1) (.load g.toValue))
        { start schema policy' provider' with bus } = (.ok .nothing, t) ∧
      t.graph.nodes = g.nodes ∧ t.graph.edges = g.edges ∧ t.graph.toValue = g.toValue ∧
      (∀ u v, v ∈ t.graph.neighbors u ↔ v ∈ g.neighbors u) ∧
      (∀ u v, u ∈ t.graph.predecessors v ↔ u ∈ g.predecessors v) ∧
      t.emitted = g.nodes.map (fun n => (.nodeAdded, [.node n])) ++
        g.edges.map (fun e => (.edgeAdded, [.edge e])) ∧
      ∀ name, bus.audience .nodeAdded name = 1 → bus.audience .edgeAdded name = 1 →
        t.heard name = g.nodes.map (fun n => [.node n]) ++ g.edges.map (fun e => [.edge e]) := by
  have hv := valid_of_shown htext hg
  obtain ⟨k, hload, hk, hsameNodes, hsameEdges⟩ := hv.exists_load
  let fresh : Session := { start schema policy' provider' with bus }
  obtain ⟨t, ht, hannounced⟩ : ∃ t, carryOut (load (run depth') g.toValue) fresh = (.ok ⟨⟩, t) ∧
      Announced (g.nodes.map .nodeAdded ++ g.edges.map .edgeAdded) { fresh with graph := k } t :=
    exists_load (s := fresh) hbus hload
  have hgraph : t.graph = k := by rw [hannounced.same]
  refine ⟨t, ?_, ?_⟩
  · show carryOut (do load (run depth') g.toValue; return Outcome.nothing) fresh = _
    rw [carryOut_return, ht]
    rfl
  rw [hgraph]
  refine ⟨hsameNodes, hsameEdges, ?_, hv.mem_neighbors_congr hk hsameEdges,
    hv.mem_predecessors_congr hk hsameEdges, ?_, fun name hnode hedge => ?_⟩
  · rw [Graph.toValue, Graph.toValue, hsameNodes, hsameEdges]
  · rw [hannounced.emitted, List.map_append, List.map_map, List.map_map]
    rfl
  · rw [hannounced.heard_eq name, List.flatMap_append, List.flatMap_map, List.flatMap_map]
    show (g.nodes.flatMap fun n =>
        List.replicate (bus.audience .nodeAdded name) [Payload.node n]) ++
      (g.edges.flatMap fun e =>
        List.replicate (bus.audience .edgeAdded name) [Payload.edge e]) = _
    rw [hnode, hedge, List.map_eq_flatMap, List.map_eq_flatMap]
    rfl

/-- The pair that `pairer` made is moved to a new item, and another one ends where it ended. -/
def movedRun : List Command :=
  pairedRun ++ [.addNode (item "c"),
    .updateEdge (.text "ab") (.record [("target_node_id", .text "c")]),
    .addEdge (pair "bb" "b" "b")]

/-- The graph after that. -/
def moved : Graph := (afterAll 3 movedRun (start pairSchema plainPolicy none)).graph

/-- A bus on which `counter` is subscribed to what is added. -/
def counted : Bus Listener :=
  ((Bus.empty.subscribe .nodeAdded counter).2.subscribe .edgeAdded counter).2

/-- Both pairs can be added again, and `counter` hears of three items and of two pairs. -/
theorem reload_moved :
    (afterAll 3 movedRun (start pairSchema plainPolicy none)).textual = true ∧
      moved.nodes.length = 3 ∧ moved.edges.length = 2 ∧
      counted.audience .nodeAdded "counter" = 1 ∧ counted.audience .edgeAdded "counter" = 1 ∧
      ∃ t, carryOut (run 1 (.load moved.toValue))
          { start pairSchema plainPolicy none with bus := counted } = (.ok .nothing, t) ∧
        t.graph.nodes = moved.nodes ∧ t.graph.edges = moved.edges ∧
        t.graph.toValue = moved.toValue ∧
        (∀ u v, v ∈ t.graph.neighbors u ↔ v ∈ moved.neighbors u) ∧
        (∀ u v, u ∈ t.graph.predecessors v ↔ u ∈ moved.predecessors v) ∧
        t.emitted = moved.nodes.map (fun n => (.nodeAdded, [.node n])) ++
          moved.edges.map (fun e => (.edgeAdded, [.edge e])) ∧
        ∀ name, counted.audience .nodeAdded name = 1 → counted.audience .edgeAdded name = 1 →
          t.heard name =
            moved.nodes.map (fun n => [.node n]) ++ moved.edges.map (fun e => [.edge e]) :=
  have htext : (afterAll 3 movedRun (start pairSchema plainPolicy none)).textual = true := by
    decide +kernel
  have hshown : moved ∈ (afterAll 3 movedRun (start pairSchema plainPolicy none)).shown :=
    (mem_shown_iff _ _).2 (.inl rfl)
  have hcounted : ∀ e ∈ counted.entries, e.listener.Asks := by
    simp [counted, Bus.subscribe, Bus.empty, counter_asks]
  ⟨htext, by decide +kernel, by decide +kernel, by decide +kernel, by decide +kernel,
    reload_of_shown htext hshown hcounted plainPolicy none 0⟩

end Runs

end Session

end PropertyGraph
