import PropertyGraph.Proofs.Schema.Sample
import PropertyGraph.Proofs.Session.NewNode
import PropertyGraph.Proofs.Session.Reload

/-!
# Every declared type has members

In a new session with an accepted schema, a node of every declared type can be made, and an edge of
every declared type between two nodes that are made for it.  Nothing else can be in the way: the
consistency of the schema gives the types of the ends, distinct names give the data, and where there
is no other edge none is crowded.
-/

namespace PropertyGraph

/-- The clock can be read a million times before the calendar ends, and more. -/
theorem exists_clockText {n : Nat} (h : n ≤ 1000000) : ∃ time, clockText n = .ok time := by
  have hstart : (Instant.ofReading newYear 0).micros = 63839664000000000 := by decide
  have hend : Instant.calendarEnd = 315537897600000000 := by decide
  refine (Instant.text_isOk_iff _).2 ?_
  rw [clockMoment, hstart, hend]
  dsimp only
  omega

theorem Value.toData_record (r : Record Value) :
    Value.toData (.record r) = .ok (Fields.ofRecord r) := by
  rw [← Value.ofFields_ofRecord, Value.toData_ofFields]

/-! ### Graphs that take an entity -/

namespace Graph.Valid

variable {s : Schema} {g : Graph}

/-- A node that fits is taken under a new text. -/
theorem takes_node (hv : Valid (some s) g) {n : Node} (htext : isText n.id = true)
    (hnew : ∀ m ∈ g.nodes, m.id ≠ n.id) (hfits : NodeFits s n) :
    g.addNode (some s) n = .ok { g with nodes := g.nodes ++ [n] } ∧
      Valid (some s) { g with nodes := g.nodes ++ [n] } := by
  have hfree : g.hasNode n.id = false := by
    rw [← Bool.not_eq_true, hv.sound.hasNode_iff]
    rintro ⟨m, hm, hid⟩
    exact hnew m hm hid
  constructor
  · apply addNode_eq_ok_iff.2
    exact ⟨hfree, (checkNode_eq_ok_iff s n).2 hfits, requireNodeId_of_isText htext, rfl⟩
  · exact hv.addNode htext hfree fun _ hu => Option.some.inj hu ▸ hfits

/-- The first edge crowds nothing, so that it is taken if it fits. -/
theorem takes_first_edge (hv : Valid (some s) g) {e : Edge} (htext : isText e.id = true)
    (hedges : g.edges = []) (hfits : EdgeFits s g.nodes e) :
    g.addEdge (some s) e =
      .ok { g with edges := [e], adjacency := g.adjacency.link e.id e } := by
  have hfree : g.hasEdge e.id = false := by
    rw [hasEdge, edge?, hedges]
    rfl
  have hcheck : g.checkEdge (some s) e .null = .ok () := by
    rw [checkEdge_some_eq_ok_iff hv.sound hv.linked, hedges]
    exact ⟨hfits, fun f hf => absurd hf List.not_mem_nil⟩
  rw [addEdge_eq_ok_iff, hedges]
  exact ⟨requireKey_of_isText htext, hfree, hcheck, rfl⟩

end Graph.Valid

namespace Session

open PropertyGraph.Graph

variable {s : Schema} {t : Session}

/-- Whenever a provider is asked for a vector it gives one, or fails where the policy says that a
node goes without. -/
def Serves (policy : Policy) (provider : Provider) : Prop :=
  ∀ number text,
    match provider number text with
    | .ok v => ∃ xs, v.toFloats = .ok xs
    | .error _ => policy.failurePolicy = .skip

/-- If vectors are wanted and somebody provides them, no node fails for want of one. -/
def Provided (policy : Policy) (provider : Option Provider) : Prop :=
  ∀ p, provider = some p → policy.embedOnCreate.truthy = true → Serves policy p

/-! ### Making entities -/

theorem carryOut_freshNode {time : String} (h : clockText (t.made + 1) = .ok time) (type : Value)
    (data : Record Value) :
    carryOut (freshNode type (.record data)) t =
      (.ok ⟨.text (freshId (t.made + 1)), type, Fields.ofRecord data, .text time, .text time, none⟩,
        { t with made := t.made + 1 }) := by
  rw [carryOut_freshNode_eq, newNode, h, Value.toData_record]
  rfl

theorem carryOut_freshEdge {time : String} (h : clockText (t.made + 1) = .ok time)
    (type source target : Value) (data : Record Value) :
    carryOut (freshEdge type source target (.record data)) t =
      (.ok ⟨.text (freshId (t.made + 1)), type, source, target, Fields.ofRecord data, .text time,
        .text time⟩, { t with made := t.made + 1 }) := by
  unfold freshEdge
  rw [carryOut_bind_ok (carryOut_stamp h), carryOut_settle_bind, Value.toData_record]
  rfl

/-- Where a provider gives vectors, or the policy says that nodes go without, a node whose data is
writable goes on. -/
theorem exists_embed {provider : Provider} (h : Serves t.policy provider) {n : Node}
    (hdata : Json.writable (.ofFields n.data) = true) :
    ∃ vector history, carryOut (embed provider n) t =
      (.ok { n with embedding := vector }, { t with history }) := by
  obtain ⟨text, htext⟩ : ∃ text, embeddedText n = .ok text :=
    ⟨_, by rw [embeddedText, Json.write?, if_pos hdata]⟩
  have hanswer := h t.embeddings text
  rw [carryOut_embed, htext]
  dsimp only
  rcases hvector : provider t.embeddings text with f | v
  · rw [hvector] at hanswer
    have hskip : t.policy.failurePolicy = .skip := hanswer
    rw [hskip]
    exact ⟨n.embedding, _, rfl⟩
  · rw [hvector] at hanswer
    obtain ⟨xs, hxs⟩ := hanswer
    refine ⟨some (xs.map .float), t.history ++ [.embedded text], ?_⟩
    rw [Node.answered, hxs]
    rfl

/-- A node whose data is writable goes on, with a vector or without. -/
theorem exists_withVector (h : Provided t.policy t.provider) {n : Node}
    (hdata : Json.writable (.ofFields n.data) = true) :
    ∃ vector history, carryOut (withVector n) t =
      (.ok { n with embedding := vector }, { t with history }) := by
  rcases exists_provider_or t with ⟨provider, hprovider, hwanted⟩ | hnobody
  · rw [carryOut_withVector hprovider hwanted]
    exact exists_embed (h provider hprovider hwanted) hdata
  · exact ⟨n.embedding, t.history, hnobody n⟩

section Making

variable (inner : Command → Act Outcome)

theorem exists_addNode {n : Node} {g : Graph} (h : t.graph.addNode t.schema n = .ok g)
    (hsilent : t.bus.entries = []) :
    ∃ history, carryOut (addNode inner n) t = (.ok ⟨⟩, { t with graph := g, history }) := by
  rw [carryOut_addNode inner h, carryOut_commit_silent g _ hsilent]
  exact ⟨_, rfl⟩

theorem exists_addEdge {e : Edge} {g : Graph} (h : t.graph.addEdge t.schema e = .ok g)
    (hsilent : t.bus.entries = []) :
    ∃ history, carryOut (addEdge inner e) t = (.ok ⟨⟩, { t with graph := g, history }) := by
  rw [carryOut_addEdge inner h, carryOut_commit_silent g _ hsilent]
  exact ⟨_, rfl⟩

/-! ### Members of declared types -/

/-- A session with a schema and a valid graph, where nobody listens and vectors can be had. -/
structure Quiet (s : Schema) (t : Session) : Prop where
  schema : t.schema = some s
  silent : t.bus.entries = []
  provided : Provided t.policy t.provider
  valid : Valid (some s) t.graph

theorem exists_createNode (hs : s.Distinct) (ht : t.Quiet s) {p : String × NodeType}
    (hp : p ∈ s.nodeTypes) (hmade : t.made < 1000000)
    (hnew : ∀ n ∈ t.graph.nodes, n.id ≠ .text (freshId (t.made + 1))) :
    ∃ n u, carryOut (createNode inner (.text p.1) (.record (Schema.sample p.2.fields))) t =
        (.ok (.node (some n)), u) ∧
      n.id = .text (freshId (t.made + 1)) ∧ n.type = .text p.1 ∧
      u.Quiet s ∧ u.made = t.made + 1 ∧
      u.graph = { t.graph with nodes := t.graph.nodes ++ [n] } := by
  obtain ⟨time, hclock⟩ := exists_clockText (n := t.made + 1) hmade
  let id : Value := .text (freshId (t.made + 1))
  let data := Fields.ofRecord (Schema.sample p.2.fields)
  have hfresh := carryOut_freshNode hclock (.text p.1) (Schema.sample p.2.fields)
  have hwritable : Json.writable (.ofFields data) = true := by
    rw [Value.ofFields_ofRecord]
    exact Schema.writable_sample p.2.fields
  obtain ⟨vector, asked, hvector⟩ :=
    exists_withVector (t := { t with made := t.made + 1 }) ht.provided
      (n := ⟨id, .text p.1, data, .text time, .text time, none⟩) hwritable
  let n : Node := ⟨id, .text p.1, data, .text time, .text time, vector⟩
  have hfits : NodeFits s n :=
    ⟨p.1, p.2, rfl, Record.get?_of_mem hs.nodeTypes hp, Schema.conforms_sample (hs.nodeFields p hp)⟩
  obtain ⟨hadd, hvalid⟩ := ht.valid.takes_node (n := n) rfl hnew hfits
  rw [← ht.schema] at hadd
  obtain ⟨history, hadded⟩ :=
    exists_addNode inner (t := { t with made := t.made + 1, history := asked }) hadd ht.silent
  refine ⟨n, { t with
    made := t.made + 1
    graph := { t.graph with nodes := t.graph.nodes ++ [n] }
    history }, ?_, rfl, rfl, ⟨ht.schema, ht.silent, ht.provided, hvalid⟩, rfl, rfl⟩
  unfold createNode
  rw [carryOut_bind_ok hfresh, carryOut_bind_ok hvector, carryOut_bind_ok hadded]
  rfl

/-- Where there is no edge, one of any declared type can be made between two nodes of the types that
it asks for. -/
theorem exists_createEdge (hs : s.Distinct) (ht : t.Quiet s) {p : String × EdgeType}
    (hp : p ∈ s.edgeTypes) (hmade : t.made < 1000000) (hedges : t.graph.edges = [])
    {source target : Node} (hsource : source ∈ t.graph.nodes)
    (htarget : target ∈ t.graph.nodes) (hsourceType : source.type = .text p.2.source.nodeType)
    (htargetType : target.type = .text p.2.target.nodeType) :
    ∃ e u, carryOut (createEdge inner (.text p.1) source.id target.id
        (.record (Schema.sample p.2.fields))) t = (.ok (.edge (some e)), u) ∧
      u.graph.nodes = t.graph.nodes ∧ u.graph.edges = [e] := by
  obtain ⟨time, hclock⟩ := exists_clockText (n := t.made + 1) hmade
  have hfresh := carryOut_freshEdge hclock (.text p.1) source.id target.id
    (Schema.sample p.2.fields)
  let e : Edge := ⟨.text (freshId (t.made + 1)), .text p.1, source.id, target.id,
    Fields.ofRecord (Schema.sample p.2.fields), .text time, .text time⟩
  have hends : ∀ side, ∃ n ∈ t.graph.nodes,
      n.id = e.endpoint side ∧ n.type = .text (p.2.side side).nodeType := by
    intro side
    cases side with
    | source => exact ⟨source, hsource, rfl, hsourceType⟩
    | target => exact ⟨target, htarget, rfl, htargetType⟩
  have hfits : EdgeFits s t.graph.nodes e :=
    ⟨p.1, p.2, rfl, Record.get?_of_mem hs.edgeTypes hp,
      Schema.conforms_sample (hs.edgeFields p hp), hends⟩
  have hadd := ht.valid.takes_first_edge (e := e) rfl hedges hfits
  rw [← ht.schema] at hadd
  obtain ⟨history, hadded⟩ :=
    exists_addEdge inner (t := { t with made := t.made + 1 }) hadd ht.silent
  refine ⟨e, { t with
    made := t.made + 1
    graph := { t.graph with edges := [e], adjacency := t.graph.adjacency.link e.id e }
    history }, ?_, rfl, rfl⟩
  unfold createEdge
  rw [carryOut_bind_ok hfresh, carryOut_bind_ok hadded]
  rfl

end Making

/-! ### Accepted schemas -/

/-- A node of a type can be made with some data. -/
def MakesNode (depth : Nat) (s : Session) (type : String) : Prop :=
  ∃ (data : Record Value) (n : Node) (t : Session),
    carryOut (run (depth + 1) (.createNode (.text type) (.record data))) s =
      (.ok (.node (some n)), t) ∧ t.graph.nodes = s.graph.nodes ++ [n]

/-- Two nodes of the types that the sides of an edge type ask for can be made, and then an edge of
the type from the first one to the second. -/
def MakesEdge (depth : Nat) (s : Session) (name : String) (type : EdgeType) : Prop :=
  ∃ (data data' data'' : Record Value) (a b : Node) (e : Edge) (t t' t'' : Session),
    carryOut (run (depth + 1) (.createNode (.text type.source.nodeType) (.record data))) s =
      (.ok (.node (some a)), t) ∧
    carryOut (run (depth + 1) (.createNode (.text type.target.nodeType) (.record data'))) t =
      (.ok (.node (some b)), t') ∧
    carryOut (run (depth + 1) (.createEdge (.text name) a.id b.id (.record data''))) t' =
      (.ok (.edge (some e)), t'') ∧
    t''.graph.nodes = s.graph.nodes ++ [a, b] ∧ t''.graph.edges = s.graph.edges ++ [e]

section Start

variable {policy : Policy} {provider : Option Provider} {depth : Nat}

theorem quiet_start (s : Schema) (h : Provided policy provider) :
    (start (some s) policy provider).Quiet s :=
  ⟨rfl, rfl, h, valid_empty (some s)⟩

theorem makesNode_start (hs : s.Distinct) (hprovided : Provided policy provider)
    {p : String × NodeType} (hp : p ∈ s.nodeTypes) :
    MakesNode depth (start (some s) policy provider) p.1 := by
  obtain ⟨n, t, hn, -, -, -, -, hgraph⟩ :=
    exists_createNode (run depth) hs (quiet_start s hprovided) hp (Nat.zero_lt_succ _)
      nofun
  exact ⟨_, n, t, hn, by rw [hgraph]⟩

/-- The sides of an edge type in a consistent schema ask for declared types, so that there can be
nodes for both. -/
theorem makesEdge_start (hs : s.Distinct) (hconsistent : s.Consistent)
    (hprovided : Provided policy provider) {p : String × EdgeType} (hp : p ∈ s.edgeTypes) :
    MakesEdge depth (start (some s) policy provider) p.1 p.2 := by
  obtain ⟨sourceType, hsource⟩ := Option.isSome_iff_exists.1 (hconsistent.sides p hp .source)
  obtain ⟨targetType, htarget⟩ := Option.isSome_iff_exists.1 (hconsistent.sides p hp .target)
  obtain ⟨a, t, ha, haid, hatype, ht, hmade, hgraph⟩ :=
    exists_createNode (run depth) hs (quiet_start s hprovided)
      (Record.mem_of_get? hsource) (Nat.zero_lt_succ _) nofun
  replace haid : a.id = .text (freshId 1) := haid
  replace hmade : t.made = 1 := hmade
  replace hgraph : t.graph = ⟨[a], [], []⟩ := hgraph
  have hnew : ∀ n ∈ t.graph.nodes, n.id ≠ .text (freshId (t.made + 1)) := by
    rw [hgraph, hmade, List.forall_mem_singleton, haid, Ne, Value.text.injEq]
    decide
  obtain ⟨b, t', hb, -, hbtype, ht', hmade', hgraph'⟩ :=
    exists_createNode (run depth) hs ht (Record.mem_of_get? htarget) (by omega) hnew
  rw [hgraph] at hgraph'
  replace hgraph' : t'.graph = ⟨[a, b], [], []⟩ := hgraph'
  have hedges : t'.graph.edges = [] := by rw [hgraph']
  have hamem : a ∈ t'.graph.nodes := by simp [hgraph']
  have hbmem : b ∈ t'.graph.nodes := by simp [hgraph']
  obtain ⟨e, t'', he, hnodes, hedges'⟩ :=
    exists_createEdge (run depth) hs ht' hp (by omega) hedges hamem hbmem hatype hbtype
  rw [hgraph'] at hnodes
  exact ⟨_, _, _, a, b, e, t, t', t'', ha, hb, he, hnodes, hedges'⟩

/-- An accepted schema is accepted as it is written, and is the same.  In a new session with it, a
node of each declared type can be made, and so can an edge of each declared type together with its
two ends. -/
theorem accepted_inhabited {v : Value} (hv : v.proper = true) (h : Schema.ofValue v = .ok s)
    (hprovided : Provided policy provider) (depth : Nat) :
    Schema.ofValue s.toValue = .ok s ∧
      (∀ p ∈ s.nodeTypes, MakesNode depth (start (some s) policy provider) p.1) ∧
      ∀ p ∈ s.edgeTypes, MakesEdge depth (start (some s) policy provider) p.1 p.2 := by
  have hdistinct := Schema.distinct_of_ofValue hv h
  have hconsistent := Schema.consistent_of_read (Schema.read_of_ofValue h)
  refine ⟨Schema.ofValue_toValue h, ?_, ?_⟩
  · intro p hp
    exact makesNode_start hdistinct hprovided hp
  · intro p hp
    exact makesEdge_start hdistinct hconsistent hprovided hp

end Start

/-- A schema with the alternative spellings, where everyone knows one other guest at most. -/
def guestList : Value :=
  .record [
    ("node_types", .record [("guest", .record [
      ("name", .text "guest"), ("description", .text "Somebody who was asked."),
      ("data", .record [("called", .text "string"), ("seats", .text "number")]),
      ("accessControl", .record [
        ("roles", .record [("host", .list [.text "owner"])]),
        ("defaultAuthenticatedRole", .text "viewer")])])]),
    ("edge_types", .record [("knows", .record [
      ("name", .text "knows"),
      ("source", .record [("node_type", .text "guest"), ("multiple", .bool false)]),
      ("target", .record [("node_type", .text "guest"), ("multiple", .bool false)]),
      ("data", .record [("since", .text "object")])])])]

/-- An edge between guests, of which there is one at most on each side. -/
def acquaintance : EdgeType :=
  ⟨"knows", "", ⟨"guest", false, false⟩, ⟨"guest", false, false⟩, [], [("since", .object)], none⟩

/-- What the list of guests declares. -/
def guestSchema : Schema where
  nodeTypes := [("guest", ⟨"guest", "Somebody who was asked.", [],
    [("called", .string), ("seats", .number)],
    some ⟨none, some [("host", [.owner])], some .viewer⟩⟩)]
  edgeTypes := [("knows", acquaintance)]

/-- Vectors are wanted, and nodes go without where there are none. -/
def skipPolicy : Policy := ⟨.bool true, .skip, .null⟩

/-- A new session for guests, in which no vector can be had. -/
def guestStart : Session := start (some guestSchema) skipPolicy (some (.unavailable "offline"))

theorem guestList_inhabited :
    guestList.proper = true ∧ Schema.ofValue guestList = .ok guestSchema ∧
      Provided skipPolicy (some (.unavailable "offline")) ∧
      Schema.ofValue guestSchema.toValue = .ok guestSchema ∧
      MakesNode 0 guestStart "guest" ∧ MakesEdge 0 guestStart "knows" acquaintance := by
  have hproper : guestList.proper = true := by decide
  have hread : Schema.ofValue guestList = .ok guestSchema := rfl
  have hprovided : Provided skipPolicy (some (.unavailable "offline")) := by
    intro p hp _ number text
    obtain rfl := Option.some.inj hp
    rfl
  obtain ⟨hsame, hnodes, hedges⟩ := accepted_inhabited hproper hread hprovided 0
  have hguest := hnodes _ List.mem_cons_self
  have hknows := hedges _ List.mem_cons_self
  exact ⟨hproper, hread, hprovided, hsame, hguest, hknows⟩

end Session

end PropertyGraph
