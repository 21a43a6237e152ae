import PropertyGraph.Fact
import PropertyGraph.Proofs.Graph.Loading
import PropertyGraph.Proofs.Session.Shown

/-!
# Queries for edges

A query for a type of edges, each end of which is a given node or is asked for, is answered from the
list of edges: one solution for each edge that has the type and the given ends, in order, which
names the other ends (`query_edges_of_shown`).  The facts of the nodes and the data of the entities
have no part in it, whatever names the data uses: what identifies an entity comes first in its fact
and hides every field of the data with the same name (`Entity.get?_flatten`).
-/

namespace PropertyGraph

/-! ### What a query asks -/

/-- A value that is a text. -/
abbrev Name := { v : Value // Graph.isText v = true }

instance (v : Value) (name : Name) : Decidable (v = name) :=
  decidable_of_iff (v.sameKey name = true) (Value.sameKey_iff_eq name.2 v)

/-- What a query asks of one end of an edge. -/
inductive EndQuery where
  /-- The end must be a node that is given. -/
  | given (id : Name)
  /-- The end is to be named, as the value of a variable. -/
  | asked (name : String) (h : name ≠ "")

namespace EndQuery

def name? : EndQuery → Option String
  | given _ => none
  | asked name _ => some name

def raw : EndQuery → RawTerm
  | given id => .literal id
  | asked name _ => .variable (.text name)

def term : EndQuery → Term
  | given id => .literal id
  | asked name _ => .variable name

/-- What is said of an end, if it is not another node than the one that is given. -/
def answer (v : Value) : EndQuery → Option Bindings
  | given id => if v = id then some [] else none
  | asked name _ => some [(name, v)]

theorem check_raw (q : EndQuery) : q.raw.check = .ok q.term := by
  cases q with
  | given id => rfl
  | asked name h =>
    have hne : name.isEmpty = false := by simpa using h
    simp [raw, term, RawTerm.check, hne]

theorem name?_of_answer {q : EndQuery} {v : Value} {said : Bindings} (h : q.answer v = some said)
    {name : String} (hname : name ∈ Record.keys said) : q.name? = some name := by
  cases q with
  | given id =>
    rw [answer] at h
    split at h <;> cases h
    cases hname
  | asked other _ =>
    cases h
    rw [List.mem_singleton.1 hname]
    rfl

end EndQuery

/-- A query for the edges of a type; what is asked for is not named twice. -/
structure EdgeQuery where
  type : Name
  source : EndQuery
  target : EndQuery
  apart : ∀ a ∈ source.name?, ∀ b ∈ target.name?, a ≠ b

namespace EdgeQuery

/-- The query as it is put. -/
def raw (q : EdgeQuery) : List (String × RawTerm) :=
  [("type", .literal q.type), ("source_node_id", q.source.raw), ("target_node_id", q.target.raw)]

def pattern (q : EdgeQuery) : Pattern :=
  [("type", .literal q.type), ("source_node_id", q.source.term), ("target_node_id", q.target.term)]

/-- What is said of an edge, if it is one of those that are asked for. -/
def answer (q : EdgeQuery) (e : Edge) : Option Bindings :=
  if e.type = q.type then do
    return (← q.source.answer e.source) ++ (← q.target.answer e.target)
  else none

theorem ofRaw_raw (q : EdgeQuery) : Pattern.ofRaw q.raw = .ok q.pattern := by
  have htype : (RawTerm.literal q.type).check = .ok (.literal q.type) := rfl
  simp only [Pattern.ofRaw, raw, List.mapM_cons, List.mapM_nil, EndQuery.check_raw, htype, bind,
    Except.bind, pure, Except.pure]
  rfl

end EdgeQuery

/-! ### Facts -/

theorem Fields.get?_append (fs gs : Fields) (name : String) :
    get? (fs ++ gs) name = (get? fs name).or (get? gs name) := by
  simp [get?, List.find?_append, Option.map_or]

/-- What identifies an entity is found in its fact, whatever its data is. -/
theorem Entity.get?_flatten {identity : Record Value} {name : String} {v : Value}
    (h : Record.get? identity name = some v) (data : Fields) :
    (flatten identity data).get? name = some v := by
  rw [flatten, Fields.get?_append, Fields.get?_ofRecord, h, Option.some_or]

theorem Node.get?_toFact_type (n : Node) : n.toFact.get? "type" = some n.type :=
  Entity.get?_flatten rfl n.data

theorem Edge.get?_toFact_type (e : Edge) : e.toFact.get? "type" = some e.type :=
  Entity.get?_flatten rfl e.data

theorem Edge.get?_toFact_source (e : Edge) : e.toFact.get? "source_node_id" = some e.source :=
  Entity.get?_flatten rfl e.data

theorem Edge.get?_toFact_target (e : Edge) : e.toFact.get? "target_node_id" = some e.target :=
  Entity.get?_flatten rfl e.data

/-! ### Solving -/

namespace Value

theorem items?_of_isText {v : Value} (h : Graph.isText v = true) : v.items? = none := by
  cases v with
  | text | points => rfl
  | _ => cases h

theorem meets_iff_of_isText {v : Value} (hv : Graph.isText v = true) (name : Name) :
    v.meets name = true ↔ v = name := by
  obtain ⟨w, hw⟩ := name
  have hbool {u : Value} (hu : Graph.isText u = true) : u.isBool = false := by
    cases u with
    | text | points => rfl
    | _ => cases hu
  simp only [meets, items?_of_isText hv, same, hbool hv, hbool hw, beq_self_eq_true, Bool.true_and]
  rw [eqv_iff_eq hw, eq_comm]

end Value

namespace Pattern

variable {fact : Fact} {key : String} {v : Value} (hget : fact.get? key = some v)
  (hv : Graph.isText v = true)

include hget hv

theorem solve_literal (name : Name) (rest : Pattern) (bindings : Bindings) :
    solve fact ((key, .literal name) :: rest) bindings =
      if v = name then solve fact rest bindings else [] := by
  rw [solve, hget]
  have hmeets := Value.meets_iff_of_isText hv name
  by_cases h : v = name
  · rw [if_pos h]
    exact if_pos (hmeets.2 h)
  · rw [if_neg h]
    exact if_neg (mt hmeets.1 h)

/-- A key of a text adds to what is bound what is said of the text. -/
theorem solve_end (q : EndQuery) (rest : Pattern) {bindings : Bindings}
    (hfree : ∀ name ∈ q.name?, name ∉ Record.keys bindings) :
    solve fact ((key, q.term) :: rest) bindings =
      (q.answer v).toList.flatMap fun said => solve fact rest (bindings ++ said) := by
  cases q with
  | given id =>
    rw [EndQuery.term, solve_literal hget hv, EndQuery.answer]
    split <;> simp
  | asked name hne =>
    have hnew := hfree name rfl
    have hnone := (Record.get?_eq_none_iff bindings name).2 hnew
    simp [EndQuery.term, EndQuery.answer, solve, hget, Value.items?_of_isText hv, Bindings.admits,
      Record.has, hnone, Record.set_of_not_mem hnew]

end Pattern

namespace EdgeQuery

variable (q : EdgeQuery)

theorem solutions_node {n : Node} (htext : Graph.isText n.type = true) (hne : n.type ≠ q.type) :
    q.pattern.solutions n.toFact = [] := by
  rw [Pattern.solutions, pattern, Pattern.solve_literal n.get?_toFact_type htext, if_neg hne]

theorem solutions_edge {e : Edge} (htext : Graph.isText e.type = true)
    (hends : ∀ side, Graph.isText (e.endpoint side) = true) :
    q.pattern.solutions e.toFact = (q.answer e).toList := by
  rw [Pattern.solutions, pattern, Pattern.solve_literal e.get?_toFact_type htext, answer]
  by_cases htype : e.type = q.type
  · rw [if_pos htype, if_pos htype,
      Pattern.solve_end e.get?_toFact_source (hends .source) q.source _
        fun _ _ => List.not_mem_nil]
    cases hsource : q.source.answer e.source with
    | none => rfl
    | some said =>
      have hfree : ∀ name ∈ q.target.name?, name ∉ Record.keys said := fun name hb ha =>
        q.apart name (EndQuery.name?_of_answer hsource ha) name hb rfl
      simp only [Option.toList_some, List.flatMap_singleton, List.nil_append]
      rw [Pattern.solve_end e.get?_toFact_target (hends .target) q.target [] hfree]
      cases q.target.answer e.target with
      | none => rfl
      | some more => rfl
  · rw [if_neg htype, if_neg htype]
    rfl

end EdgeQuery

/-! ### Edges that have their ends -/

namespace Graph

/-- The edges have their ends among the nodes, whatever the nodes are known by. -/
def Anchored (g : Graph) : Prop := ∀ e ∈ g.edges, ∀ side, g.hasNode (e.endpoint side) = true

theorem hasNode_append {g : Graph} {id : Value} (h : g.hasNode id = true) (n : Node) :
    hasNode { g with nodes := g.nodes ++ [n] } id = true := by
  rw [hasNode_iff_exists] at h ⊢
  obtain ⟨m, hm, hkey⟩ := h
  exact ⟨m, List.mem_append_left _ hm, hkey⟩

/-- A node that replaces one with the same identifier is found wherever that one was. -/
theorem hasNode_replaceNode {g : Graph} {id other : Value} {n m : Node}
    (hn : g.node? id = some n) (hid : m.id = n.id) (h : g.hasNode other = true) :
    (g.replaceNode id m).hasNode other = true := by
  rw [hasNode_iff_exists] at h ⊢
  obtain ⟨k, hk, hkey⟩ := h
  refine ⟨_, List.mem_map_of_mem hk, ?_⟩
  by_cases hsame : k.id.sameKey id = true
  · rw [if_pos hsame, hid]
    have hnid : n.id.sameKey id = true :=
      List.find?_some (p := fun n : Node => n.id.sameKey id) hn
    rw [Value.sameKey_comm] at hsame
    exact Value.sameKey_trans (Value.sameKey_trans hnid hsame) hkey
  · rwa [if_neg hsame]

theorem hasNode_of_checkEdge {schema : Option Schema} {g : Graph} {e : Edge} {ignored : Value}
    (h : g.checkEdge schema e ignored = .ok ()) (side : Side) :
    g.hasNode (e.endpoint side) = true := by
  obtain ⟨u, hends, -⟩ := bind_eq_ok_iff.1 h
  rw [Schema.refuse_eq_ok_iff, endsFault?_eq_none_iff] at hends
  exact hends side

theorem hasNode_deleteNode {g : Graph} {id other : Value} (h : g.hasNode other = true)
    (hne : other.sameKey id = false) (edges : List Edge) (adjacency : Adjacency) :
    hasNode ⟨g.nodes.filter fun n => !n.id.sameKey id, edges, adjacency⟩ other = true := by
  rw [hasNode_iff_exists] at h ⊢
  obtain ⟨n, hn, hkey⟩ := h
  refine ⟨n, List.mem_filter.2 ⟨hn, ?_⟩, hkey⟩
  -- otherwise the other one would be known by the identifier that goes too
  by_contra hgone
  have hsame : n.id.sameKey id = true := by simpa using hgone
  rw [Value.sameKey_comm] at hkey
  rw [Value.sameKey_trans hkey hsame] at hne
  cases hne

theorem Step.anchored {schema : Option Schema} {g g' : Graph} {notices : List Notice}
    (h : Step schema g g' notices) (hg : g.Anchored) : g'.Anchored := by
  cases h with
  | nodeAdded h =>
    obtain ⟨-, -, -, rfl⟩ := addNode_eq_ok_iff.1 h
    exact fun e he side => hasNode_append (hg e he side) _
  | nodeUpdated h =>
    obtain ⟨n, hn, -, hm, -, rfl⟩ := updateNode_eq_some_iff.1 h
    exact fun e he side => hasNode_replaceNode hn (Node.id_type_of_updated hm).1 (hg e he side)
  | @nodeDeleted id _ _ h =>
    obtain ⟨-, -, rfl⟩ := deleteNode_eq_some_iff.1 h
    intro e he side
    obtain ⟨he, htouch⟩ := List.mem_filter.1 he
    have hother : (e.endpoint side).sameKey id = false := by
      rw [Bool.not_eq_true', touches, Bool.or_eq_false_iff] at htouch
      cases side
      · exact htouch.1
      · exact htouch.2
    exact hasNode_deleteNode (hg e he side) hother _ _
  | @edgeAdded f _ h =>
    obtain ⟨-, -, hcheck, rfl⟩ := addEdge_eq_ok_iff.1 h
    have hends : ∀ side, g.hasNode (f.endpoint side) = true := hasNode_of_checkEdge hcheck
    exact List.forall_mem_append.2 ⟨hg, List.forall_mem_singleton.2 hends⟩
  | @edgeUpdated _ _ f _ _ h =>
    obtain ⟨-, e, -, -, -, hcheck, rfl⟩ := updateEdge_eq_some_iff.1 h
    have hends : ∀ side, g.hasNode (f.endpoint side) = true := hasNode_of_checkEdge hcheck
    intro k hk
    obtain ⟨l, hl, rfl⟩ := List.mem_map.1 hk
    split
    · exact hends
    · exact hg l hl
  | edgeDeleted h =>
    obtain ⟨e, he, rfl⟩ := edge?_of_deleteEdge h
    exact fun f hf => hg f (List.mem_filter.1 hf).1
  | @heldDeleted place _ _ h =>
    obtain ⟨e, -, -, rfl⟩ := deleteHeld_eq_some_iff.1 h
    intro f hf side
    rw [hasNode, node?, nodes_removeHeld]
    exact hg f ((edges_removeHeld_sublist g place e).subset hf) side
  | cleared =>
    intro e he
    exact absurd he List.not_mem_nil

/-- Where nodes are known by texts, so are the ends of the edges. -/
theorem Anchored.isText_endpoint {g : Graph} (hg : g.Anchored)
    (hids : ∀ n ∈ g.nodes, isText n.id = true) {e : Edge} (he : e ∈ g.edges) (side : Side) :
    isText (e.endpoint side) = true := by
  obtain ⟨n, hn, hkey⟩ := (hasNode_iff_exists g _).1 (hg e he side)
  rw [← (Value.sameKey_iff_eq_left (hids n hn) _).1 hkey]
  exact hids n hn

/-- A query of the facts of a graph is answered from its edges. -/
theorem query_facts {g : Graph} (q : EdgeQuery)
    (hnodes : ∀ n ∈ g.nodes, isText n.type = true ∧ n.type ≠ q.type)
    (hedges : ∀ e ∈ g.edges, isText e.type = true ∧ ∀ side, isText (e.endpoint side) = true) :
    FactBase.query ⟨g.facts⟩ q.pattern = g.edges.filterMap q.answer := by
  have hsilent : FactBase.query ⟨g.nodes.map Node.toFact⟩ q.pattern = [] := by
    rw [FactBase.query, List.flatMap_eq_nil_iff]
    intro fact hfact
    obtain ⟨n, hn, rfl⟩ := List.mem_map.1 hfact
    obtain ⟨htext, hne⟩ := hnodes n hn
    exact q.solutions_node htext hne
  rw [facts, FactBase.query_append, hsilent, List.nil_append, FactBase.query, List.flatMap_map,
    List.filterMap_eq_flatMap_toList]
  refine List.flatMap_congr fun e he => ?_
  obtain ⟨htext, hends⟩ := hedges e he
  exact q.solutions_edge htext hends

end Graph

namespace Session

theorem shown_occurred {P : Graph → Prop} {s : Session} (h : ∀ g ∈ s.shown, P g) {g : Graph}
    (hg : P g) {o : Occurrence} (ho : ∀ g' ∈ o.graph?, P g') :
    ∀ g' ∈ shown { s with graph := g, history := s.history ++ [o] }, P g' := by
  intro g' hg'
  rcases (mem_shown_iff _ g').1 hg' with rfl | ⟨p, hp, hpg⟩
  · exact hg
  rcases List.mem_append.1 hp with hp | hp
  · exact h g' ((mem_shown_iff s g').2 (.inr ⟨p, hp, hpg⟩))
  · rw [List.mem_singleton.1 hp] at hpg
    exact ho g' hpg

/-- What holds of all that is shown, and is kept by every step of a graph, goes on to hold. -/
theorem Moves.shown {P : Graph → Prop} {s t : Session} (hmoves : Moves s t)
    (hstep : ∀ {g g' notices}, Graph.Step s.schema g g' notices → P g → P g')
    (h : ∀ g ∈ s.shown, P g) : ∀ g ∈ t.shown, P g := by
  induction hmoves with
  | refl => exact h
  | @tail t u hmoves hmove ih =>
    have hnow : P t.graph := ih t.graph List.mem_cons_self
    cases hmove with
    | noted ho => exact shown_occurred ih hnow fun g hg => (ho g hg).symm ▸ hnow
    | counted => exact ih
    | listening => exact ih
    | stepped h' => exact shown_occurred ih (hstep (Moves.schema_eq hmoves ▸ h') hnow) nofun

section Shown

variable {schema : Option Schema} {policy : Policy} {provider : Option Provider} {depth : Nat}
  {cs : List Command}

/-- In every graph that a run shows the edges have their ends, whatever the nodes are known by. -/
theorem anchored_of_shown :
    ∀ g ∈ (afterAll depth cs (start schema policy provider)).shown, g.Anchored := by
  refine (moves_afterAll depth cs _).shown (fun hstep => hstep.anchored) ?_
  exact List.forall_mem_singleton.2 nofun

/-- Whatever is done from the start, and whatever the data of nodes and edges is: in every graph
that is shown, if identifiers and types are texts, a query for the edges of a type that no node has
gives for each of them that has the given ends, in order, what the other ends are. -/
theorem query_edges_of_shown (q : EdgeQuery) :
    ∀ g ∈ (afterAll depth cs (start schema policy provider)).shown,
      (∀ n ∈ g.nodes, Graph.isText n.id = true ∧ Graph.isText n.type = true ∧ n.type ≠ q.type) →
      (∀ e ∈ g.edges, Graph.isText e.type = true) →
      ∃ pattern base, Pattern.ofRaw q.raw = .ok pattern ∧
        FactBase.empty.load (.list (g.facts.map Value.ofFields)) = (base, .ok g.facts.length) ∧
        base.query pattern = g.edges.filterMap q.answer := by
  intro g hg hnodes hedges
  refine ⟨q.pattern, ⟨g.facts⟩, q.ofRaw_raw, FactBase.load_facts .empty g.facts, ?_⟩
  have hids : ∀ n ∈ g.nodes, Graph.isText n.id = true := fun n hn => (hnodes n hn).1
  refine g.query_facts q (fun n hn => (hnodes n hn).2) fun e he => ⟨hedges e he, ?_⟩
  exact (anchored_of_shown g hg).isText_endpoint hids he

/-- Data that looks like what identifies an edge, or several. -/
def forgedData : Value :=
  .record [("id", .text "0"), ("type", .text "likes"),
    ("source_node_id", .list [.text "a", .text "b"]), ("target_node_id", .text "b")]

/-- Two people of whom the first likes the second twice, with data that says otherwise. -/
def forgedRun : List Command :=
  ["a", "b"].map (fun id =>
    .addNode (.record [("id", .text id), ("type", .text "person"), ("data", forgedData)])) ++
  [("1", "likes"), ("2", "dislikes"), ("3", "likes")].map (fun p =>
    .addEdge (.record [("id", .text p.1), ("type", .text p.2), ("source_node_id", .text "a"),
      ("target_node_id", .text "b"), ("data", forgedData)]))

/-- Who likes the second? -/
def likers : EdgeQuery where
  type := ⟨.text "likes", rfl⟩
  source := .asked "who" (by decide)
  target := .given ⟨.text "b", rfl⟩
  apart := nofun

theorem query_edges_of_forgedRun :
    let s := afterAll 1 forgedRun (start none plainPolicy none)
    s.graph ∈ s.shown ∧
      (∀ n ∈ s.graph.nodes,
        Graph.isText n.id = true ∧ Graph.isText n.type = true ∧ n.type ≠ likers.type) ∧
      (∀ e ∈ s.graph.edges, Graph.isText e.type = true) ∧
      (s.graph.edges.filterMap likers.answer).length = 2 ∧
      ∃ pattern base, Pattern.ofRaw likers.raw = .ok pattern ∧
        FactBase.empty.load (.list (s.graph.facts.map Value.ofFields)) =
          (base, .ok s.graph.facts.length) ∧
        base.query pattern = s.graph.edges.filterMap likers.answer := by
  intro s
  have hshown : s.graph ∈ s.shown := List.mem_cons_self
  have hnodes : ∀ n ∈ s.graph.nodes,
      Graph.isText n.id = true ∧ Graph.isText n.type = true ∧ n.type ≠ likers.type := by
    decide +kernel
  have hedges : ∀ e ∈ s.graph.edges, Graph.isText e.type = true := by decide +kernel
  exact ⟨hshown, hnodes, hedges, by decide +kernel,
    query_edges_of_shown likers s.graph hshown hnodes hedges⟩

end Shown

end Session

end PropertyGraph
