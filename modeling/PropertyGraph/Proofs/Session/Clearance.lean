import PropertyGraph.Proofs.Graph.Clearance
import PropertyGraph.Proofs.Session.EdgeChanges
import PropertyGraph.Proofs.Session.LoadingOrder
import PropertyGraph.Proofs.Session.Replay

/-!
# Clearance of a session

After anything was loaded, the edges may be deleted in any order: each deletion takes away just its
edge, the others stay where they are found, and in the end nothing is connected any more
(`deleteEdges_in_any_order`).

The identifiers of the edges may be of any kind, elusive ones too, as each edge is deleted by the
very identifier that it holds.  Only an edge without an identifier must meet some conditions: its
deletion takes away the last link between its ends, and nothing is found by the number that it is
linked under (`unnamed_deletion_strays`).
-/

namespace PropertyGraph

/-- Whether a command reads entities and adds them. -/
def Command.loads : Command → Bool
  | .addNode _ | .addEdge _ | .addNodes _ | .addEdges _ | .load _ => true
  | _ => false

namespace Session

open PropertyGraph.Graph

variable {schema : Option Schema} {inner : Command → Act Outcome} {s t : Session}

/-! ### Loading -/

/-- Nobody listens, and the graph is charted if its edges are unmistakable. -/
structure Laden (schema : Option Schema) (s : Session) : Prop where
  schema_eq : s.schema = schema
  silent : s.bus.entries = []
  charted : Unmistakable schema s.graph.edges → Charted schema s.graph

theorem laden_start (schema : Option Schema) (policy : Policy) (provider : Option Provider) :
    Laden schema (start schema policy provider) :=
  ⟨rfl, rfl, fun _ => charted_empty schema⟩

theorem keeps_laden_commit (change : Option Schema → Graph → Result Graph)
    (notices : List Notice)
    (hchange : ∀ {g g'}, change schema g = .ok g' →
      (Unmistakable schema g.edges → Charted schema g) →
        Unmistakable schema g'.edges → Charted schema g') :
    Leads (Keeps (Laden schema)) (do
      let s ← get
      let g ← settle (change s.schema s.graph)
      commit inner g notices) := by
  intro s hs
  rw [carryOut_get_bind, carryOut_settle_bind]
  rcases h : change s.schema s.graph with f | g
  · exact hs
  · rw [hs.schema_eq] at h
    show Laden schema (carryOut (commit inner g notices) s).2
    rw [carryOut_commit_silent g notices hs.silent]
    exact ⟨hs.schema_eq, hs.silent, hchange h hs.charted⟩

theorem keeps_laden_addNode (n : Node) : Leads (Keeps (Laden schema)) (addNode inner n) := by
  refine keeps_laden_commit (fun schema g => g.addNode schema n) [.nodeAdded n]
    fun {g g'} h hg hclear => ?_
  obtain ⟨-, -, -, rfl⟩ := addNode_eq_ok_iff.1 h
  exact (hg hclear).of_addNode h

theorem keeps_laden_addEdge (e : Edge) : Leads (Keeps (Laden schema)) (addEdge inner e) := by
  refine keeps_laden_commit (fun schema g => g.addEdge schema e) [.edgeAdded e]
    fun {g g'} h hg hclear => ?_
  have hadded := addEdge_eq_ok_iff.1 h
  obtain ⟨-, -, -, rfl⟩ := hadded
  exact (hg (hclear.sublist (List.sublist_append_left _ _))).of_addEdge h hclear

theorem keeps_laden_step {c : Command} (hc : c.loads = true) :
    Leads (Keeps (Laden schema)) (step inner c) := by
  have hnode : ∀ v, Leads (Keeps (Laden schema)) (loadNode inner v) := fun v =>
    .bind (.settle _) keeps_laden_addNode
  have hedge : ∀ v, Leads (Keeps (Laden schema)) (loadEdge inner v) := fun v =>
    .bind (.settle _) keeps_laden_addEdge
  cases c with
  | addNode v => exact .bind (hnode v) fun _ => .pure _
  | addEdge v => exact .bind (hedge v) fun _ => .pure _
  | addNodes v => exact .bind (.settle _) fun items => .bind (.forM hnode) fun _ => .pure _
  | addEdges v => exact .bind (.settle _) fun items => .bind (.forM hedge) fun _ => .pure _
  | load document => exact .bind (leads_load hnode hedge document) fun _ => .pure _
  | _ => cases hc

/-! ### Places -/

/-- What is left of some things when those at some places are gone. -/
def remaining {α : Type} (l : List α) (gone : List Nat) : List α :=
  (l.zipIdx.filter fun p => p.2 ∉ gone).map (·.1)

/-- The place that something comes to when what was at some places is gone. -/
def placeAfter (gone : List Nat) (place : Nat) : Nat :=
  (List.range place).countP fun i => i ∉ gone

/-- The deletions of the edges at some places, one after another, when some are gone already. -/
def deletions (gone : List Nat) : List Nat → List Command
  | [] => []
  | place :: rest => .deleteHeld (placeAfter gone place) :: deletions (gone ++ [place]) rest

@[simp] theorem remaining_nil {α : Type} (l : List α) : remaining l [] = l := by
  simp [remaining]

theorem remaining_eq_nil {α : Type} {l : List α} {gone : List Nat}
    (h : ∀ i < l.length, i ∈ gone) : remaining l gone = [] := by
  rw [remaining, List.map_eq_nil_iff, List.filter_eq_nil_iff]
  intro p hp
  have hlt := (List.mem_zipIdx hp).2.1
  rw [Nat.zero_add] at hlt
  rw [decide_eq_true_eq, not_not]
  exact h p.2 hlt

/-- Where nothing has a place, the same is left when that is gone too. -/
theorem filter_gone_concat {α : Type} {ps : List (α × Nat)} {place : Nat}
    (h : ∀ p ∈ ps, p.2 ≠ place) (gone : List Nat) :
    ps.filter (fun p => p.2 ∉ gone ++ [place]) = ps.filter fun p => p.2 ∉ gone := by
  refine List.filter_congr fun p hp => ?_
  simp only [List.mem_append, List.mem_singleton, h p hp, or_false]

/-- When one more thing goes, it goes from the place that it came to. -/
theorem remaining_split {α : Type} {l : List α} {gone : List Nat} {place : Nat} {x : α}
    (hx : l[place]? = some x) (hplace : place ∉ gone) :
    ∃ before after, remaining l gone = before ++ x :: after ∧
      before.length = placeAfter gone place ∧
      remaining l (gone ++ [place]) = before ++ after := by
  obtain ⟨ls, ms, rfl, rfl⟩ : ∃ ls ms, l = ls ++ x :: ms ∧ ls.length = place := by
    obtain ⟨hlt, rfl⟩ := List.getElem?_eq_some_iff.1 hx
    refine ⟨l.take place, l.drop (place + 1), ?_, List.length_take_of_le (Nat.le_of_lt hlt)⟩
    rw [List.getElem_cons_drop, List.take_append_drop]
  have hindexed : (ls ++ x :: ms).zipIdx =
      ls.zipIdx ++ (x, ls.length) :: ms.zipIdx (ls.length + 1) := by
    rw [List.zipIdx_append, List.zipIdx_cons, Nat.zero_add]
  have hbefore : ∀ p ∈ ls.zipIdx, p.2 ≠ ls.length := by
    intro p hp
    have := (List.mem_zipIdx hp).2.1
    omega
  have hafter : ∀ p ∈ ms.zipIdx (ls.length + 1), p.2 ≠ ls.length := by
    intro p hp
    have := (List.mem_zipIdx hp).1
    omega
  refine ⟨(ls.zipIdx.filter fun p => p.2 ∉ gone).map (·.1),
    ((ms.zipIdx (ls.length + 1)).filter fun p => p.2 ∉ gone).map (·.1), ?_, ?_, ?_⟩
  · rw [remaining, hindexed, List.filter_append, List.filter_cons, if_pos (decide_eq_true hplace),
      List.map_append, List.map_cons]
  · rw [List.length_map, ← List.countP_eq_length_filter, placeAfter, List.range_eq_range',
      ← List.zipIdx_map_snd 0 ls, List.countP_map]
    rfl
  · rw [remaining, hindexed, List.filter_append, List.filter_cons, filter_gone_concat hbefore,
      filter_gone_concat hafter, if_neg, List.map_append]
    simp

/-! ### Deleting -/

/-- What is left of a session when the edges at some places were deleted: its nodes, and the other
edges in their order. -/
structure Cleared (schema : Option Schema) (s : Session) (gone : List Nat) (t : Session) :
    Prop where
  silent : t.bus.entries = []
  charted : Charted schema t.graph
  inSight : InSight schema t.graph.adjacency
  nodes : t.graph.nodes = s.graph.nodes
  edges : t.graph.edges = remaining s.graph.edges gone

variable {depth : Nat} {gone : List Nat} {place : Nat} {e : Edge}

/-- Where nobody listens, an edge at some place is deleted, and that is all that happens. -/
theorem carryOut_deleteHeld_silent (hsilent : t.bus.entries = [])
    (he : t.graph.edges[place]? = some e) (depth : Nat) :
    carryOut (run (depth + 1) (.deleteHeld place)) t = (.ok (.flag true), { t with
      graph := t.graph.removeHeld place e
      history := t.history ++ [.told (Notice.edgeDeleted e.id).event
        (Notice.edgeDeleted e.id).payload] }) := by
  rw [carryOut_run_deleteHeld, deleteHeld_eq_some_iff.2 ⟨e, he, rfl, rfl⟩]
  show carryOut (do commit (run depth) _ _; return Outcome.flag true) t = _
  rw [carryOut_return, carryOut_commit_silent _ _ hsilent]
  rfl

/-- An edge that a value finds can just as well be deleted by that. -/
theorem carryOut_deleteEdge_eq (hcharted : Charted schema t.graph)
    (he : t.graph.edges[place]? = some e) (hself : e.id.sameKey e.id = true) (depth : Nat) :
    carryOut (run (depth + 1) (.deleteEdge e.id)) t =
      carryOut (run (depth + 1) (.deleteHeld place)) t := by
  rw [carryOut_run_deleteEdge, hcharted.deleteEdge_eq (List.mem_of_getElem? he) hself,
    carryOut_run_deleteHeld, deleteHeld_eq_some_iff.2 ⟨e, he, rfl, rfl⟩,
    removeHeld_of_sameKey hself]

/-- Deleting one more edge takes it out of the place that it came to.  If a value finds it, it can
just as well be deleted by that. -/
theorem Cleared.deleteHeld (h : Cleared schema s gone t) (he : s.graph.edges[place]? = some e)
    (hplace : place ∉ gone) (depth : Nat) :
    let done := carryOut (run (depth + 1) (.deleteHeld (placeAfter gone place))) t
    t.graph.edges[placeAfter gone place]? = some e ∧ done.1 = .ok (.flag true) ∧
      (e.id.sameKey e.id = true → carryOut (run (depth + 1) (.deleteEdge e.id)) t = done) ∧
      Cleared schema s (gone ++ [place]) done.2 := by
  obtain ⟨before, after, hedges, hlength, hleft⟩ := remaining_split he hplace
  rw [← hlength]
  intro done
  have hsplit : t.graph.edges = before ++ e :: after := h.edges.trans hedges
  have hfound : t.graph.edges[before.length]? = some e := by
    rw [hsplit, List.getElem?_append_right (Nat.le_refl _), Nat.sub_self]
    rfl
  have hdone := carryOut_deleteHeld_silent h.silent hfound depth
  refine ⟨hfound, congrArg Prod.fst hdone,
    fun hself => carryOut_deleteEdge_eq h.charted hfound hself depth, ?_⟩
  rw [show done.2 = _ from congrArg Prod.snd hdone]
  constructor
  case silent => exact h.silent
  case charted => exact h.charted.removeHeld hsplit
  case inSight => exact h.inSight.removeHeld before.length e
  case nodes => exact (nodes_removeHeld t.graph before.length e).trans h.nodes
  case edges => exact (h.charted.edges_removeHeld hsplit).1.trans hleft.symm

theorem Cleared.afterAll {order : List Nat} (h : Cleared schema s gone t)
    (horder : ∀ i ∈ order, i < s.graph.edges.length) (hnodup : (gone ++ order).Nodup)
    (depth : Nat) :
    Cleared schema s (gone ++ order) (afterAll (depth + 1) (deletions gone order) t) := by
  induction order generalizing gone t with
  | nil => rwa [List.append_nil]
  | cons place rest ih =>
    rw [List.forall_mem_cons] at horder
    have hplace : place ∉ gone := fun hmem =>
      (List.nodup_append.1 hnodup).2.2 place hmem place List.mem_cons_self rfl
    obtain ⟨-, -, -, hdone⟩ := h.deleteHeld (List.getElem?_eq_getElem horder.1) hplace depth
    rw [List.append_cons] at hnodup ⊢
    exact ih hdone horder.2 hnodup

/-- One more deletion, when the edges at some places are gone, takes out just the edge at another
place, and all that are left still stand. -/
structure TakesOut (schema : Option Schema) (s : Session) (gone : List Nat) (place : Nat)
    (t : Session) (done : Result Outcome × Session) : Prop where
  succeeds : done.1 = .ok (.flag true)
  nodes : done.2.graph.nodes = s.graph.nodes
  before : t.graph.edges = remaining s.graph.edges gone
  after : done.2.graph.edges = remaining s.graph.edges (gone ++ [place])
  stand : ∀ f ∈ done.2.graph.edges, Stands schema done.2.graph f

/-- After anything was loaded, the edges may be deleted one by one in any order, if those without
an identifier are unmistakable and no check comes to one of them too early.  Every deletion
succeeds and takes out just the edge, and is the same as that by the value of its identifier, if a
value finds it; each edge that is not yet deleted still connects its ends, and is still in the way
of another one where its type takes only one.  In the end there are no edges, and no node has
neighbours or predecessors. -/
theorem deleteEdges_in_any_order {policy : Policy} {provider : Option Provider}
    {cs : List Command} (hcs : ∀ c ∈ cs, c.loads = true)
    (hs : s = afterAll (depth + 1) cs (start schema policy provider))
    (hclear : Unmistakable schema s.graph.edges) (hsight : InSight schema s.graph.adjacency)
    {order : List Nat} (horder : order.Perm (List.range s.graph.edges.length)) :
    (∀ before place after, order = before ++ place :: after →
      let t := afterAll (depth + 1) (deletions [] before) s
      let done := carryOut (run (depth + 1) (.deleteHeld (placeAfter before place))) t
      TakesOut schema s before place t done ∧
        ∃ e, s.graph.edges[place]? = some e ∧ t.graph.edges[placeAfter before place]? = some e ∧
          (e.id.sameKey e.id = true →
            carryOut (run (depth + 1) (.deleteEdge e.id)) t = done)) ∧
    let t := afterAll (depth + 1) (deletions [] order) s
    t.graph.edges = [] ∧
      ∀ id, t.graph.neighbors id = [] ∧ t.graph.predecessors id = [] := by
  have hladen : Laden schema s := by
    rw [hs]
    exact keeps_afterAll (fun c hc => keeps_laden_step (hcs c hc)) _
      (laden_start schema policy provider)
  have hcleared : Cleared schema s [] s :=
    ⟨hladen.silent, hladen.charted hclear, hsight, rfl, (remaining_nil _).symm⟩
  have hlt : ∀ i ∈ order, i < s.graph.edges.length := fun i hi =>
    List.mem_range.1 (horder.mem_iff.1 hi)
  have hnodup : order.Nodup := horder.nodup_iff.2 List.nodup_range
  refine ⟨?_, ?_⟩
  · rintro before place after rfl t done
    rw [List.forall_mem_append, List.forall_mem_cons] at hlt
    have hplace : place ∉ before := fun hmem =>
      (List.nodup_append.1 hnodup).2.2 place hmem place List.mem_cons_self rfl
    have he := List.getElem?_eq_getElem hlt.2.1
    have hbefore : Cleared schema s before t :=
      hcleared.afterAll hlt.1 (List.nodup_append.1 hnodup).1 depth
    obtain ⟨hfound, hok, hvalue, hdone⟩ := hbefore.deleteHeld he hplace depth
    exact ⟨⟨hok, hdone.nodes, hbefore.edges, hdone.edges,
      fun f hf => hdone.charted.stands hdone.inSight hf⟩, _, he, hfound, hvalue⟩
  · intro t
    have hleft : Cleared schema s order t := hcleared.afterAll hlt hnodup depth
    have hnone : t.graph.edges = [] :=
      hleft.edges.trans (remaining_eq_nil fun i hi => horder.mem_iff.2 (List.mem_range.2 hi))
    exact ⟨hnone, hleft.charted.neighbors_of_edges_eq_nil hnone⟩

/-- How two items are bound to one another in several ways. -/
def bound (schema : Option Schema) (bindings : List Value) : Session :=
  afterAll 1 [.load (Graph.document [item "a", item "b"] bindings)] (start schema plainPolicy none)

theorem not_exclusive_loose {e : Edge} (htype : e.type = .text "loose") (side : Side) :
    ¬ e.Exclusive (some bindingSchema) side := by
  rintro ⟨s, name, t, hs, hname, ht, hm⟩
  obtain rfl := Option.some.inj hs
  obtain rfl := Value.text.inj (htype.symm.trans hname)
  obtain rfl := Option.some.inj ht
  cases side <;> cases hm

/-- Four bindings of the same items, two of them with a NaN for their identifier, one of them tight,
and the last one without an identifier, are deleted out of their order. -/
theorem bindings_deleted_out_of_order :
    let s := bound (some bindingSchema) [binding (.float (0 / 0)) "loose",
      binding (.float (0 / 0)) "loose", binding (.text "x") "tight", binding .null "loose"]
    let order := [1, 3, 0, 2]
    order.Perm (List.range s.graph.edges.length) ∧
      (∀ before place after, order = before ++ place :: after →
        let t := afterAll 1 (deletions [] before) s
        let done := carryOut (run 1 (.deleteHeld (placeAfter before place))) t
        TakesOut (some bindingSchema) s before place t done ∧
          ∃ e, s.graph.edges[place]? = some e ∧
            t.graph.edges[placeAfter before place]? = some e ∧
            (e.id.sameKey e.id = true → carryOut (run 1 (.deleteEdge e.id)) t = done)) ∧
      let t := afterAll 1 (deletions [] order) s
      t.graph.edges = [] ∧
        ∀ id, t.graph.neighbors id = [] ∧ t.graph.predecessors id = [] := by
  intro s order
  have hedges : s.graph.edges.map (fun e => (e.id, e.type)) =
      [(.float (0 / 0), .text "loose"), (.float (0 / 0), .text "loose"),
        (.text "x", .text "tight"), (.null, .text "loose")] := by rfl
  have hlinks : s.graph.adjacency.links.map (·.edge) = s.graph.edges := by rfl
  have hs : s = afterAll 1 [_] (start (some bindingSchema) plainPolicy none) := rfl
  clear_value s
  have hnamed : (s.graph.edges.map fun e => (e.id, e.type)).Pairwise fun p _ => p.1 ≠ .null := by
    rw [hedges]
    simp
  rw [List.pairwise_map] at hnamed
  have hplain : ∀ e ∈ s.graph.edges, e.id = .null → ∀ side,
      ¬ e.Exclusive (some bindingSchema) side := by
    intro e he hnull
    have hmem := List.mem_map_of_mem (f := fun e : Edge => (e.id, e.type)) he
    rw [hedges] at hmem
    exact not_exclusive_loose (by simpa [hnull] using hmem)
  have hlength : s.graph.edges.length = 4 := by
    simpa using congrArg List.length hedges
  have horder : order.Perm (List.range s.graph.edges.length) := by
    rw [hlength]
    decide
  exact ⟨horder, deleteEdges_in_any_order (List.forall_mem_singleton.2 rfl) hs
    ⟨hnamed.imp fun h hnull => absurd hnull h, hplain⟩
    (inSight_of_pairwise (hlinks ▸ hnamed)) horder⟩

/-- How `a` is bound to itself, as a document. -/
def selfBinding (id : Value) (type : String) : Value :=
  .record [("id", id), ("type", .text type), ("source_node_id", .text "a"),
    ("target_node_id", .text "a")]

/-- A binding without an identifier takes the link of another one with it when it is deleted, if
that one was added after it, and its own link stays.  Where there is a schema, the number that it is
linked under is asked for when other bindings are checked, and is not found: not if it is tight
itself, and not if a tight one is linked behind it. -/
theorem unnamed_deletion_strays :
    let deleteAll := fun s : Session => afterAll 1 (s.graph.edges.map fun e => .deleteEdge e.id) s
    let tight := binding (.text "z") "tight"
    let s := bound none [binding .null "loose", binding (.text "x") "loose"]
    let t := bound (some bindingSchema) [binding .null "tight", binding (.text "y") "loose"]
    let u := bound (some bindingSchema) [binding (.text "x") "loose",
      selfBinding (.text "f") "tight", binding .null "loose"]
    (s.graph.edges.map (·.id) = [.null, .text "x"] ∧
      (carryOut (run 1 (.deleteEdge .null)) s).1 = .ok (.flag true) ∧
      (deleteAll s).graph.edges = [] ∧
      (deleteAll s).graph.neighbors (.text "a") = [.text "b"]) ∧
    (t.graph.edges.map (·.id) = [.null, .text "y"] ∧
      (carryOut (run 1 (.addEdge tight))
        (carryOut (run 1 (.deleteEdge (.text "y"))) t).2).1 = .error (.missingKey (.int 0))) ∧
    (u.graph.edges.map (·.id) = [.text "x", .text "f", .null] ∧
      (carryOut (run 1 (.addEdge tight))
        (carryOut (run 1 (.deleteEdge (.text "x"))) u).2).1 = .error (.missingKey (.int 1))) :=
  ⟨⟨by rfl, by rfl, by rfl, by rfl⟩, ⟨by rfl, by rfl⟩, by rfl, by rfl⟩

end Session

end PropertyGraph
