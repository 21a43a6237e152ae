import PropertyGraph.Proofs.Graph.Admission
import PropertyGraph.Proofs.Graph.Rewiring
import PropertyGraph.Proofs.Session.Unhindered

/-!
# Changes of edges in a session

What becomes of the commands that add, update and delete an edge, in every session that can come
about from an empty one while identifiers are texts.

Where there is a schema, an edge is added just when it is admissible, and otherwise refused with the
failure of the first condition that it does not meet (`addEdge_decided`).  To update an edge is to
delete it and add the new one, but for its place (`updateEdge_readds`); this is so with a schema and
without one, as long as the listeners leave the graph alone and do not fail.
-/

namespace PropertyGraph.Session

/-! ### Commands -/

theorem carryOut_run_addEdge (depth : Nat) (e : Edge) (s : Session) :
    carryOut (run (depth + 1) (.addEdge e.toValue)) s =
      match s.graph.addEdge s.schema e with
      | .ok g => carryOut (do commit (run depth) g [.edgeAdded e]; return Outcome.nothing) s
      | .error f => (.error f, s) := by
  show carryOut (do loadEdge (run depth) e.toValue; return Outcome.nothing) s = _
  unfold loadEdge addEdge
  rw [carryOut_return, carryOut_settle_bind, Edge.ofValue_toValue]
  simp only [carryOut_get_bind, carryOut_settle_bind]
  cases s.graph.addEdge s.schema e with
  | ok g => exact (carryOut_return _ _ s).symm
  | error f => rfl

theorem carryOut_run_updateEdge (depth : Nat) (id changes : Value) (s : Session) :
    carryOut (run (depth + 1) (.updateEdge id changes)) s =
      match s.graph.updateEdge s.schema id changes with
      | .ok (some (g, e, given)) =>
        carryOut (do commit (run depth) g [.edgeUpdated e given]; return .edge (some e)) s
      | .ok none => (.ok (.edge none), s)
      | .error f => (.error f, s) := by
  show carryOut (updateEdge (run depth) id changes) s = _
  unfold updateEdge
  rw [carryOut_get_bind, carryOut_settle_bind]
  rcases s.graph.updateEdge s.schema id changes with f | _ | ⟨g, e, given⟩ <;> rfl

theorem carryOut_run_deleteEdge (depth : Nat) (id : Value) (s : Session) :
    carryOut (run (depth + 1) (.deleteEdge id)) s =
      match s.graph.deleteEdge id with
      | .ok (some g) =>
        carryOut (do commit (run depth) g [.edgeDeleted id]; return Outcome.flag true) s
      | .ok none => (.ok (.flag false), s)
      | .error f => (.error f, s) := by
  show carryOut (deleteEdge (run depth) id) s = _
  unfold deleteEdge
  rw [carryOut_get_bind, carryOut_settle_bind]
  rcases s.graph.deleteEdge id with f | _ | g <;> rfl

theorem carryOut_run_deleteHeld (depth : Nat) (place : Nat) (s : Session) :
    carryOut (run (depth + 1) (.deleteHeld place)) s =
      match s.graph.deleteHeld place with
      | some (g, id) =>
        carryOut (do commit (run depth) g [.edgeDeleted id]; return Outcome.flag true) s
      | none => (.ok (.flag false), s) := by
  show carryOut (deleteHeld (run depth) place) s = _
  unfold deleteHeld
  rw [carryOut_get_bind]
  rcases s.graph.deleteHeld place with _ | ⟨g, id⟩ <;> rfl

/-! ### Adding -/

section Reachable

variable {schema : Option Schema} {policy : Policy} {provider : Option Provider} {depth : Nat}
  {s : Session}

/-- The graph is valid in every session that comes about from an empty one. -/
theorem Moves.valid (hs : Moves (start schema policy provider) s) (htext : s.textual = true) :
    Graph.Valid schema s.graph := by
  have hvalid := hs.showsValid (showsValid_start schema policy provider) htext s.graph
    List.mem_cons_self
  rwa [hs.schema_eq] at hvalid

/-- An edge is added just when it is admissible; otherwise nothing is done, and what comes of it is
the failure of the first condition that the edge does not meet. -/
theorem addEdge_decided {schema : Schema} (hs : Moves (start (some schema) policy provider) s)
    (htext : s.textual = true) {e : Edge} (hid : Graph.isText e.id = true)
    (htype : Graph.isText e.type = true) (hends : ∀ side, Graph.isText (e.endpoint side) = true) :
    (∀ g, s.graph.addEdge (some schema) e = .ok g ↔
      Graph.Admissible schema s.graph e ∧ g = s.graph.insertEdge e) ∧
    (∀ f, s.graph.addEdge (some schema) e = .error f ↔ Graph.Refused schema s.graph e f) ∧
    carryOut (run (depth + 1) (.addEdge e.toValue)) s =
      match s.graph.addEdge (some schema) e with
      | .ok g => carryOut (do commit (run depth) g [.edgeAdded e]; return Outcome.nothing) s
      | .error f => (.error f, s) := by
  have hv := hs.valid htext
  have hschema : s.schema = some schema := hs.schema_eq
  refine ⟨hv.addEdge_ok_iff_admissible hid, hv.addEdge_error_iff_refused hid htype hends, ?_⟩
  rw [carryOut_run_addEdge, hschema]

end Reachable

/-- Turns a pair of `a` with `b` around. -/
def turned : Record Value := [("source_node_id", .text "b"), ("target_node_id", .text "a")]

/-- After `pairedRun` the pair is turned around. -/
def turnedRun : List Command := pairedRun ++ [.updateEdge (.text "ab") (.record turned)]

/-- A pair of `b` with itself. -/
def loop : Edge := ⟨.text "bb", .text "paired", .text "b", .text "b", [], .null, .null⟩

/-- The pair that was turned around is in the way of another one that leaves `b`. -/
theorem loop_decided :
    let s := afterAll 3 turnedRun (start pairSchema plainPolicy none)
    s.textual = true ∧ Graph.isText loop.id = true ∧ Graph.isText loop.type = true ∧
      (∀ side, Graph.isText (loop.endpoint side) = true) ∧
      (carryOut (run 3 (.addEdge loop.toValue)) s).1 =
        .error (.cardinality (.text "paired") .source (.text "b") (.text "ab")) ∧
      (∀ g, s.graph.addEdge (some pairSchema) loop = .ok g ↔
        Graph.Admissible pairSchema s.graph loop ∧ g = s.graph.insertEdge loop) ∧
      (∀ f, s.graph.addEdge (some pairSchema) loop = .error f ↔
        Graph.Refused pairSchema s.graph loop f) ∧
      carryOut (run 3 (.addEdge loop.toValue)) s =
        match s.graph.addEdge (some pairSchema) loop with
        | .ok g => carryOut (do commit (run 2) g [.edgeAdded loop]; return Outcome.nothing) s
        | .error f => (.error f, s) :=
  have htext : (afterAll 3 turnedRun (start pairSchema plainPolicy none)).textual = true := by
    decide +kernel
  have hends : ∀ side, Graph.isText (loop.endpoint side) = true := by
    intro side
    cases side <;> rfl
  ⟨htext, rfl, rfl, hends, by rfl,
    addEdge_decided (moves_afterAll 3 turnedRun _) htext rfl rfl hends⟩

/-! ### Updating -/

/-- The listeners that are called in the course of a command leave the graph alone, and none of them
fails. -/
structure Unhindered (depth : Nat) (c : Command) (s : Session) : Prop where
  leftAlone : LeftAlone (run depth) (run (depth + 1) c) s
  unfailing : ∀ f, (carryOut (run (depth + 1) c) s).1 = .error f →
    ¬ FromListener (run depth) s f (carryOut (run (depth + 1) c) s).2

/-- A step that is told of once all is ready goes through, if nobody hinders it. -/
theorem Unhindered.prepared {depth : Nat} {c : Command} {s s₁ : Session} {g : Graph}
    {notices : List Notice} {x : Outcome} (h : Unhindered depth c s)
    (hstep : Graph.Step s.schema s.graph g notices) (hready : Prepared s s₁)
    (hc : carryOut (run (depth + 1) c) s =
      carryOut (do commit (run depth) g notices; return x) s₁) :
    (carryOut (run (depth + 1) c) s).1 = .ok x ∧ (carryOut (run (depth + 1) c) s).2.graph = g := by
  refine ⟨?_, h.leftAlone.graph_of_prepared hstep hready hc⟩
  refine (prepared_or_fromListener hstep hready hc (moving_run depth)).resolve_right ?_
  rintro ⟨f, hf, hfrom⟩
  exact h.unfailing f hf hfrom

/-- A step that is told of goes through, if nobody hinders it. -/
theorem Unhindered.committed {depth : Nat} {c : Command} {s : Session} {g : Graph}
    {notices : List Notice} {x : Outcome} (h : Unhindered depth c s)
    (hstep : Graph.Step s.schema s.graph g notices)
    (hc : carryOut (run (depth + 1) c) s =
      carryOut (do commit (run depth) g notices; return x) s) :
    (carryOut (run (depth + 1) c) s).1 = .ok x ∧ (carryOut (run (depth + 1) c) s).2.graph = g :=
  h.prepared hstep (.refl s) hc

section Updating

variable {depth : Nat} {s : Session} {e f : Edge} {changes : Record Value}

/-- An update that nobody hinders hangs on the checks only. -/
theorem Unhindered.updated (hv : Graph.Valid s.schema s.graph) (he : e ∈ s.graph.edges)
    (hf : e.updated changes = .ok f)
    (h : Unhindered depth (.updateEdge e.id (.record changes)) s) :
    match s.graph.checkEdge s.schema f e.id with
    | .ok _ =>
      (carryOut (run (depth + 1) (.updateEdge e.id (.record changes))) s).1 =
        .ok (.edge (some f)) ∧
      (carryOut (run (depth + 1) (.updateEdge e.id (.record changes))) s).2.graph =
        s.graph.replaceEdge e.id e f
    | .error x => carryOut (run (depth + 1) (.updateEdge e.id (.record changes))) s =
        (.error x, s) := by
  have hupdate := hv.updateEdge_eq he hf
  have hrun := carryOut_run_updateEdge depth e.id (.record changes) s
  split
  · rename_i hcheck
    rw [hcheck] at hupdate
    rw [hupdate] at hrun
    exact h.committed (.edgeUpdated hupdate) hrun
  · rename_i x hcheck
    rw [hcheck] at hupdate
    rw [hupdate] at hrun
    exact hrun

theorem Unhindered.deleted (hv : Graph.Valid s.schema s.graph) (he : e ∈ s.graph.edges)
    (h : Unhindered depth (.deleteEdge e.id) s) :
    (carryOut (run (depth + 1) (.deleteEdge e.id)) s).1 = .ok (.flag true) ∧
      (carryOut (run (depth + 1) (.deleteEdge e.id)) s).2.graph = s.graph.removeEdge e.id e := by
  have hrun := carryOut_run_deleteEdge depth e.id s
  rw [hv.deleteEdge_eq he] at hrun
  exact h.committed (.edgeDeleted (hv.deleteEdge_eq he)) hrun

/-- Adding the new edge when the old one is deleted hangs on the same checks. -/
theorem Unhindered.readded (hv : Graph.Valid s.schema s.graph) (he : e ∈ s.graph.edges)
    (hid : f.id = e.id) {t : Session} (hschema : t.schema = s.schema)
    (ht : t.graph = s.graph.removeEdge e.id e) (h : Unhindered depth (.addEdge f.toValue) t) :
    match s.graph.checkEdge s.schema f e.id with
    | .ok _ =>
      (carryOut (run (depth + 1) (.addEdge f.toValue)) t).1 = .ok .nothing ∧
      (carryOut (run (depth + 1) (.addEdge f.toValue)) t).2.graph =
        (s.graph.removeEdge e.id e).insertEdge f
    | .error x => carryOut (run (depth + 1) (.addEdge f.toValue)) t = (.error x, t) := by
  have hadd := hv.readdEdge_eq he hid
  have hrun := carryOut_run_addEdge depth f t
  rw [← ht, ← hschema] at hadd
  rw [← hschema]
  split
  · rename_i hcheck
    rw [hcheck] at hadd
    rw [hadd] at hrun
    rw [← ht]
    exact h.committed (.edgeAdded hadd) hrun
  · rename_i x hcheck
    rw [hcheck] at hadd
    rw [hadd] at hrun
    exact hrun

/-- To update an edge is to delete it and add the new one: it succeeds just when this does, and
fails with the same failure.  What is there afterwards is the same, the order of all neighbours and
predecessors included, except that the updated edge is still in its place. -/
theorem updateEdge_readds {schema : Option Schema} {policy : Policy} {provider : Option Provider}
    (hs : Moves (start schema policy provider) s) (htext : s.textual = true)
    (he : e ∈ s.graph.edges) (hf : e.updated changes = .ok f)
    (hupdate : Unhindered depth (.updateEdge e.id (.record changes)) s)
    (hdelete : Unhindered depth (.deleteEdge e.id) s)
    (hadd : Unhindered depth (.addEdge f.toValue)
      (carryOut (run (depth + 1) (.deleteEdge e.id)) s).2) :
    let updated := carryOut (run (depth + 1) (.updateEdge e.id (.record changes))) s
    let deleted := carryOut (run (depth + 1) (.deleteEdge e.id)) s
    let added := carryOut (run (depth + 1) (.addEdge f.toValue)) deleted.2
    deleted.1 = .ok (.flag true) ∧
      (updated.1.isOk = true ↔ added.1.isOk = true) ∧
      (∀ x, updated.1 = .error x ↔ added.1 = .error x) ∧
      (updated.1.isOk = true → updated.1 = .ok (.edge (some f)) ∧
        Graph.Rewired s.graph e f updated.2.graph added.2.graph) := by
  intro updated deleted added
  have hv : Graph.Valid s.schema s.graph := by
    rw [hs.schema_eq]
    exact hs.valid htext
  have hschema : deleted.2.schema = s.schema :=
    (moving_run (depth + 1) (.deleteEdge e.id) s).schema_eq
  obtain ⟨hdeleted, hwithout⟩ := hdelete.deleted hv he
  have hupdated := hupdate.updated hv he hf
  have hadded := hadd.readded hv he (Edge.id_type_of_updated hf).1 hschema hwithout
  refine ⟨hdeleted, ?_⟩
  rcases hcheck : s.graph.checkEdge s.schema f e.id with x | _
  · rw [hcheck] at hupdated hadded
    have hupdated : updated = (.error x, s) := hupdated
    have hadded : added = (.error x, deleted.2) := hadded
    rw [hupdated, hadded]
    exact ⟨Iff.rfl, fun _ => Iff.rfl, nofun⟩
  · rw [hcheck] at hupdated hadded
    obtain ⟨hresult, hgraph⟩ : updated.1 = .ok (.edge (some f)) ∧
      updated.2.graph = s.graph.replaceEdge e.id e f := hupdated
    obtain ⟨hresult', hgraph'⟩ : added.1 = .ok .nothing ∧
      added.2.graph = (s.graph.removeEdge e.id e).insertEdge f := hadded
    rw [hresult, hresult', hgraph, hgraph']
    exact ⟨iff_of_true rfl rfl, fun _ => iff_of_false nofun nofun,
      fun _ => ⟨rfl, hv.rewired he hf⟩⟩

end Updating

/-- A bus on which `counter` is subscribed to all that is told of edges. -/
def watching : Bus Listener :=
  (((Bus.empty.subscribe .edgeAdded counter).2.subscribe .edgeUpdated counter).2.subscribe
    .edgeDeleted counter).2

/-- The pair of `a` with `b`, while `counter` listens. -/
def watched : Session :=
  { afterAll 1 [.addNodes (.list [item "a", item "b"]), .addEdge (pair "ab" "a" "b")]
      (start pairSchema plainPolicy none) with bus := watching }

/-- A pair under the identifier `ab`. -/
def named (source target : String) : Edge :=
  ⟨.text "ab", .text "paired", .text source, .text target, [], .null, .null⟩

/-- Neither way is the pair in its own way, where each side takes only one. -/
theorem watched_readds :
    watched.textual = true ∧ named "a" "b" ∈ watched.graph.edges ∧
      (named "a" "b").updated turned = .ok (named "b" "a") ∧
      Unhindered 2 (.updateEdge (named "a" "b").id (.record turned)) watched ∧
      Unhindered 2 (.deleteEdge (named "a" "b").id) watched ∧
      Unhindered 2 (.addEdge (named "b" "a").toValue)
        (carryOut (run 3 (.deleteEdge (named "a" "b").id)) watched).2 ∧
      let updated := carryOut (run 3 (.updateEdge (named "a" "b").id (.record turned))) watched
      let deleted := carryOut (run 3 (.deleteEdge (named "a" "b").id)) watched
      let added := carryOut (run 3 (.addEdge (named "b" "a").toValue)) deleted.2
      deleted.1 = .ok (.flag true) ∧
        (updated.1.isOk = true ↔ added.1.isOk = true) ∧
        (∀ x, updated.1 = .error x ↔ added.1 = .error x) ∧
        (updated.1.isOk = true → updated.1 = .ok (.edge (some (named "b" "a"))) ∧
          Graph.Rewired watched.graph (named "a" "b") (named "b" "a") updated.2.graph
            added.2.graph) :=
  have hmoves : Moves (start pairSchema plainPolicy none) watched :=
    (moves_afterAll 1 _ _).tail (.listening watching _)
  have hspares : ∀ t : Session, t.bus = watching → t.HeardBy fun _ listener => listener.Spares := by
    rintro t ht e he
    rw [ht] at he
    simp only [watching, Bus.subscribe, Bus.empty, List.nil_append, List.cons_append, List.mem_cons,
      List.not_mem_nil, or_false] at he
    obtain rfl | rfl | rfl := he <;> exact counter_spares
  have hunhindered : ∀ c t, t.bus = watching → (carryOut (run 3 c) t).1.isOk = true →
      Unhindered 2 c t := by
    refine fun c t ht hok => ⟨leftAlone_of_spares (hspares t ht) 2 _, fun f hf => ?_⟩
    rw [hf] at hok
    cases hok
  have htext : watched.textual = true := by decide +kernel
  have hedge : named "a" "b" ∈ watched.graph.edges := List.mem_cons_self
  have hupdated : (named "a" "b").updated turned = .ok (named "b" "a") := rfl
  have hupdate := hunhindered (.updateEdge (named "a" "b").id (.record turned)) watched rfl
    (by decide +kernel)
  have hdelete := hunhindered (.deleteEdge (named "a" "b").id) watched rfl (by decide +kernel)
  have hadd := hunhindered (.addEdge (named "b" "a").toValue)
    (carryOut (run 3 (.deleteEdge (named "a" "b").id)) watched).2 rfl (by decide +kernel)
  ⟨htext, hedge, hupdated, hupdate, hdelete, hadd,
    updateEdge_readds hmoves htext hedge hupdated hupdate hdelete hadd⟩

end PropertyGraph.Session
