import PropertyGraph.Proofs.Graph.Loading
import PropertyGraph.Proofs.Session.Shown

/-!
# The order of what is loaded

Where nobody listens, loading changes the graph of a session as `Graph.load` does, and goes through
where that does (`follows_load`).  So after any run whose entities have texts for identifiers, nodes
and edges may be loaded in any order: either every order goes through or none does, and but for the
order the same comes of all (`load_in_any_order`).
-/

namespace PropertyGraph.Session

variable {α : Type} {inner : Command → Act Outcome}

/-- Where nobody listens, an act changes the graph as a function does, and fails where that does. -/
def Follows (a : Act PUnit) (change : Option Schema → Graph → Result Graph) : Prop :=
  ∀ s : Session, s.bus.entries = [] →
    (∀ g, change s.schema s.graph = .ok g →
      ∃ history, carryOut a s = (.ok ⟨⟩, { s with graph := g, history })) ∧
    ∀ f, change s.schema s.graph = .error f → (carryOut a s).1 = .error f

namespace Follows

theorem bind {a b : Act PUnit} {change next : Option Schema → Graph → Result Graph}
    (ha : Follows a change) (hb : Follows b next) :
    Follows (do a; b) (fun schema g => do next schema (← change schema g)) := by
  intro s hs
  obtain ⟨hok, herror⟩ := ha s hs
  constructor
  · intro g hg
    obtain ⟨k, hk, hg⟩ := bind_eq_ok_iff.1 hg
    obtain ⟨history, ha⟩ := hok k hk
    rw [carryOut_bind_ok ha]
    exact (hb { s with graph := k, history } hs).1 g hg
  · intro f hf
    replace hf : (change s.schema s.graph >>= next s.schema) = .error f := hf
    rcases hk : change s.schema s.graph with f' | k
    · obtain rfl : f' = f := by
        rw [hk] at hf
        exact Except.error.inj hf
      have hfailed := herror f' hk
      rcases ha : carryOut a s with ⟨r, t⟩
      rw [ha] at hfailed
      rw [carryOut_bind, ha, show r = .error f' from hfailed]
    · obtain ⟨history, ha⟩ := hok k hk
      rw [carryOut_bind_ok ha]
      rw [hk] at hf
      exact (hb { s with graph := k, history } hs).2 f hf

theorem forM {l : List α} {a : α → Act PUnit} {change : Option Schema → Graph → α → Result Graph}
    (ha : ∀ x, Follows (a x) fun schema g => change schema g x) :
    Follows (l.forM a) fun schema g => l.foldlM (change schema) g := by
  induction l with
  | nil =>
    intro s _
    refine ⟨fun g hg => ⟨s.history, ?_⟩, nofun⟩
    obtain rfl := Except.ok.inj hg
    rfl
  | cons x rest ih => exact (ha x).bind ih

theorem settle_bind {r : Result α} {a : α → Act PUnit}
    {change : Option Schema → Graph → α → Result Graph}
    (ha : ∀ x, Follows (a x) fun schema g => change schema g x) :
    Follows (do a (← settle r)) (fun schema g => do change schema g (← r)) := by
  cases r with
  | ok x => exact ha x
  | error f =>
    intro s _
    refine ⟨nofun, fun f' hf => ?_⟩
    obtain rfl := Except.error.inj hf
    rfl

/-- What is done is to put in place what comes of the function. -/
theorem of_commit (inner : Command → Act Outcome) (notices : List Notice) {a : Act PUnit}
    {change : Option Schema → Graph → Result Graph}
    (ha : ∀ s, carryOut a s =
      carryOut (do commit inner (← settle (change s.schema s.graph)) notices) s) :
    Follows a change := by
  intro s hs
  rw [ha, carryOut_settle_bind]
  constructor
  · intro g hg
    rw [hg]
    exact ⟨_, carryOut_commit_silent g notices hs⟩
  · intro f hf
    rw [hf]

end Follows

theorem follows_addNode (n : Node) :
    Follows (addNode inner n) fun schema g => g.addNode schema n :=
  .of_commit inner [.nodeAdded n] fun _ => rfl

theorem follows_addEdge (e : Edge) :
    Follows (addEdge inner e) fun schema g => g.addEdge schema e :=
  .of_commit inner [.edgeAdded e] fun _ => rfl

theorem follows_load (inner : Command → Act Outcome) (ns es : List Value) :
    Follows (load inner (Graph.document ns es)) fun schema g =>
      g.load schema (Graph.document ns es) := by
  have hnodes : Follows (ns.forM (loadNode inner)) fun schema g =>
      ns.foldlM (Graph.loadNode schema) g :=
    .forM fun v => .settle_bind follows_addNode
  have hedges : Follows (es.forM (loadEdge inner)) fun schema g =>
      es.foldlM (Graph.loadEdge schema) g :=
    .forM fun v => .settle_bind follows_addEdge
  exact hnodes.bind hedges

theorem run_load_iff {s : Session} (hs : s.bus.entries = []) (depth : Nat) (ns es : List Value)
    (g : Graph) :
    s.graph.load s.schema (Graph.document ns es) = .ok g ↔
      (carryOut (run (depth + 1) (.load (Graph.document ns es))) s).1.isOk = true ∧
        (carryOut (run (depth + 1) (.load (Graph.document ns es))) s).2.graph = g := by
  have hrun : carryOut (run (depth + 1) (.load (Graph.document ns es))) s =
      carryOut (do load (run depth) (Graph.document ns es); return Outcome.nothing) s := rfl
  rw [hrun, carryOut_return]
  obtain ⟨hok, herror⟩ := follows_load (run depth) ns es s hs
  constructor
  · intro hg
    obtain ⟨history, hdone⟩ := hok g hg
    rw [hdone]
    exact ⟨rfl, rfl⟩
  · rintro ⟨hdone, hgraph⟩
    rcases hload : s.graph.load s.schema (Graph.document ns es) with f | k
    · rw [herror f hload] at hdone
      cases hdone
    · obtain ⟨history, hk⟩ := hok k hload
      rw [hk] at hgraph
      exact congrArg _ hgraph

section Runs

variable {schema : Option Schema} {policy : Policy} {provider : Option Provider} {depth : Nat}
  {cs : List Command}

/-- After any run whose entities have texts for identifiers, while nobody listens, a list of nodes
and one of edges can be loaded in any order if they can be loaded in one, and the same comes of it
but for the order; only, where there is a schema, no edge may have null for its identifier. -/
theorem load_in_any_order {s : Session} (hs : s = afterAll depth cs (start schema policy provider))
    (htext : s.textual = true) (hnobody : s.bus.entries = []) {ns ns' es es' : List Value}
    (hns : ns.Perm ns') (hes : es.Perm es')
    (hnamed : schema = none ∨ ∀ v ∈ es, ∀ e, Edge.ofValue v = .ok e → e.id ≠ .null) (n : Nat) :
    let done := carryOut (run (n + 1) (.load (Graph.document ns es))) s
    let done' := carryOut (run (n + 1) (.load (Graph.document ns' es'))) s
    (done.1.isOk = true ↔ done'.1.isOk = true) ∧
      (done.1.isOk = true → Graph.SameButOrder done.2.graph done'.2.graph) := by
  have hvalid : Graph.Valid s.schema s.graph := by
    subst hs
    rw [(moves_afterAll depth cs (start schema policy provider)).schema_eq]
    exact valid_of_shown htext ((mem_shown_iff _ _).2 (.inl rfl))
  have hschema : s.schema = schema := by
    rw [hs, (moves_afterAll depth cs (start schema policy provider)).schema_eq]
    rfl
  -- one direction serves for both, as permutations can be turned round
  have hthrough : ∀ {ns ns' es es' : List Value}, ns.Perm ns' → es.Perm es' →
      (schema = none ∨ ∀ v ∈ es, ∀ e, Edge.ofValue v = .ok e → e.id ≠ .null) →
        (carryOut (run (n + 1) (.load (Graph.document ns es))) s).1.isOk = true →
          (carryOut (run (n + 1) (.load (Graph.document ns' es'))) s).1.isOk = true ∧
            Graph.SameButOrder (carryOut (run (n + 1) (.load (Graph.document ns es))) s).2.graph
              (carryOut (run (n + 1) (.load (Graph.document ns' es'))) s).2.graph := by
    intro ns ns' es es' hns hes hnamed hdone
    have hload := (run_load_iff hnobody n ns es _).2 ⟨hdone, rfl⟩
    obtain ⟨h', hload', hsame⟩ := hvalid.exists_load_of_perm hns hes
      (fun v hv e he hne => hnamed.resolve_left (hschema ▸ hne) v hv e he) hload
    obtain ⟨hdone', rfl⟩ := (run_load_iff hnobody n ns' es' h').1 hload'
    exact ⟨hdone', hsame⟩
  have hnamed' : schema = none ∨ ∀ v ∈ es', ∀ e, Edge.ofValue v = .ok e → e.id ≠ .null :=
    hnamed.imp_right fun h v hv => h v (hes.mem_iff.2 hv)
  refine ⟨⟨fun h => (hthrough hns hes hnamed h).1, fun h => ?_⟩,
    fun h => (hthrough hns hes hnamed h).2⟩
  exact (hthrough hns.symm hes.symm hnamed' h).1

/-- After an item `z` is added, two items and two pairs can be loaded in any order. -/
theorem pairs_in_any_order :
    let s := afterAll 1 [.addNode (item "z")] (start (some pairSchema) plainPolicy none)
    let done := carryOut (run 1 (.load (Graph.document [item "a", item "b"]
      [pair "ab" "a" "b", pair "bz" "b" "z"]))) s
    let done' := carryOut (run 1 (.load (Graph.document [item "b", item "a"]
      [pair "bz" "b" "z", pair "ab" "a" "b"]))) s
    s.textual = true ∧ s.bus.entries = [] ∧ done.1.isOk = true ∧ done'.1.isOk = true ∧
      Graph.SameButOrder done.2.graph done'.2.graph := by
  intro s done done'
  have htext : s.textual = true := by decide +kernel
  have hdone : done.1.isOk = true := by decide +kernel
  have hread : ∀ id source target e, Edge.ofValue (pair id source target) = .ok e →
      e.id ≠ .null := by
    intro id source target e he
    obtain rfl := Except.ok.inj he
    exact nofun
  have hnamed : ∀ v ∈ [pair "ab" "a" "b", pair "bz" "b" "z"], ∀ e, Edge.ofValue v = .ok e →
      e.id ≠ .null := by
    rw [List.forall_mem_cons, List.forall_mem_singleton]
    exact ⟨hread "ab" "a" "b", hread "bz" "b" "z"⟩
  have horder := load_in_any_order rfl htext rfl (.swap (item "b") (item "a") [])
    (.swap (pair "bz" "b" "z") (pair "ab" "a" "b") []) (.inr hnamed) 0
  exact ⟨htext, rfl, hdone, horder.1.1 hdone, horder.2 hdone⟩

/-- Items, which may be bound loosely, or tightly to one other item. -/
def bindingSchema : Schema where
  nodeTypes := [("item", ⟨"item", "", [], [("label", .string)], none⟩)]
  edgeTypes := [
    ("loose", ⟨"loose", "", ⟨"item", true, false⟩, ⟨"item", true, false⟩, [], [], none⟩),
    ("tight", ⟨"tight", "", ⟨"item", false, false⟩, ⟨"item", true, false⟩, [], [], none⟩)]

/-- How `a` is bound to `b`, as a document. -/
def binding (id : Value) (type : String) : Value :=
  .record [("id", id), ("type", .text type), ("source_node_id", .text "a"),
    ("target_node_id", .text "b")]

/-- A loose binding without an identifier can be loaded after a tight one, and not before it. -/
theorem unnamed_binding_in_order :
    let s := afterAll 1 [] (start (some bindingSchema) plainPolicy none)
    let unnamed := binding .null "loose"
    let tight := binding (.text "x") "tight"
    let nodes := [item "a", item "b"]
    s.textual = true ∧ s.bus.entries = [] ∧ [tight, unnamed].Perm [unnamed, tight] ∧
      (carryOut (run 1 (.load (Graph.document nodes [tight, unnamed]))) s).1.isOk = true ∧
      (carryOut (run 1 (.load (Graph.document nodes [unnamed, tight]))) s).1.isOk = false :=
  ⟨rfl, rfl, .swap _ _ _, by decide +kernel, by decide +kernel⟩

end Runs

end PropertyGraph.Session
