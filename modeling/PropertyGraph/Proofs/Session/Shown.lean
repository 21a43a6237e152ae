import PropertyGraph.Proofs.Session.Operations

/-!
# What a session shows of its graph

A graph is shown wherever a listener is called, after every command that a listener gives, and
between the commands that are given from outside.  If all entities that were added have texts for
identifiers, then every graph that is ever shown is valid: the moves of a session either leave the
graph alone or take a step of it, and the step is over before anybody is told.
-/

namespace PropertyGraph

/-- Whether something that happened tells only of entities with texts for identifiers. -/
def Occurrence.textual : Occurrence → Bool
  | .told _ payload => payload.all Payload.textual
  | _ => true

namespace Session

/-- The session after some commands, one after another, whatever came of each. -/
def afterAll (depth : Nat) (cs : List Command) (s : Session) : Session :=
  cs.foldl (fun s c => (carryOut (run depth c) s).2) s

/-- The graph as it is, and as it was whenever somebody could look at it. -/
def shown (s : Session) : List Graph := s.graph :: s.history.filterMap Occurrence.graph?

/-- Whether all that was added has texts for identifiers. -/
def textual (s : Session) : Bool := s.history.all Occurrence.textual

theorem afterAll_append (depth : Nat) (before after : List Command) (s : Session) :
    afterAll depth (before ++ after) s = afterAll depth after (afterAll depth before s) :=
  List.foldl_append

theorem moves_afterAll (depth : Nat) (cs : List Command) (s : Session) :
    Moves s (afterAll depth cs s) := by
  induction cs generalizing s with
  | nil => exact .refl
  | cons c rest ih => exact (moving_run depth c s).trans (ih _)

/-- What is shown is valid, as long as entities have texts for identifiers. -/
def ShowsValid (s : Session) : Prop :=
  s.textual = true → ∀ g ∈ s.shown, Graph.Valid s.schema g

theorem mem_shown_iff (s : Session) (g : Graph) :
    g ∈ s.shown ↔ g = s.graph ∨ ∃ o ∈ s.history, o.graph? = some g := by
  rw [shown, List.mem_cons, List.mem_filterMap]

theorem showsValid_start (schema : Option Schema) (policy : Policy) (provider : Option Provider) :
    ShowsValid (start schema policy provider) := by
  intro _ g hg
  obtain rfl := List.mem_singleton.1 hg
  exact Graph.valid_empty schema

/-- A graph that is shown is valid after something happened, if the one that is there now is. -/
theorem ShowsValid.occurred {s : Session} (h : s.ShowsValid) {g : Graph} {o : Occurrence}
    (ho : ∀ g' ∈ o.graph?, g' = s.graph)
    (hg : s.textual = true → o.textual = true → Graph.Valid s.schema g) :
    ShowsValid { s with graph := g, history := s.history ++ [o] } := by
  intro htext g' hg'
  have hall : s.textual = true ∧ o.textual = true := by
    rw [textual, List.all_append, Bool.and_eq_true, List.all_cons, List.all_nil, Bool.and_true]
      at htext
    exact htext
  rcases (mem_shown_iff _ _).1 hg' with rfl | ⟨p, hp, hpg⟩
  · exact hg hall.1 hall.2
  rcases List.mem_append.1 hp with hp | hp
  · exact h hall.1 g' ((mem_shown_iff _ _).2 (.inr ⟨p, hp, hpg⟩))
  · rw [List.mem_singleton.1 hp] at hpg
    rw [ho g' hpg]
    exact h hall.1 _ List.mem_cons_self

theorem Move.showsValid {s t : Session} (hmove : Move s t) (h : s.ShowsValid) : t.ShowsValid := by
  cases hmove with
  | noted ho => exact h.occurred ho fun htext _ => h htext _ List.mem_cons_self
  | counted => exact h
  | listening => exact h
  | stepped hstep =>
    refine h.occurred nofun fun htext hpayload => ?_
    refine hstep.valid (h htext _ List.mem_cons_self) ?_
    intro n hn p hp
    obtain rfl := Option.some.inj hn
    exact List.all_eq_true.1 hpayload p hp

theorem Moves.showsValid {s t : Session} (hmoves : Moves s t) (h : s.ShowsValid) :
    t.ShowsValid := by
  induction hmoves with
  | refl => exact h
  | tail _ hmove ih => exact hmove.showsValid ih

/-! ### A run -/

/-- Items, of which each may be paired once on each side. -/
def pairSchema : Schema where
  nodeTypes := [("item", ⟨"item", "", [], [("label", .string)], none⟩)]
  edgeTypes := [("paired", ⟨"paired", "", ⟨"item", false, false⟩, ⟨"item", false, false⟩, [], [],
    none⟩)]

/-- An item, as a document. -/
def item (id : String) : Value :=
  .record [("id", .text id), ("type", .text "item"), ("data", .record [("label", .text id)])]

/-- A pair of items, as a document. -/
def pair (id source target : String) : Value :=
  .record [("id", .text id), ("type", .text "paired"), ("source_node_id", .text source),
    ("target_node_id", .text target)]

/-- At each of its first two calls, this adds the item `b`, pairs it with `a`, and fails. -/
def pairer : Listener :=
  .ofSteps "pairer" 2 [.give (.addNode (item "b")) false,
    .give (.addEdge (pair "ab" "a" "b")) false, .fail (.unavailable "done")]

/-- The item `a` is added while `pairer` listens, and then `a` is to be paired with itself. -/
def pairedRun : List Command :=
  [.subscribe "node:add" pairer, .addNode (item "a"), .addEdge (pair "aa" "a" "a")]

/-- After that there are pairs in both directions, two of them in one bundle, the first of which is
moved, and `b` is deleted. -/
def unpairedRun : List Command :=
  pairedRun ++ [.addEdge (pair "ba" "b" "a"), .addEdge (pair "ab2" "a" "b"),
    .updateEdge (.text "ab") (.record [("source_node_id", .text "b")]), .deleteNode (.text "b")]

/-- How vectors are gone about where no vector is asked for. -/
def plainPolicy : Policy := ⟨.null, .skip, .null⟩

/-! ### What runs show -/

section Runs

variable {schema : Option Schema} {policy : Policy} {provider : Option Provider} {depth : Nat}
  {cs : List Command}

/-- Every graph that a run shows is valid. -/
theorem valid_of_shown
    (htext : (afterAll depth cs (start schema policy provider)).textual = true) {g : Graph}
    (hg : g ∈ (afterAll depth cs (start schema policy provider)).shown) :
    Graph.Valid schema g := by
  have hmoves := moves_afterAll depth cs (start schema policy provider)
  have hvalid := hmoves.showsValid (showsValid_start schema policy provider) htext g hg
  rwa [hmoves.schema_eq] at hvalid

/-- Whatever is done from the start, whoever listens, and whether it succeeds or fails: in every
graph that is shown, identifiers are unique and edges have both their ends, and where there is a
schema the graph is as it declares. -/
theorem sound_and_conforming_of_shown
    (htext : (afterAll depth cs (start schema policy provider)).textual = true) :
    ∀ g ∈ (afterAll depth cs (start schema policy provider)).shown,
      g.Sound ∧ ∀ s, schema = some s → g.Conforming s := by
  intro g hg
  have hvalid := valid_of_shown htext hg
  exact ⟨hvalid.sound, hvalid.conforming⟩

/-- One pair is made inside two calls that fail, and the other is refused. -/
theorem pairedRun_sound_and_conforming :
    (afterAll 3 pairedRun (start pairSchema plainPolicy none)).textual = true ∧
      (afterAll 3 pairedRun (start pairSchema plainPolicy none)).graph.edges.length = 1 ∧
      ∀ g ∈ (afterAll 3 pairedRun (start pairSchema plainPolicy none)).shown,
        g.Sound ∧ ∀ s, some pairSchema = some s → g.Conforming s :=
  have htext : (afterAll 3 pairedRun (start pairSchema plainPolicy none)).textual = true := by
    decide +kernel
  ⟨htext, by decide +kernel, sound_and_conforming_of_shown htext⟩

/-- In every graph that is shown, the adjacency has exactly one entry for each edge; so the
neighbours and the predecessors of the nodes are what the list of edges says. -/
theorem adjacency_of_shown
    (htext : (afterAll depth cs (start schema policy provider)).textual = true) :
    ∀ g ∈ (afterAll depth cs (start schema policy provider)).shown,
      g.adjacency.entries.Perm (g.edges.map Edge.entry) ∧
      (∀ u, (g.neighbors u).Nodup ∧ (g.predecessors u).Nodup) ∧
      (∀ u v, v ∈ g.neighbors u ↔ ∃ e ∈ g.edges, e.source = u ∧ e.target = v) ∧
      (∀ u v, u ∈ g.predecessors v ↔ v ∈ g.neighbors u) ∧
      (∀ u, g.edgesOf u = [] ↔ g.neighbors u = [] ∧ g.predecessors u = []) ∧
      g.edges.length = g.adjacency.entries.length := by
  intro g hg
  obtain ⟨hsound, hlinked, -⟩ := valid_of_shown htext hg
  refine ⟨hlinked.entries, ?_, hlinked.mem_neighbors_iff hsound, ?_,
    hlinked.edgesOf_eq_nil_iff hsound, ?_⟩
  · exact fun u => ⟨hlinked.nodup_neighbors hsound u, hlinked.nodup_predecessors hsound u⟩
  · intro u v
    rw [hlinked.mem_predecessors_iff hsound, hlinked.mem_neighbors_iff hsound]
  · rw [hlinked.entries.length_eq, List.length_map]

/-- One entry is left, that of `a` with itself. -/
theorem unpairedRun_adjacency :
    (afterAll 3 unpairedRun (start none plainPolicy none)).textual = true ∧
      (afterAll 3 unpairedRun (start none plainPolicy none)).graph.adjacency.entries.length = 1 ∧
      ∀ g ∈ (afterAll 3 unpairedRun (start none plainPolicy none)).shown,
        g.adjacency.entries.Perm (g.edges.map Edge.entry) ∧
        (∀ u, (g.neighbors u).Nodup ∧ (g.predecessors u).Nodup) ∧
        (∀ u v, v ∈ g.neighbors u ↔ ∃ e ∈ g.edges, e.source = u ∧ e.target = v) ∧
        (∀ u v, u ∈ g.predecessors v ↔ v ∈ g.neighbors u) ∧
        (∀ u, g.edgesOf u = [] ↔ g.neighbors u = [] ∧ g.predecessors u = []) ∧
        g.edges.length = g.adjacency.entries.length :=
  have htext : (afterAll 3 unpairedRun (start none plainPolicy none)).textual = true := by
    decide +kernel
  ⟨htext, by decide +kernel, adjacency_of_shown htext⟩

end Runs

end Session

end PropertyGraph
