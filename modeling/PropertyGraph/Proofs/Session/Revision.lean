import PropertyGraph.Proofs.Graph.Revision
import PropertyGraph.Proofs.Session.EdgeChanges

/-!
# Revisions in a session

In every session that can come about from an empty one while identifiers are texts, two updates of
an entity that go through one after another may be given as one, and an update that went through may
be given again (`updates_fuse`), as long as the listeners leave the graph alone.
-/

namespace PropertyGraph

/-- Updates the entity of a class with an identifier. -/
def Command.update (cls : EntityClass) (id : Value) (changes : Record Value) : Command :=
  match cls with
  | .node => .updateNode id (.record changes)
  | .edge => .updateEdge id (.record changes)

/-- What comes of the update. -/
def Graph.Revised.outcome : Graph.Revised → Outcome
  | .node n => .node (some n)
  | .edge e => .edge (some e)

namespace Session

open PropertyGraph.Graph

variable {depth : Nat} {s : Session} {cls : EntityClass} {id : Value} {changes : Record Value}

theorem carryOut_run_updateNode (depth : Nat) (id changes : Value) (s : Session) :
    carryOut (run (depth + 1) (.updateNode id changes)) s =
      match s.graph.updateNode s.schema id changes with
      | .ok (some (g, n, given)) =>
        carryOut (do commit (run depth) g [.nodeUpdated n given]; return .node (some n)) s
      | .ok none => (.ok (.node none), s)
      | .error f => (.error f, s) := by
  show carryOut (updateNode (run depth) id changes) s = _
  unfold updateNode
  rw [carryOut_get_bind, carryOut_settle_bind]
  rcases s.graph.updateNode s.schema id changes with f | _ | ⟨g, n, given⟩ <;> rfl

/-- A revision is made and then told of. -/
theorem carryOut_run_update {g : Graph} {x : Revised}
    (h : Revises s.schema s.graph id changes cls g x) (depth : Nat) :
    carryOut (run (depth + 1) (.update cls id changes)) s =
      carryOut (do commit (run depth) g [x.notice changes]; return x.outcome) s := by
  cases h with
  | node h => exact (carryOut_run_updateNode depth id (.record changes) s).trans (by rw [h]; rfl)
  | edge h => exact (carryOut_run_updateEdge depth id (.record changes) s).trans (by rw [h]; rfl)

/-- An update of something that is held is a revision, or is refused and leaves everything as it
was. -/
theorem revises_or_refused (hv : Valid s.schema s.graph) (hid : id ∈ (s.graph.roster cls).ids)
    (changes : Record Value) (depth : Nat) :
    (∃ g x, Revises s.schema s.graph id changes cls g x) ∨
      ∃ f, carryOut (run (depth + 1) (.update cls id changes)) s = (.error f, s) := by
  cases cls with
  | node =>
    rw [ids_roster_node, List.mem_map] at hid
    obtain ⟨n, hn, rfl⟩ := hid
    rw [Command.update, carryOut_run_updateNode]
    rcases h : s.graph.updateNode s.schema n.id (.record changes) with f | _ | ⟨g, m, given⟩
    · exact .inr ⟨f, rfl⟩
    · exact absurd h (hv.updateNode_ne_none hn _)
    · obtain ⟨_, -, hgiven, -⟩ := updateNode_eq_some_iff.1 h
      obtain rfl := Except.ok.inj hgiven
      exact .inl ⟨g, .node m, .node h⟩
  | edge =>
    rw [ids_roster_edge, List.mem_map] at hid
    obtain ⟨e, he, rfl⟩ := hid
    rw [Command.update, carryOut_run_updateEdge]
    rcases h : s.graph.updateEdge s.schema e.id (.record changes) with f | _ | ⟨g, k, given⟩
    · exact .inr ⟨f, rfl⟩
    · exact absurd h (hv.updateEdge_ne_none he _)
    · obtain ⟨-, _, -, hgiven, -⟩ := updateEdge_eq_some_iff.1 h
      obtain rfl := Except.ok.inj hgiven
      exact .inl ⟨g, .edge k, .edge h⟩

/-- An update comes to a graph, and something comes of it or a listener fails. -/
structure Comes (depth : Nat) (c : Command) (s : Session) (g : Graph) (r : Result Outcome) :
    Prop where
  graph : (carryOut (run (depth + 1) c) s).2.graph = g
  outcome : (carryOut (run (depth + 1) c) s).1 = r ∨
    ∃ f, (carryOut (run (depth + 1) c) s).1 = .error f ∧
      FromListener (run depth) s f (carryOut (run (depth + 1) c) s).2

/-- What becomes of a revision, as long as the listeners leave the graph alone. -/
theorem comes_of_revises {g : Graph} {x : Revised}
    (h : Revises s.schema s.graph id changes cls g x)
    (hleft : LeftAlone (run depth) (run (depth + 1) (.update cls id changes)) s) :
    Comes depth (.update cls id changes) s g (.ok x.outcome) :=
  ⟨hleft.graph_of_committed h.step (carryOut_run_update h depth),
    committed_or_fromListener h.step (carryOut_run_update h depth) (moving_run depth)⟩

/-- An update that goes through is a revision, with what comes of it. -/
theorem exists_revised (hv : Valid s.schema s.graph) (hid : id ∈ (s.graph.roster cls).ids)
    (hok : (carryOut (run (depth + 1) (.update cls id changes)) s).1.isOk = true)
    (hleft : LeftAlone (run depth) (run (depth + 1) (.update cls id changes)) s) :
    ∃ x, Revises s.schema s.graph id changes cls
        (carryOut (run (depth + 1) (.update cls id changes)) s).2.graph x ∧
      (carryOut (run (depth + 1) (.update cls id changes)) s).1 = .ok x.outcome := by
  obtain ⟨g, x, h⟩ : ∃ g x, Revises s.schema s.graph id changes cls g x := by
    refine (revises_or_refused hv hid changes depth).resolve_right ?_
    rintro ⟨f, hf⟩
    rw [hf] at hok
    cases hok
  obtain ⟨rfl, houtcome⟩ := comes_of_revises h hleft
  refine ⟨x, h, houtcome.resolve_right ?_⟩
  rintro ⟨f, hf, -⟩
  rw [hf] at hok
  cases hok

/-- Of two updates of an entity that go through one after another, the graph is the same in the end
as of one update with the changes of both, with all its orders, and the same comes of it, unless a
listener fails.  An update that went through goes through again in the same way and changes nothing
further. -/
theorem updates_fuse {schema : Option Schema} {policy : Policy} {provider : Option Provider}
    (hs : Moves (start schema policy provider) s) (htext : s.textual = true)
    (hid : id ∈ (s.graph.roster cls).ids) {first second : Record Value}
    (hfirst : Entity.Regular first) (hsecond : Entity.Regular second) :
    let once := carryOut (run (depth + 1) (.update cls id first)) s
    let twice := carryOut (run (depth + 1) (.update cls id second)) once.2
    (once.1.isOk = true → twice.1.isOk = true →
      LeftAloneAlong depth [.update cls id first, .update cls id second] s →
        LeftAlone (run depth) (run (depth + 1) (.update cls id (Entity.fused first second))) s →
          Comes depth (.update cls id (Entity.fused first second)) s twice.2.graph twice.1) ∧
      (once.1.isOk = true → (∀ fs, Entity.changedData? first = some fs → fs.Findable) →
        LeftAloneAlong depth [.update cls id first, .update cls id first] s →
          Comes depth (.update cls id first) once.2 once.2.graph once.1) := by
  intro once twice
  have hv : Valid s.schema s.graph := by
    rw [hs.schema_eq]
    exact hs.valid htext
  have hschema : once.2.schema = s.schema := (moving_run (depth + 1) _ s).schema_eq
  refine ⟨fun hok hok' hleft hleft' => ?_, fun hok hfind hleft => ?_⟩
  · obtain ⟨x, hx, -⟩ := exists_revised hv hid hok hleft.1
    have hv₁ : Valid once.2.schema once.2.graph := hschema ▸ hx.valid hv
    obtain ⟨y, hy, htwice⟩ := exists_revised hv₁ (hx.mem_ids hv) hok' hleft.2.1
    rw [hschema] at hy
    rw [show twice.1 = .ok y.outcome from htwice]
    exact comes_of_revises (hx.fuse hv hfirst hsecond hy) hleft'
  · obtain ⟨x, hx, honce⟩ := exists_revised hv hid hok hleft.1
    have hagain := hx.again hv hfirst hfind
    rw [← hschema] at hagain
    rw [show once.1 = .ok x.outcome from honce]
    exact comes_of_revises hagain hleft.2.1

/-- Turns a pair to `c`, and gives it a weight and a note; the identifier is passed over. -/
def turnedToC : Record Value :=
  [("id", .text "z"), ("target_node_id", .text "c"),
    ("data", .record [("weight", .int 1), ("note", .text "once")])]

/-- Makes a pair start at `b`, and gives it another note and a rank. -/
def startedAtB : Record Value :=
  [("data", .record [("note", .text "twice"), ("rank", .int 2)]), ("source_node_id", .text "b")]

/-- Two pairs of `a` with `b` and one of `b` with `a`, while `counter` listens. -/
def plaited : Session :=
  { afterAll 1 [.addNodes (.list [item "a", item "b", item "c"]), .addEdge (pair "ab" "a" "b"),
      .addEdge (pair "ba" "b" "a"), .addEdge (pair "ab2" "a" "b")]
      (start none plainPolicy none) with bus := watching }

/-- The pair is led from `a` and `b` over `a` and `c` to `b` and `c`, or there at once. -/
theorem plaited_updates_fuse :
    let id := Value.text "ab"
    let once := carryOut (run 3 (.update .edge id turnedToC)) plaited
    let twice := carryOut (run 3 (.update .edge id startedAtB)) once.2
    plaited.textual = true ∧ id ∈ (plaited.graph.roster .edge).ids ∧
      Entity.Regular turnedToC ∧ Entity.Regular startedAtB ∧
      Entity.fused turnedToC startedAtB =
        [("id", .text "z"), ("target_node_id", .text "c"),
          ("data", .record [("weight", .int 1), ("note", .text "twice"), ("rank", .int 2)]),
          ("source_node_id", .text "b")] ∧
      once.1.isOk = true ∧ twice.1.isOk = true ∧
      twice.2.graph.neighbors (.text "b") = [.text "a", .text "c"] ∧
      Comes 2 (.update .edge id (Entity.fused turnedToC startedAtB)) plaited twice.2.graph twice.1 ∧
      Comes 2 (.update .edge id turnedToC) once.2 once.2.graph once.1 := by
  intro id once twice
  have hmoves : Moves (start none plainPolicy none) plaited :=
    (moves_afterAll 1 _ _).tail (.listening watching _)
  have htext : plaited.textual = true := by decide +kernel
  have hid : id ∈ (plaited.graph.roster .edge).ids := List.mem_cons_self
  have hfirst : Entity.Regular turnedToC := .of_record (by decide) rfl (by decide)
  have hsecond : Entity.Regular startedAtB := .of_record (by decide) rfl (by decide)
  have hfind : ∀ fs, Entity.changedData? turnedToC = some fs → fs.Findable := by
    intro fs hfs
    obtain rfl := Option.some.inj hfs
    exact Fields.findable_ofRecord _
  have hspares : plaited.HeardBy fun _ listener => listener.Spares := by
    simp [plaited, watching, HeardBy, Bus.subscribe, Bus.empty, counter_spares]
  have honce : once.1.isOk = true := by decide +kernel
  have htwice : twice.1.isOk = true := by decide +kernel
  have hleft : ∀ changes changes' : Record Value,
      LeftAloneAlong 2 [.update .edge id changes, .update .edge id changes'] plaited := by
    refine fun changes changes' => leftAloneAlong_of_spares (fun c hc => ?_) hspares
    simp only [List.mem_cons, List.not_mem_nil, or_false] at hc
    rcases hc with rfl | rfl <;> rfl
  obtain ⟨hfused, hagain⟩ :=
    @updates_fuse 2 plaited .edge id none plainPolicy none hmoves htext hid _ _ hfirst hsecond
  exact ⟨htext, hid, hfirst, hsecond, by rfl, honce, htwice, by rfl,
    hfused honce htwice (hleft _ _) (leftAlone_of_spares hspares 2 _),
    hagain honce hfind (hleft _ _)⟩

end Session

end PropertyGraph
