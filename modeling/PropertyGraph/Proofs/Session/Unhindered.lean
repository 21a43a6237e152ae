import PropertyGraph.Proofs.Session.Refusal
import PropertyGraph.Proofs.Session.Onlookers

/-!
# Changes that listeners cannot hinder

A change of the graph is made in full before anybody is told of it.  So the graph comes out as if
nobody listened, whatever listeners do to one another and however they fail, as long as none of them
changes it; and unless one of them fails, the same comes of the command (`change_unhindered`).

`LeftAlone` says of a command that the listeners called in the course of it leave the graph alone.
They do so wherever they give no commands but to ask, to tell, and to change who listens
(`leftAlone_of_spares`).
-/

namespace PropertyGraph

/-- Whether a command is a change of the graph: of one entity and those that go with it, or of
everything. -/
def Command.changesGraph : Command → Bool
  | .clear => true
  | c => c.changesOne

mutual

/-- A program that gives only commands which spare the graph, whatever comes of them. -/
inductive Program.Spares : Program → Prop
  | done : Program.Spares .done
  | fail (f : Failure) : Program.Spares (.fail f)
  | perform {c : Command} (escapes : Bool) {next : Result Outcome → Program} :
    Command.Spares c → (∀ r, Program.Spares (next r)) → Program.Spares (.perform c escapes next)

/-- A command that asks, tells, or changes who listens; new listeners spare the graph as well. -/
inductive Command.Spares : Command → Prop
  | ask (q : Question) : Command.Spares (.ask q)
  | emit (event : String) (args : List Value) : Command.Spares (.emit event args)
  | subscribe (event : String) {listener : Listener} :
    Listener.Spares listener → Command.Spares (.subscribe event listener)
  | unsubscribeNamed (name : String) : Command.Spares (.unsubscribeNamed name)
  | unsubscribe (event : String) (token : Int) : Command.Spares (.unsubscribe event token)
  | clearListeners : Command.Spares .clearListeners

/-- A listener whose programs spare the graph. -/
inductive Listener.Spares : Listener → Prop
  | mk (name : String) {respond : Nat → List Payload → Program} :
    (∀ number payload, Program.Spares (respond number payload)) →
      Listener.Spares (.mk name respond)

end

theorem Listener.Spares.respond {listener : Listener} (h : listener.Spares) (number : Nat)
    (payload : List Payload) : (listener.respond number payload).Spares := by
  cases h with
  | mk name h => exact h number payload

namespace Session

variable {α β : Type} {inner : Command → Act Outcome}

theorem oneStep_change : ∀ c : Command, c.changesGraph = true → OneStep fun inner => step inner c
  | .clear, _ => oneStep_clear
  | .addNode v, _ => oneStep_step (.addNode v) rfl
  | .createNode type data, _ => oneStep_step (.createNode type data) rfl
  | .updateNode id changes, _ => oneStep_step (.updateNode id changes) rfl
  | .deleteNode id, _ => oneStep_step (.deleteNode id) rfl
  | .addEdge v, _ => oneStep_step (.addEdge v) rfl
  | .createEdge type source target data, _ =>
    oneStep_step (.createEdge type source target data) rfl
  | .updateEdge id changes, _ => oneStep_step (.updateEdge id changes) rfl
  | .deleteEdge id, _ => oneStep_step (.deleteEdge id) rfl
  | .deleteHeld place, _ => oneStep_step (.deleteHeld place) rfl

/-- A session with nobody listening. -/
def silenced (s : Session) : Session := { s with bus := s.bus.clear }

/-! ### Listeners that leave the graph alone -/

/-- While a new graph is put in place of the one in `s` and notices are told of it, a listener is
called to hear one of them, and the session is `u` then. -/
def CalledIn (inner : Command → Act Outcome) (g : Graph) (notices : List Notice) (s : Session)
    (n : Notice) (e : Bus.Entry Listener) (u : Session) : Prop :=
  ∃ before after v called others,
    notices = before ++ n :: after ∧ carryOut (commit inner g before) s = (.ok ⟨⟩, v) ∧
      v.bus.entriesOf n.event = called ++ e :: others ∧
        carryOut (called.forM (call inner n.payload))
          { v with history := v.history ++ [.told n.event n.payload] } = (.ok ⟨⟩, u)

/-- If an act comes down to a change of the graph, every listener that is called to hear of it
leaves the graph as it was when it was called. -/
def LeftAlone (inner : Command → Act Outcome) (a : Act α) (s : Session) : Prop :=
  ∀ s₁ g notices x, Prepared s s₁ → Graph.Step s.schema s.graph g notices →
    carryOut a s = carryOut (do commit inner g notices; return x) s₁ →
      ∀ n e u, CalledIn inner g notices s₁ n e u →
        (carryOut (call inner n.payload e) u).2.graph = u.graph

/-- The graph is the same in two sessions. -/
def SameGraph (s t : Session) : Prop := t.graph = s.graph

instance : IsPreorder Session SameGraph where
  refl _ := rfl
  trans _ _ _ h h' := Eq.trans h' h

/-- Acts that are carried out one after another lead astray by one of them, after those before it
have gone through. -/
theorem exists_of_forM_not {R : Session → Session → Prop} [IsPreorder Session R] {l : List β}
    {a : β → Act PUnit} {s : Session} (h : ¬ R s (carryOut (l.forM a) s).2) :
    ∃ before x after u, l = before ++ x :: after ∧
      carryOut (before.forM a) s = (.ok ⟨⟩, u) ∧ ¬ R u (carryOut (a x) u).2 := by
  induction l generalizing s with
  | nil => exact absurd (refl_of R s) h
  | cons x rest ih =>
    by_cases hx : R s (carryOut (a x) s).2
    · rw [carryOut_forM_cons, carryOut_bind] at h
      rcases hxs : carryOut (a x) s with ⟨f | _, u⟩
      · rw [hxs] at h hx
        exact absurd hx h
      · rw [hxs] at h hx
        obtain ⟨before, y, after, v, rfl, hbefore, hy⟩ :=
          ih (s := u) fun hrest => h (trans_of R hx hrest)
        refine ⟨x :: before, y, after, v, rfl, ?_, hy⟩
        rw [carryOut_forM_cons, carryOut_bind_ok hxs]
        exact hbefore
    · exact ⟨[], x, rest, s, rfl, rfl, hx⟩

/-- The graph that was put in place is there in the end, if the listeners leave it alone. -/
theorem graph_commit {g : Graph} {notices : List Notice} {s : Session}
    (h : ∀ n e u, CalledIn inner g notices s n e u →
      (carryOut (call inner n.payload e) u).2.graph = u.graph) :
    (carryOut (commit inner g notices) s).2.graph = g := by
  by_contra hne
  have htold : ¬ SameGraph { s with graph := g }
      (carryOut (notices.forM (tell inner)) { s with graph := g }).2 := hne
  obtain ⟨before, n, after, v, rfl, hbefore, hn⟩ := exists_of_forM_not htold
  have hcalls : ¬ SameGraph { v with history := v.history ++ [.told n.event n.payload] }
      (carryOut ((v.bus.entriesOf n.event).forM (call inner n.payload))
        { v with history := v.history ++ [.told n.event n.payload] }).2 := hn
  obtain ⟨called, e, others, u, hentries, hcalled, he⟩ := exists_of_forM_not hcalls
  exact he (h n e u ⟨before, after, v, called, others, rfl, hbefore, hentries, hcalled⟩)

/-- Whoever is called meanwhile finds the new graph in place. -/
theorem graph_of_calledIn {g : Graph} {notices : List Notice} {s : Session}
    (h : ∀ n e u, CalledIn inner g notices s n e u →
      (carryOut (call inner n.payload e) u).2.graph = u.graph) {n : Notice}
    {e : Bus.Entry Listener} {u : Session} (hu : CalledIn inner g notices s n e u) :
    u.graph = g := by
  obtain ⟨before, after, v, called, others, rfl, hbefore, hentries, hcalled⟩ := hu
  have hv : v.graph = g := by
    have hplaced : (carryOut (commit inner g before) s).2.graph = g := by
      refine graph_commit fun m f w hw => h m f w ?_
      obtain ⟨first, rest, t, those, more, rfl, hcall⟩ := hw
      exact ⟨first, rest ++ n :: after, t, those, more, by rw [List.append_assoc]; rfl, hcall⟩
    rwa [hbefore] at hplaced
  by_contra hne
  have hastray : ¬ SameGraph { v with history := v.history ++ [.told n.event n.payload] }
      (carryOut (called.forM (call inner n.payload))
        { v with history := v.history ++ [.told n.event n.payload] }).2 := by
    rw [hcalled]
    exact fun hsame => hne (Eq.trans hsame hv)
  obtain ⟨first, f, more, w, rfl, hfirst, hf⟩ := exists_of_forM_not hastray
  refine hf (h n f w ⟨before, after, v, first, more ++ e :: others, rfl, hbefore, ?_, hfirst⟩)
  rw [hentries, List.append_assoc]
  rfl

section Committed

variable {s s₁ : Session} {g : Graph} {notices : List Notice} {x : α} {a : Act α}
  (hstep : Graph.Step s.schema s.graph g notices)

include hstep

section Prepared

variable (hready : Prepared s s₁)
  (ha : carryOut a s = carryOut (do commit inner g notices; return x) s₁)

include hready ha

/-- A step that is told of once all is ready is there in the end, if the listeners leave the graph
alone. -/
theorem LeftAlone.graph_of_prepared (h : LeftAlone inner a s) : (carryOut a s).2.graph = g := by
  have hplaced := graph_commit (h s₁ g notices x hready hstep ha)
  rw [ha, carryOut_return]
  exact hplaced

/-- A step that is told of once all is ready goes through, or a listener fails. -/
theorem prepared_or_fromListener (hinner : ∀ c, Moving (inner c)) :
    (carryOut a s).1 = .ok x ∨
      ∃ f, (carryOut a s).1 = .error f ∧ FromListener inner s f (carryOut a s).2 := by
  rw [ha, carryOut_return]
  rcases htold : carryOut (commit inner g notices) s₁ with ⟨f | _, t⟩
  · exact .inr ⟨f, rfl, fromListener_of_commit hinner hstep hready htold⟩
  · exact .inl rfl

end Prepared

variable (ha : carryOut a s = carryOut (do commit inner g notices; return x) s)

include ha

/-- A step that is told of is there in the end, if the listeners leave the graph alone. -/
theorem LeftAlone.graph_of_committed (h : LeftAlone inner a s) : (carryOut a s).2.graph = g :=
  h.graph_of_prepared hstep (.refl s) ha

/-- A step that is told of goes through, or a listener fails. -/
theorem committed_or_fromListener (hinner : ∀ c, Moving (inner c)) :
    (carryOut a s).1 = .ok x ∨
      ∃ f, (carryOut a s).1 = .error f ∧ FromListener inner s f (carryOut a s).2 :=
  prepared_or_fromListener hstep (.refl s) ha hinner

end Committed

/-! ### Listeners that spare the graph -/

/-- The graph of a session is `g`, and all listeners spare it. -/
structure Spared (g : Graph) (s : Session) : Prop where
  graph : s.graph = g
  heardBy : s.HeardBy fun _ listener => listener.Spares

section Spares

variable {g : Graph} (hinner : ∀ c : Command, c.Spares → Leads (Keeps (Spared g)) (inner c))

include hinner

theorem keeps_perform (name : String) :
    ∀ p : Program, p.Spares → Leads (Keeps (Spared g)) (perform inner name p)
  | .done, _ => .pure _
  | .fail f, _ => .throw f
  | .perform c escapes next, hp => by
    cases hp with
    | perform _ hc hnext =>
      intro s hs
      have hdone := hinner c hc s hs
      unfold perform
      rw [carryOut_observe_bind]
      split
      · exact hdone
      · exact keeps_perform name (next _) (hnext _) _ ⟨hdone.graph, hdone.heardBy⟩

theorem keeps_call (payload : List Payload) {e : Bus.Entry Listener} (he : e.listener.Spares) :
    Leads (Keeps (Spared g)) (call inner payload e) := by
  intro s hs
  exact keeps_perform hinner e.listener.name _ (he.respond _ payload) _ ⟨hs.graph, hs.heardBy⟩

theorem keeps_publish (event : Event) (payload : List Payload) :
    Leads (Keeps (Spared g)) (publish inner event payload) := by
  intro s hs
  have hcalls : Leads (Keeps (Spared g))
      ((s.bus.entriesOf event).forM (call inner payload)) :=
    .forM_of_mem fun e he => keeps_call hinner payload (hs.heardBy e (List.mem_filter.1 he).1)
  exact hcalls _ ⟨hs.graph, hs.heardBy⟩

theorem keeps_tellAll (notices : List Notice) :
    Leads (Keeps (Spared g)) (notices.forM (tell inner)) :=
  .forM fun n => keeps_publish hinner n.event n.payload

theorem keeps_step {c : Command} (hc : c.Spares) : Leads (Keeps (Spared g)) (step inner c) := by
  have hfewer : ∀ (s : Session) (bus : Bus Listener), s.bus.Fewer bus →
      Keeps (Spared g) s { s with bus } :=
    fun s bus hbus hs => ⟨hs.graph, fun e he => hs.heardBy e (hbus.subset he)⟩
  cases hc with
  | ask q => exact .get_bind fun s => .settle _
  | emit event args =>
    exact .bind (.settle _) fun e => .bind (keeps_publish hinner e _) fun _ => .pure _
  | subscribe event hlistener =>
    refine .bind (.settle _) fun e => ?_
    intro s hs
    exact ⟨hs.graph, List.forall_mem_append.2 ⟨hs.heardBy, List.forall_mem_singleton.2 hlistener⟩⟩
  | unsubscribeNamed name => exact leads_unsubscribeNamed hfewer name
  | unsubscribe event token =>
    refine .bind (.settle _) fun e => ?_
    split
    · exact leads_unsubscribe hfewer _
    · exact .pure _
  | clearListeners => exact fun s => hfewer s s.bus.clear .cleared

end Spares

theorem keeps_run {g : Graph} :
    ∀ (depth : Nat) (c : Command), c.Spares → Leads (Keeps (Spared g)) (run depth c)
  | 0, _, _ => .throw _
  | depth + 1, _, hc => keeps_step (keeps_run depth) hc

/-- Listeners that spare the graph leave it alone in every session. -/
theorem leftAlone_of_spares {s : Session} (hs : s.HeardBy fun _ listener => listener.Spares)
    (depth : Nat) (a : Act α) : LeftAlone (run depth) a s := by
  rintro s₁ g notices x hready _ _ n e u ⟨before, after, v, called, others, rfl, hv, hentries, hu⟩
  have hplaced : Spared g { s₁ with graph := g } := by
    obtain ⟨made, asked, rfl⟩ := hready
    exact ⟨rfl, hs⟩
  have htold : Spared g v := (keeps_tellAll (keeps_run depth) before).rel hv hplaced
  have hentries' : ∀ e ∈ v.bus.entriesOf n.event, e.listener.Spares :=
    fun e he => htold.heardBy e (List.mem_filter.1 he).1
  rw [hentries, List.forall_mem_append, List.forall_mem_cons] at hentries'
  have hcalled : Leads (Keeps (Spared g)) (called.forM (call (run depth) n.payload)) :=
    .forM_of_mem fun e he => keeps_call (keeps_run depth) n.payload (hentries'.1 e he)
  have hu : Spared g u := hcalled.rel hu ⟨htold.graph, htold.heardBy⟩
  rw [hu.graph]
  exact (keeps_call (keeps_run depth) n.payload hentries'.2.1 u hu).graph

/-! ### Several changes -/

/-- Some changes are made one after another, and in the course of each the listeners leave the graph
alone. -/
def LeftAloneAlong (depth : Nat) : List Command → Session → Prop
  | [], _ => True
  | c :: rest, s => LeftAlone (run depth) (run (depth + 1) c) s ∧
      LeftAloneAlong depth rest (carryOut (run (depth + 1) c) s).2

theorem leftAloneAlong_append (depth : Nat) (before after : List Command) (s : Session) :
    LeftAloneAlong depth (before ++ after) s ↔
      LeftAloneAlong depth before s ∧
        LeftAloneAlong depth after (afterAll (depth + 1) before s) := by
  induction before generalizing s with
  | nil => exact (and_iff_right trivial).symm
  | cons c rest ih => exact (and_congr_right fun _ => ih _).trans and_assoc.symm

/-- A change leaves only listeners that spare the graph, if there were no others. -/
theorem keeps_spares_change {depth : Nat} {c : Command} (hc : c.changesGraph = true) :
    Leads (Keeps fun s => s.HeardBy fun _ listener => listener.Spares) (run (depth + 1) c) := by
  have hone : OneStep fun inner => step inner c := oneStep_change c hc
  refine hone.single.leads (fun s t hready hs => ?_) fun s g notices _ hs => ?_
  · obtain ⟨made, asked, rfl⟩ := hready
    exact hs
  · exact (keeps_tellAll (keeps_run depth) notices { s with graph := g } ⟨rfl, hs⟩).heardBy

theorem leftAloneAlong_of_spares {depth : Nat} {cs : List Command} {s : Session}
    (hcs : ∀ c ∈ cs, c.changesGraph = true)
    (hs : s.HeardBy fun _ listener => listener.Spares) : LeftAloneAlong depth cs s := by
  induction cs generalizing s with
  | nil => trivial
  | cons c rest ih =>
    rw [List.forall_mem_cons] at hcs
    exact ⟨leftAlone_of_spares hs depth _, ih hcs.2 (keeps_spares_change hcs.1 s hs)⟩

/-! ### Changes -/

/-- Where nobody listens, the deletion of a node that is there leaves neither it nor its edges. -/
theorem deleted_of_silent (inner : Command → Act Outcome) (id : Value) {s : Session}
    (hs : s.bus.entries = []) (hnode : s.graph.hasNode id = true) :
    (∀ n ∈ (carryOut (deleteNode inner id) s).2.graph.nodes, n.id.sameKey id = false) ∧
      ∀ e ∈ (carryOut (deleteNode inner id) s).2.graph.edges, Graph.touches e id = false := by
  unfold deleteNode Graph.deleteNode
  rw [carryOut_get_bind, if_pos hnode]
  show (∀ n ∈ (carryOut (do commit inner _ _; return Outcome.flag true) s).2.graph.nodes, _) ∧ _
  rw [carryOut_return, carryOut_commit_silent _ _ hs]
  refine ⟨fun n hn => ?_, fun e he => ?_⟩
  · simpa using (List.mem_filter.1 hn).2
  · simpa using (List.mem_filter.1 he).2

/-- What takes one step comes out as if nobody listened, if the listeners that are called leave the
graph alone; only that a listener may fail. -/
theorem OneStep.as_silenced {a : (Command → Act Outcome) → Act α} (ha : OneStep a)
    (hinner : ∀ c, Moving (inner c)) {s : Session} (hleft : LeftAlone inner (a inner) s) :
    (carryOut (a inner) s).2.graph = (carryOut (a inner) s.silenced).2.graph ∧
      ((carryOut (a inner) s).1 = (carryOut (a inner) s.silenced).1 ∨
        ∃ f, (carryOut (a inner) s).1 = .error f ∧
          FromListener inner s f (carryOut (a inner) s).2) := by
  obtain ⟨s₁, hready, ⟨r, hr⟩ | ⟨g, notices, x, hstep, hcommit⟩⟩ := ha s
  · have hheard : carryOut (a inner) s = (r, { s₁ with bus := s.bus }) := hr inner s.bus
    have hsilent : carryOut (a inner) s.silenced = (r, { s₁ with bus := s.bus.clear }) :=
      hr inner s.bus.clear
    rw [hheard, hsilent]
    exact ⟨rfl, .inl rfl⟩
  · have hheard : carryOut (a inner) s = carryOut (do commit inner g notices; return x) s₁ := by
      rw [← hready.with_bus]
      exact hcommit inner s.bus
    have hsilent : carryOut (a inner) s.silenced =
        carryOut (do commit inner g notices; return x) { s₁ with bus := s.bus.clear } :=
      hcommit inner s.bus.clear
    have hplaced : (carryOut (commit inner g notices) s₁).2.graph = g :=
      graph_commit (hleft s₁ g notices x hready hstep hheard)
    rw [hsilent, carryOut_return, carryOut_commit_silent g notices rfl, hheard, carryOut_return]
    refine ⟨hplaced, ?_⟩
    rcases htold : carryOut (commit inner g notices) s₁ with ⟨f | _, t⟩
    · exact .inr ⟨f, rfl, fromListener_of_commit hinner hstep hready htold⟩
    · exact .inl rfl

/-- A change of the graph comes out as if nobody listened, if the listeners that are called leave
the graph alone: the graph is the same in the end, with all its orders, and so is what comes of the
command, unless a listener fails.  A node that is deleted is gone then with all its edges. -/
theorem change_unhindered {depth : Nat} {c : Command} {s : Session} (hc : c.changesGraph = true)
    (hleft : LeftAlone (run depth) (run (depth + 1) c) s) :
    (carryOut (run (depth + 1) c) s).2.graph = (carryOut (run (depth + 1) c) s.silenced).2.graph ∧
      ((carryOut (run (depth + 1) c) s).1 = (carryOut (run (depth + 1) c) s.silenced).1 ∨
        ∃ f, (carryOut (run (depth + 1) c) s).1 = .error f ∧
          FromListener (run depth) s f (carryOut (run (depth + 1) c) s).2) ∧
      ∀ id, c = .deleteNode id → s.graph.hasNode id = true →
        (∀ n ∈ (carryOut (run (depth + 1) c) s).2.graph.nodes, n.id.sameKey id = false) ∧
          ∀ e ∈ (carryOut (run (depth + 1) c) s).2.graph.edges, Graph.touches e id = false := by
  have hone : OneStep fun inner => step inner c := oneStep_change c hc
  obtain ⟨hgraph, hresult⟩ := hone.as_silenced (moving_run depth) hleft
  refine ⟨hgraph, hresult, ?_⟩
  rintro id rfl hnode
  have hdeleted := deleted_of_silent (run depth) id (s := s.silenced) rfl hnode
  exact hgraph ▸ hdeleted

/-- When it is first called, this makes `counter` listen in its place, and fails. -/
def quitter : Listener :=
  .ofSteps "quitter" 1 [.give (.subscribe "node:delete" counter) false,
    .give (.unsubscribeNamed "quitter") true, .fail (.unavailable "quit")]

theorem counter_spares : counter.Spares :=
  .mk _ fun _ _ => .perform false (.ask .counts) fun _ => .done

theorem quitter_spares : quitter.Spares := by
  refine .mk _ fun number _ => ?_
  split
  · exact .perform false (.subscribe _ counter_spares) fun _ =>
      .perform true (.unsubscribeNamed _) fun _ => .fail _
  · exact .done

/-- Two items with a pair and a loop, while `quitter` listens to what is deleted. -/
def quitted : Session :=
  { afterAll 1 [.addNodes (.list [item "a", item "b"]), .addEdge (pair "ab" "a" "b"),
      .addEdge (pair "aa" "a" "a")] (start none plainPolicy none) with
    bus := (Bus.empty.subscribe .edgeDeleted quitter).2 }

/-- The listener fails at the first of the two edges, and yet the item is gone with both of them. -/
theorem quitted_deleteNode_unhindered :
    (Command.deleteNode (.text "a")).changesGraph = true ∧
      LeftAlone (run 2) (run 3 (.deleteNode (.text "a"))) quitted ∧
      quitted.graph.edges.length = 2 ∧
      (carryOut (run 3 (.deleteNode (.text "a"))) quitted).1.isOk = false ∧
      (carryOut (run 3 (.deleteNode (.text "a"))) quitted).2.tellings = quitted.tellings + 1 ∧
      (carryOut (run 3 (.deleteNode (.text "a"))) quitted).2.graph =
        (carryOut (run 3 (.deleteNode (.text "a"))) quitted.silenced).2.graph ∧
      (∀ n ∈ (carryOut (run 3 (.deleteNode (.text "a"))) quitted).2.graph.nodes,
        n.id.sameKey (.text "a") = false) ∧
      ∀ e ∈ (carryOut (run 3 (.deleteNode (.text "a"))) quitted).2.graph.edges,
        Graph.touches e (.text "a") = false :=
  have hquitter : quitted.HeardBy fun _ listener => listener.Spares := by
    simp [quitted, HeardBy, Bus.subscribe, Bus.empty, quitter_spares]
  have hleft : LeftAlone (run 2) (run 3 (.deleteNode (.text "a"))) quitted :=
    leftAlone_of_spares hquitter 2 _
  have hunhindered := change_unhindered (c := .deleteNode (.text "a")) rfl hleft
  ⟨rfl, hleft, by decide +kernel, by decide +kernel, by decide +kernel, hunhindered.1,
    hunhindered.2.2 _ rfl (by decide +kernel)⟩

end Session

end PropertyGraph
