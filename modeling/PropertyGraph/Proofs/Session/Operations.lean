import PropertyGraph.Proofs.Session.Moves

/-!
# What the operations do to a session

An operation on one entity makes ready first: it may count a new entity and ask for a vector.  Then
it either stops, or takes one step of the graph and tells of it; after the step nothing can stop it
but the listeners.  `SingleStep` says this of an act, and there is a lemma of it for each operation.
The other commands are made of such operations, so that every run is made of moves (`moving_run`).
-/

namespace PropertyGraph

namespace Bus

variable {α : Type} {b b' : Bus α}

/-- A bus comes about from another one by ending a subscription, or by ending all of them. -/
inductive Fewer (b : Bus α) : Bus α → Prop
  | unsubscribed (s : Subscription) : Fewer b (b.unsubscribe s).2
  | cleared : Fewer b b.clear

theorem Fewer.subset (h : b.Fewer b') : b'.entries ⊆ b.entries := by
  cases h with
  | unsubscribed s => exact List.eraseP_subset
  | cleared => exact List.nil_subset _

end Bus

namespace Session

variable {α β : Type} {inner : Command → Act Outcome}

/-! ### Making ready -/

/-- A session differs from an earlier one at most in what was made ready. -/
def Prepared (s t : Session) : Prop :=
  ∃ (made : Nat) (asked : List String),
    t = { s with made, history := s.history ++ asked.map .embedded }

theorem Prepared.refl (s : Session) : Prepared s s :=
  ⟨s.made, [], by rw [List.map_nil, List.append_nil]⟩

theorem Prepared.trans {s t u : Session} (h : Prepared s t) (h' : Prepared t u) : Prepared s u := by
  obtain ⟨made, asked, rfl⟩ := h
  obtain ⟨made', asked', rfl⟩ := h'
  exact ⟨made', asked ++ asked', by rw [List.map_append, ← List.append_assoc]⟩

theorem Moves.of_asked (asked : List String) (s : Session) :
    Moves s { s with history := s.history ++ asked.map .embedded } := by
  induction asked generalizing s with
  | nil => rw [List.map_nil, List.append_nil]
  | cons text rest ih =>
    have hfirst : Move s { s with history := s.history ++ [.embedded text] } := .noted nofun
    have hrest := ih { s with history := s.history ++ [.embedded text] }
    rw [List.append_assoc] at hrest
    exact hrest.head hfirst

theorem Prepared.moves {s t : Session} (h : Prepared s t) : Moves s t := by
  obtain ⟨made, asked, rfl⟩ := h
  exact (Moves.of_asked asked { s with made }).head (.counted made)

/-- Who listens stays the same. -/
theorem Prepared.with_bus {s t : Session} (h : Prepared s t) : { t with bus := s.bus } = t := by
  obtain ⟨made, asked, rfl⟩ := h
  rfl

instance : IsPreorder Session Prepared where
  refl := Prepared.refl
  trans _ _ _ := Prepared.trans

/-- An act that only makes ready, and does so in the same way whoever listens. -/
def Unheard (a : Act α) : Prop :=
  ∀ s, ∃ r t, Prepared s t ∧ ∀ bus, carryOut a { s with bus } = (r, { t with bus })

namespace Unheard

theorem pure (x : α) : Unheard (Pure.pure x) := fun s => ⟨.ok x, s, .refl s, fun _ => rfl⟩

theorem throw (f : Failure) : Unheard (MonadExcept.throw f : Act α) :=
  fun s => ⟨.error f, s, .refl s, fun _ => rfl⟩

theorem settle (r : Result α) : Unheard (Session.settle r) :=
  fun s => ⟨r, s, .refl s, fun _ => rfl⟩

theorem bind {a : Act α} {k : α → Act β} (ha : Unheard a) (hk : ∀ x, Unheard (k x)) :
    Unheard (a >>= k) := by
  intro s
  obtain ⟨(f | x), t, hready, ht⟩ := ha s
  · exact ⟨.error f, t, hready, fun bus => by rw [carryOut_bind, ht]⟩
  · obtain ⟨r, u, hready', hu⟩ := hk x t
    refine ⟨r, u, hready.trans hready', fun bus => ?_⟩
    rw [carryOut_bind_ok (ht bus)]
    exact hu bus

/-- What is done may hang on the session, so long as it does not hang on who listens. -/
theorem get_bind {k : Session → Act α} (hbus : ∀ s bus, k { s with bus } = k s)
    (hk : ∀ s, Unheard (k s)) : Unheard (get >>= k) := by
  intro s
  obtain ⟨r, t, hready, ht⟩ := hk s s
  refine ⟨r, t, hready, fun bus => ?_⟩
  rw [carryOut_get_bind, hbus]
  exact ht bus

end Unheard

theorem unheard_stamp : Unheard stamp := by
  intro s
  obtain ⟨r, t, hready, ht⟩ : ∃ r t, Prepared { s with made := s.made + 1 } t ∧ ∀ bus,
      carryOut (do let time ← settle (clockText (s.made + 1))
                   return (Value.text (freshId (s.made + 1)), Value.text time))
        { s with made := s.made + 1, bus } = (r, { t with bus }) :=
    Unheard.bind (.settle _) (fun _ => .pure _) _
  have hcounted : Prepared s { s with made := s.made + 1 } :=
    ⟨s.made + 1, [], by rw [List.map_nil, List.append_nil]⟩
  refine ⟨r, t, hcounted.trans hready, fun bus => ?_⟩
  unfold stamp
  rw [carryOut_get_bind, carryOut_modify_bind]
  exact ht bus

theorem unheard_askVector (provider : Provider) (text : String) :
    Unheard (askVector provider text) :=
  fun s => ⟨.ok (provider s.embeddings text),
    { s with history := s.history ++ [.embedded text] }, ⟨s.made, [text], rfl⟩, fun _ => rfl⟩

theorem unheard_embed (provider : Provider) (n : Node) : Unheard (embed provider n) := by
  refine .bind (.settle _) fun text => .bind (unheard_askVector provider text) fun r => ?_
  cases r with
  | ok v => exact .bind (.settle _) fun _ => .pure _
  | error f =>
    refine .get_bind (fun _ _ => rfl) fun s => ?_
    split
    · exact .throw f
    · exact .pure n

theorem unheard_withVector (n : Node) : Unheard (withVector n) := by
  refine .get_bind (fun _ _ => rfl) fun s => ?_
  split
  · split
    · exact unheard_embed _ n
    · exact .pure n
  · exact .pure n

theorem unheard_freshNode (type data : Value) : Unheard (freshNode type data) :=
  .bind unheard_stamp fun _ => .bind (.settle _) fun _ => .pure _

theorem unheard_freshEdge (type source target data : Value) :
    Unheard (freshEdge type source target data) :=
  .bind unheard_stamp fun _ => .bind (.settle _) fun _ => .pure _

/-! ### Single steps -/

/-- An act that makes ready, and then either stops or takes one step of the graph, tells of it and
gives something. -/
def SingleStep (inner : Command → Act Outcome) (a : Act α) : Prop :=
  ∀ s, ∃ s₁, Prepared s s₁ ∧
    ((∃ r, carryOut a s = (r, s₁)) ∨
      ∃ g notices x, Graph.Step s.schema s.graph g notices ∧
        carryOut a s = carryOut (do commit inner g notices; return x) s₁)

/-- Where a single step leads, if making ready leads there, and so does telling of a step. -/
theorem SingleStep.leads {R : Session → Session → Prop} [IsPreorder Session R] {a : Act α}
    (ha : SingleStep inner a) (hready : ∀ s t, Prepared s t → R s t)
    (hcommit : ∀ s g notices, Graph.Step s.schema s.graph g notices →
      R s (carryOut (commit inner g notices) s).2) : Leads R a := by
  intro s
  obtain ⟨s₁, hs₁, ⟨r, hr⟩ | ⟨g, notices, x, hstep, htold⟩⟩ := ha s
  · rw [hr]
    exact hready s s₁ hs₁
  · rw [htold, carryOut_return]
    refine trans_of R (hready s s₁ hs₁) (hcommit s₁ g notices ?_)
    obtain ⟨made, asked, rfl⟩ := hs₁
    exact hstep

theorem SingleStep.moving {a : Act α} (ha : SingleStep inner a) (h : ∀ c, Moving (inner c)) :
    Moving a :=
  ha.leads (fun _ _ => Prepared.moves) fun _ _ _ => moves_commit h

/-- An operation takes a single step, and neither those who listen nor whoever carries out their
commands have a say in which one. -/
def OneStep (a : (Command → Act Outcome) → Act α) : Prop :=
  ∀ s, ∃ s₁, Prepared s s₁ ∧
    ((∃ r, ∀ inner bus, carryOut (a inner) { s with bus } = (r, { s₁ with bus })) ∨
      ∃ g notices x, Graph.Step s.schema s.graph g notices ∧ ∀ inner bus,
        carryOut (a inner) { s with bus } =
          carryOut (do commit inner g notices; return x) { s₁ with bus })

namespace OneStep

/-- Something may be made ready beforehand. -/
theorem prepare {a : Act α} {k : α → (Command → Act Outcome) → Act β} (ha : Unheard a)
    (hk : ∀ x, OneStep (k x)) : OneStep fun inner => a >>= fun x => k x inner := by
  intro s
  obtain ⟨(f | x), t, hready, ht⟩ := ha s
  · exact ⟨t, hready, .inl ⟨.error f, fun inner bus => by rw [carryOut_bind, ht]⟩⟩
  · obtain ⟨s₁, hready', hrest⟩ := hk x t
    -- neither the schema nor the graph is changed meanwhile, so that the step is one from here
    obtain ⟨made, asked, rfl⟩ := id hready
    refine ⟨s₁, hready.trans hready', ?_⟩
    refine hrest.imp (fun ⟨r, hr⟩ => ⟨r, fun inner bus => ?_⟩)
      fun ⟨g, notices, y, hstep, hcommit⟩ => ⟨g, notices, y, hstep, fun inner bus => ?_⟩
    · rw [carryOut_bind_ok (ht bus)]
      exact hr inner bus
    · rw [carryOut_bind_ok (ht bus)]
      exact hcommit inner bus

/-- What is given may be changed afterwards. -/
theorem andReturn {a : (Command → Act Outcome) → Act α} (ha : OneStep a) (h : α → β) :
    OneStep fun inner => (do let x ← a inner; return h x) := by
  intro s
  obtain ⟨s₁, hready, ⟨r, hr⟩ | ⟨g, notices, x, hstep, hcommit⟩⟩ := ha s
  · exact ⟨s₁, hready, .inl ⟨r.map h, fun inner bus => by rw [carryOut_return, hr]⟩⟩
  · refine ⟨s₁, hready, .inr ⟨g, notices, h x, hstep, fun inner bus => ?_⟩⟩
    rw [carryOut_return, hcommit, carryOut_return, carryOut_return]
    cases (carryOut (commit inner g notices) { s₁ with bus }).1 <;> rfl

/-- Nothing need be made ready. -/
theorem of_step {a : (Command → Act Outcome) → Act α}
    (h : ∀ s : Session,
      (∃ r, ∀ inner bus, carryOut (a inner) { s with bus } = (r, { s with bus })) ∨
      ∃ g notices x, Graph.Step s.schema s.graph g notices ∧ ∀ inner bus,
        carryOut (a inner) { s with bus } =
          carryOut (do commit inner g notices; return x) { s with bus }) : OneStep a :=
  fun s => ⟨s, .refl s, h s⟩

theorem single {a : (Command → Act Outcome) → Act α} (ha : OneStep a) :
    SingleStep inner (a inner) := by
  intro s
  obtain ⟨s₁, hready, h⟩ := ha s
  refine ⟨s₁, hready, h.imp (fun ⟨r, hr⟩ => ⟨r, ?_⟩)
    fun ⟨g, notices, x, hstep, hcommit⟩ => ⟨g, notices, x, hstep, ?_⟩⟩
  · exact (hr inner s.bus).trans (by rw [hready.with_bus])
  · exact (hcommit inner s.bus).trans (by rw [hready.with_bus])

end OneStep

/-! ### The operations -/

theorem oneStep_addNode (n : Node) : OneStep fun inner => addNode inner n := by
  refine .of_step fun s => ?_
  unfold addNode
  simp only [carryOut_get_bind, carryOut_settle_bind]
  cases hg : s.graph.addNode s.schema n with
  | error f => exact .inl ⟨.error f, fun _ _ => rfl⟩
  | ok g => exact .inr ⟨g, _, ⟨⟩, .nodeAdded hg, fun _ _ => by rw [bind_pure]⟩

theorem oneStep_updateNode (id changes : Value) :
    OneStep fun inner => updateNode inner id changes := by
  refine .of_step fun s => ?_
  unfold updateNode
  simp only [carryOut_get_bind, carryOut_settle_bind]
  rcases hg : s.graph.updateNode s.schema id changes with f | _ | ⟨g, n, given⟩
  · exact .inl ⟨.error f, fun _ _ => rfl⟩
  · exact .inl ⟨.ok (.node none), fun _ _ => rfl⟩
  · exact .inr ⟨g, _, .node (some n), .nodeUpdated hg, fun _ _ => rfl⟩

theorem oneStep_deleteNode (id : Value) : OneStep fun inner => deleteNode inner id := by
  refine .of_step fun s => ?_
  unfold deleteNode
  simp only [carryOut_get_bind]
  rcases hg : s.graph.deleteNode id with _ | ⟨g, edges⟩
  · exact .inl ⟨.ok (.flag false), fun _ _ => rfl⟩
  · exact .inr ⟨g, _, .flag true, .nodeDeleted hg, fun _ _ => rfl⟩

theorem oneStep_addEdge (e : Edge) : OneStep fun inner => addEdge inner e := by
  refine .of_step fun s => ?_
  unfold addEdge
  simp only [carryOut_get_bind, carryOut_settle_bind]
  cases hg : s.graph.addEdge s.schema e with
  | error f => exact .inl ⟨.error f, fun _ _ => rfl⟩
  | ok g => exact .inr ⟨g, _, ⟨⟩, .edgeAdded hg, fun _ _ => by rw [bind_pure]⟩

theorem oneStep_updateEdge (id changes : Value) :
    OneStep fun inner => updateEdge inner id changes := by
  refine .of_step fun s => ?_
  unfold updateEdge
  simp only [carryOut_get_bind, carryOut_settle_bind]
  rcases hg : s.graph.updateEdge s.schema id changes with f | _ | ⟨g, e, given⟩
  · exact .inl ⟨.error f, fun _ _ => rfl⟩
  · exact .inl ⟨.ok (.edge none), fun _ _ => rfl⟩
  · exact .inr ⟨g, _, .edge (some e), .edgeUpdated hg, fun _ _ => rfl⟩

theorem oneStep_deleteEdge (id : Value) : OneStep fun inner => deleteEdge inner id := by
  refine .of_step fun s => ?_
  unfold deleteEdge
  simp only [carryOut_get_bind, carryOut_settle_bind]
  rcases hg : s.graph.deleteEdge id with f | _ | g
  · exact .inl ⟨.error f, fun _ _ => rfl⟩
  · exact .inl ⟨.ok (.flag false), fun _ _ => rfl⟩
  · exact .inr ⟨g, _, .flag true, .edgeDeleted hg, fun _ _ => rfl⟩

theorem oneStep_deleteHeld (place : Nat) : OneStep fun inner => deleteHeld inner place := by
  refine .of_step fun s => ?_
  unfold deleteHeld
  simp only [carryOut_get_bind]
  rcases hg : s.graph.deleteHeld place with _ | ⟨g, id⟩
  · exact .inl ⟨.ok (.flag false), fun _ _ => rfl⟩
  · exact .inr ⟨g, _, .flag true, .heldDeleted hg, fun _ _ => rfl⟩

theorem oneStep_createNode (type data : Value) :
    OneStep fun inner => createNode inner type data :=
  .prepare (unheard_freshNode type data) fun n =>
    .prepare (unheard_withVector n) fun m => (oneStep_addNode m).andReturn fun _ => _

theorem oneStep_createEdge (type source target data : Value) :
    OneStep fun inner => createEdge inner type source target data :=
  .prepare (unheard_freshEdge type source target data) fun e =>
    (oneStep_addEdge e).andReturn fun _ => _

theorem oneStep_loadNode (v : Value) : OneStep fun inner => loadNode inner v :=
  .prepare (.settle _) oneStep_addNode

theorem oneStep_loadEdge (v : Value) : OneStep fun inner => loadEdge inner v :=
  .prepare (.settle _) oneStep_addEdge

theorem oneStep_clear :
    OneStep fun inner => (do commit inner .empty [.cleared]; return Outcome.nothing) :=
  .of_step fun _ => .inr ⟨.empty, _, .nothing, .cleared, fun _ _ => rfl⟩

/-! ### Commands -/

/-- Where the loading of a document leads, if the loading of a node leads there, and that of an
edge. -/
theorem leads_load {R : Session → Session → Prop} [IsPreorder Session R]
    (hnode : ∀ v, Leads R (loadNode inner v)) (hedge : ∀ v, Leads R (loadEdge inner v))
    (document : Value) : Leads R (load inner document) := by
  refine .bind (.settle _) fun document => .bind (.settle _) fun nodes => ?_
  refine .bind (.forM hnode) fun _ => .bind (.settle _) fun edges => ?_
  exact .forM hedge

section Commands

variable {R : Session → Session → Prop}
  (hfewer : ∀ (s : Session) (bus : Bus Listener), s.bus.Fewer bus → R s { s with bus })

include hfewer

theorem leads_unsubscribe (subscription : Subscription) : Leads R (unsubscribe subscription) :=
  fun s => hfewer s (s.bus.unsubscribe subscription).2 (.unsubscribed subscription)

variable [IsPreorder Session R]

theorem leads_unsubscribeNamed (name : String) : Leads R (unsubscribeNamed name) := by
  refine .get_bind fun s => ?_
  split
  · exact leads_unsubscribe hfewer _
  · exact .throw _

variable (hsingle : ∀ {α : Type} {a : Act α}, SingleStep inner a → Leads R a)

include hsingle

/-- Where a command leads, if single steps lead there, if it may be that fewer listen, and if new
listeners and what is told without a change lead there too. -/
theorem leads_step {c : Command}
    (hsubscribe : ∀ event listener, c = .subscribe event listener →
      Leads R (subscribe event listener))
    (hemit : ∀ event args, c = .emit event args →
      ∀ e, Leads R (publish inner e (args.map .value))) :
    Leads R (step inner c) := by
  cases c with
  | ask q => exact .get_bind fun s => .settle _
  | addNode v => exact .bind (hsingle (oneStep_loadNode v).single) fun _ => .pure _
  | createNode type data => exact hsingle (oneStep_createNode type data).single
  | updateNode id changes => exact hsingle (oneStep_updateNode id changes).single
  | deleteNode id => exact hsingle (oneStep_deleteNode id).single
  | addEdge v => exact .bind (hsingle (oneStep_loadEdge v).single) fun _ => .pure _
  | createEdge type source target data =>
    exact hsingle (oneStep_createEdge type source target data).single
  | updateEdge id changes => exact hsingle (oneStep_updateEdge id changes).single
  | deleteEdge id => exact hsingle (oneStep_deleteEdge id).single
  | deleteHeld place => exact hsingle (oneStep_deleteHeld place).single
  | addNodes v =>
    refine .bind (.settle _) fun items => .bind (.forM fun v => ?_) fun _ => .pure _
    exact hsingle (oneStep_loadNode v).single
  | addEdges v =>
    refine .bind (.settle _) fun items => .bind (.forM fun v => ?_) fun _ => .pure _
    exact hsingle (oneStep_loadEdge v).single
  | load document =>
    refine .bind (leads_load (fun v => ?_) (fun v => ?_) document) fun _ => .pure _
    · exact hsingle (oneStep_loadNode v).single
    · exact hsingle (oneStep_loadEdge v).single
  | clear => exact hsingle oneStep_clear.single
  | subscribe event listener => exact hsubscribe event listener rfl
  | unsubscribeNamed name => exact leads_unsubscribeNamed hfewer name
  | unsubscribe event token =>
    refine .bind (.settle _) fun e => ?_
    split
    · exact leads_unsubscribe hfewer _
    · exact .pure _
  | emit event args =>
    exact .bind (.settle _) fun e => .bind (hemit event args rfl e) fun _ => .pure _
  | clearListeners => exact fun s => hfewer s s.bus.clear .cleared

end Commands

/-! ### Runs -/

theorem moving_subscribe (event : String) (listener : Listener) :
    Moving (subscribe event listener) := by
  refine .bind (.settle _) fun e => ?_
  intro s
  exact .single (.listening (s.bus.subscribe e listener).2 _)

/-- A command does nothing but move, if those of the listeners do. -/
theorem moving_step (h : ∀ c, Moving (inner c)) (c : Command) : Moving (step inner c) :=
  leads_step (fun s bus _ => .single (.listening bus s.latest)) (fun ha => ha.moving h)
    (fun event listener _ => moving_subscribe event listener)
    (fun _ _ _ e => moving_publish h e _)

/-- Every command does nothing but move, however deep the commands of listeners nest. -/
theorem moving_run : ∀ (depth : Nat) (c : Command), Moving (run depth c)
  | 0, _ => .throw _
  | depth + 1, c => moving_step (moving_run depth) c

end Session

end PropertyGraph
