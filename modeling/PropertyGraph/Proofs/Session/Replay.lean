import PropertyGraph.Proofs.Session.Onlookers

/-!
# Replaying what is told

Somebody who keeps a mirror of a graph needs nothing but what is told of it: from the start on,
while only onlookers listen, a mirror that hears all that was told can always follow, and holds just
the nodes and the edges that are there, in the same order (`replay_emitted`).

The invariant is `FollowsIn`.  A single step of the graph keeps it, because its notices are told
completely and each of them fits the mirror (`Graph.Step.replay`); all commands are made of such
steps, whether they succeed or fail.
-/

namespace PropertyGraph

/-- Whether a command lets only listeners listen that are as `L` says, and tells nothing that did
not happen. -/
def Command.Permitted (L : Event → Listener → Prop) : Command → Prop
  | .subscribe event listener => ∀ e, Event.ofName event = .ok e → L e listener
  | .emit _ _ => False
  | _ => True

namespace Session

variable {L : Event → Listener → Prop} {α : Type}

/-- What each of some commands keeps, all of them keep. -/
theorem keeps_afterAll {P : Session → Prop} {depth : Nat} {cs : List Command}
    (hcs : ∀ c ∈ cs, Leads (Keeps P) (run depth c)) (s : Session) :
    Keeps P s (afterAll depth cs s) := by
  induction cs generalizing s with
  | nil => exact id
  | cons c rest ih =>
    rw [List.forall_mem_cons] at hcs
    exact ih hcs.2 _ ∘ hcs.1 s

theorem Prepared.emitted_eq {s t : Session} (h : Prepared s t) : t.emitted = s.emitted := by
  obtain ⟨made, asked, rfl⟩ := h
  have hasked : (asked.map Occurrence.embedded).filterMap Occurrence.telling? = [] := by
    rw [List.filterMap_map, List.filterMap_eq_nil_iff]
    exact fun _ _ => rfl
  rw [emitted, List.filterMap_append, hasked, List.append_nil]
  rfl

/-- Listeners are as `L` says, and a mirror that hears all that was told holds what is there. -/
structure InStep (L : Event → Listener → Prop) (s : Session) : Prop where
  heardBy : s.HeardBy L
  replay : Mirror.empty.replay? s.emitted = some s.graph.mirror

namespace InStep

variable {s t : Session}

theorem prepared (h : InStep L s) (hready : Prepared s t) : InStep L t := by
  have hemitted := hready.emitted_eq
  obtain ⟨made, asked, rfl⟩ := hready
  exact ⟨h.heardBy, hemitted ▸ h.replay⟩

/-- When a step of a valid graph is told of, the mirror takes it too. -/
theorem told (h : InStep L s) {g : Graph} {notices : List Notice}
    (hstep : Graph.Step s.schema s.graph g notices) (hvalid : Graph.Valid s.schema s.graph)
    (htold : Told L notices { s with graph := g } t) : InStep L t where
  heardBy := htold.heardBy
  replay := calc
    Mirror.empty.replay? t.emitted
      = (Mirror.empty.replay? s.emitted).bind fun m =>
          m.replay? (notices.map Notice.telling) := by
        rw [htold.emitted, Mirror.replay?_append]
        rfl
    _ = s.graph.mirror.replay? (notices.map Notice.telling) := by
        rw [h.replay, Option.bind_some]
    _ = some g.mirror := hstep.replay hvalid
    _ = some t.graph.mirror := by rw [htold.graph]

end InStep

/-! ### What every command keeps -/

/-- A session comes about by moves, and it is in step if it is one of those that a run with the
occurrences of `log` goes through. -/
def FollowsIn (start : Session) (L : Event → Listener → Prop) (log : List Occurrence)
    (s : Session) : Prop :=
  Moves start s ∧ (s.history <+: log → InStep L s)

section Commands

variable {start : Session} {depth : Nat} {log : List Occurrence}

namespace FollowsIn

variable {s t : Session}

theorem prepared (h : FollowsIn start L log s) (hready : Prepared s t) :
    FollowsIn start L log t := by
  have hmoves := hready.moves
  refine ⟨h.1.trans hmoves, fun hlog => ?_⟩
  exact (h.2 (hmoves.keeps_history.trans hlog)).prepared hready

/-- Others may listen, so long as they are as `L` says. -/
theorem listening (h : FollowsIn start L log s) {bus : Bus Listener}
    (hbus : s.HeardBy L → ∀ e ∈ bus.entries, L e.subscription.event e.listener)
    (latest : Record Subscription) : FollowsIn start L log { s with bus, latest } := by
  refine ⟨h.1.tail (.listening bus latest), fun hlog => ?_⟩
  obtain ⟨hheard, hreplay⟩ := h.2 hlog
  exact ⟨hbus hheard, hreplay⟩

theorem commit (h : FollowsIn start L log s) (hstart : start.ShowsValid)
    (htext : log.all Occurrence.textual = true) (hL : Onlookers start depth L log) {g : Graph}
    {notices : List Notice} (hstep : Graph.Step s.schema s.graph g notices) :
    FollowsIn start L log (carryOut (commit (run depth) g notices) s).2 := by
  have hmoves := moves_commit (moving_run depth) hstep
  refine ⟨h.1.trans hmoves, fun hlog => ?_⟩
  have hlogged := hmoves.keeps_history.trans hlog
  have hinStep := h.2 hlogged
  -- the run adds nothing but entities with texts, so that the graph before the step is valid
  have htextual : s.textual = true :=
    List.all_eq_true.2 fun o ho => List.all_eq_true.1 htext o (hlogged.subset ho)
  have hvalid : Graph.Valid s.schema s.graph :=
    h.1.showsValid hstart htextual s.graph List.mem_cons_self
  obtain ⟨t, ht, htold⟩ := hL.commit h.1 hinStep.heardBy hstep hlog
  rw [ht]
  exact hinStep.told hstep hvalid htold

end FollowsIn

theorem SingleStep.keeps_followsIn (hstart : start.ShowsValid)
    (htext : log.all Occurrence.textual = true) (hL : Onlookers start depth L log) {a : Act α}
    (ha : SingleStep (run depth) a) : Leads (Keeps (FollowsIn start L log)) a := by
  intro s hs
  obtain ⟨s₁, hready, ⟨r, hr⟩ | ⟨g, notices, x, hstep, hcommit⟩⟩ := ha s
  · rw [hr]
    exact hs.prepared hready
  · have hs₁ := hs.prepared hready
    rw [hcommit, carryOut_return]
    obtain ⟨made, asked, rfl⟩ := hready
    exact hs₁.commit hstart htext hL hstep

theorem keeps_followsIn_subscribe {event : String} {listener : Listener}
    (h : ∀ e, Event.ofName event = .ok e → L e listener) :
    Leads (Keeps (FollowsIn start L log)) (subscribe event listener) := by
  intro s hs
  unfold subscribe
  rw [carryOut_settle_bind]
  cases he : Event.ofName event with
  | error f => exact hs
  | ok e =>
    refine hs.listening (fun hheard => ?_) _
    exact List.forall_mem_append.2 ⟨hheard, List.forall_mem_singleton.2 (h e he)⟩

theorem keeps_followsIn_run (hstart : start.ShowsValid)
    (htext : log.all Occurrence.textual = true) (hL : Onlookers start depth L log) {c : Command}
    (hc : c.Permitted L) : Leads (Keeps (FollowsIn start L log)) (run (depth + 1) c) := by
  apply leads_step
  · exact fun s bus hbus hs => hs.listening (fun hheard e he => hheard e (hbus.subset he)) s.latest
  · exact fun ha => ha.keeps_followsIn hstart htext hL
  · rintro event listener rfl
    exact keeps_followsIn_subscribe hc
  · rintro event args rfl
    exact absurd hc id

end Commands

/-! ### What runs tell -/

section Runs

variable {schema : Option Schema} {policy : Policy} {provider : Option Provider} {depth : Nat}
  {cs : List Command}

theorem inStep_start : InStep L (start schema policy provider) where
  heardBy := nofun
  replay := rfl

/-- While only onlookers listen, a mirror that hears all that is told can follow from the start on,
and after each command it holds just the nodes and the edges that are there, in their order. -/
theorem replay_emitted
    (hL : Onlookers (start schema policy provider) depth L
      (afterAll (depth + 1) cs (start schema policy provider)).history)
    (hcs : ∀ c ∈ cs, c.Permitted L)
    (htext : (afterAll (depth + 1) cs (start schema policy provider)).textual = true)
    {before : List Command} (hbefore : before <+: cs) :
    Mirror.empty.replay? (afterAll (depth + 1) before (start schema policy provider)).emitted =
      some ⟨(afterAll (depth + 1) before (start schema policy provider)).graph.nodes,
        (afterAll (depth + 1) before (start schema policy provider)).graph.edges⟩ := by
  have hkeeps : ∀ c ∈ before, Leads (Keeps (FollowsIn _ L _)) (run (depth + 1) c) := fun c hc =>
    keeps_followsIn_run (showsValid_start schema policy provider) htext hL
      (hcs c (hbefore.subset hc))
  have hfollows := keeps_afterAll hkeeps _ ⟨.refl, fun _ => inStep_start⟩
  obtain ⟨after, rfl⟩ := hbefore
  refine (hfollows.2 ?_).replay
  rw [afterAll_append]
  exact (moves_afterAll (depth + 1) after _).keeps_history

/-- Items with two parallel pairs and one in a loop; one of the pairs is moved, an item is added
twice, and one that is not there is deleted.  Then the item with all the pairs goes, comes back and
is updated, and in the end everything is cleared. -/
def mirroredRun : List Command :=
  [.subscribe "edge:delete" counter, .subscribe "node:delete" counter,
    .addNodes (.list [item "a", item "b", item "c"]),
    .addEdge (pair "ab" "a" "b"), .addEdge (pair "ab2" "a" "b"), .addEdge (pair "aa" "a" "a"),
    .updateEdge (.text "ab") (.record [("target_node_id", .text "c")]),
    .addNode (item "b"), .deleteNode (.text "d"), .deleteNode (.text "a"), .addNode (item "a"),
    .updateNode (.text "a") (.record [("data", .record [("label", .text "again")])]), .clear]

/-- The listener is called four times, once for each of the pairs and once for the item. -/
theorem replay_emitted_mirroredRun :
    (afterAll 3 mirroredRun (start none plainPolicy none)).textual = true ∧
      (afterAll 3 mirroredRun (start none plainPolicy none)).emitted.length = 14 ∧
      ∀ before, before <+: mirroredRun →
        Mirror.empty.replay? (afterAll 3 before (start none plainPolicy none)).emitted =
          some ⟨(afterAll 3 before (start none plainPolicy none)).graph.nodes,
            (afterAll 3 before (start none plainPolicy none)).graph.edges⟩ :=
  have htext : (afterAll 3 mirroredRun (start none plainPolicy none)).textual = true := by
    decide +kernel
  have hpermitted : ∀ c ∈ mirroredRun, c.Permitted fun _ listener => listener.Asks := by
    simp [mirroredRun, Command.Permitted, counter_asks]
  ⟨htext, by decide +kernel, fun _ hbefore =>
    replay_emitted (onlookers_of_asks _ 2 _) hpermitted htext hbefore⟩

end Runs

end Session

end PropertyGraph
