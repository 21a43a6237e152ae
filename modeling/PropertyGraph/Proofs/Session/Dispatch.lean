import PropertyGraph.Proofs.Session.Shown

/-!
# Dispatch

An event is told to the listeners that it has when telling starts, whatever becomes of the bus while
they are called: one after another in the order of their subscriptions, until one of them fails
(`Dispatch`).  What a listener does meanwhile is a number of deeds (`Deed`): it changes who listens,
or makes that some event is told, which is the same again one level below (`Conduct`).

`emit_dispatched` says so of what is emitted, and `conduct_run` of everything that is told in the
course of any command.  The order of the subscriptions is that of their tokens (`ordered_run`).
-/

namespace PropertyGraph

/-- Whether something happened other than that an event was told or a listener called. -/
def Occurrence.isAside : Occurrence → Bool
  | .told _ _ => false
  | .called _ _ _ _ => false
  | _ => true

namespace Session

open Relation

variable {α : Type}

/-- A session in which one thing more has happened. -/
abbrev noted (s : Session) (o : Occurrence) : Session := { s with history := s.history ++ [o] }

section Dispatch

variable (inner : Command → Act Outcome) (conduct : Session → Session → Prop)

/-- A listener is called, which is written down first; then it conducts itself as `conduct` says. -/
structure Called (payload : List Payload) (e : Bus.Entry Listener) (s : Session) (r : Result Unit)
    (t : Session) : Prop where
  carriedOut : carryOut (call inner payload e) s = (r, t)
  conduct : conduct (s.noted (.called e.subscription.token e.listener.name payload s.graph)) t

/-- Listeners are called one after another, and none of them fails. -/
inductive CalledAll (payload : List Payload) :
    List (Bus.Entry Listener) → Session → Session → Prop
  | nil (s : Session) : CalledAll payload [] s s
  | cons {e : Bus.Entry Listener} {rest : List (Bus.Entry Listener)} {s t u : Session} :
    Called inner conduct payload e s (.ok ()) t → CalledAll payload rest t u →
      CalledAll payload (e :: rest) s u

/-- An event is told in `s`: those who listen to it in `s` are called in order, either all of them,
or those up to the first that fails. -/
inductive Dispatch (event : Event) (payload : List Payload) (s : Session) :
    Result Unit → Session → Prop
  | completed {t : Session} :
    CalledAll inner conduct payload (s.bus.entriesOf event) (s.noted (.told event payload)) t →
      Dispatch event payload s (.ok ()) t
  | failed {before after : List (Bus.Entry Listener)} {e : Bus.Entry Listener} {u t : Session}
    {f : Failure} :
    s.bus.entriesOf event = before ++ e :: after →
      CalledAll inner conduct payload before (s.noted (.told event payload)) u →
        Called inner conduct payload e u (.error f) t → Dispatch event payload s (.error f) t

end Dispatch

/-- One thing that a listener does: something that nobody is told of and that leaves the bus as it
is, a change of who listens, or that an event is told. -/
inductive Deed (telling : Session → Session → Prop) (s : Session) : Session → Prop
  | aside {t : Session} {os : List Occurrence} :
    t.bus = s.bus → t.history = s.history ++ os → (∀ o ∈ os, o.isAside = true) → Deed telling s t
  | subscribed (event : Event) (listener : Listener) (latest : Record Subscription) :
    Deed telling s { s with bus := (s.bus.subscribe event listener).2, latest }
  | fewer {bus : Bus Listener} : s.bus.Fewer bus → Deed telling s { s with bus }
  | told {t : Session} : telling s t → Deed telling s t

/-- What listeners do whose commands may nest as deep as the number says. -/
def Conduct : Nat → Session → Session → Prop
  | 0 => ReflTransGen (Deed fun _ _ => False)
  | depth + 1 => ReflTransGen (Deed fun s t =>
      ∃ event payload r, Dispatch (run depth) (Conduct depth) event payload s r t)

theorem conduct_eq (depth : Nat) : ∃ telling, Conduct depth = ReflTransGen (Deed telling) := by
  cases depth with
  | zero => exact ⟨_, rfl⟩
  | succ depth => exact ⟨_, rfl⟩

instance (depth : Nat) : IsPreorder Session (Conduct depth) := by
  obtain ⟨telling, h⟩ := conduct_eq depth
  rw [h]
  infer_instance

theorem Conduct.of_aside (depth : Nat) {s t : Session} {os : List Occurrence}
    (hbus : t.bus = s.bus) (hhistory : t.history = s.history ++ os)
    (hos : ∀ o ∈ os, o.isAside = true) : Conduct depth s t := by
  obtain ⟨telling, h⟩ := conduct_eq depth
  rw [h]
  exact .single (.aside hbus hhistory hos)

/-! ### Telling -/

section Telling

variable {inner : Command → Act Outcome} {conduct : Session → Session → Prop}
  (hcall : ∀ payload e s, Called inner conduct payload e s (carryOut (call inner payload e) s).1
    (carryOut (call inner payload e) s).2)

include hcall

theorem called_forM (payload : List Payload) (es : List (Bus.Entry Listener)) (s : Session) :
    (∃ t, carryOut (es.forM (call inner payload)) s = (.ok (), t) ∧
      CalledAll inner conduct payload es s t) ∨
    ∃ before e after u f t, es = before ++ e :: after ∧
      carryOut (es.forM (call inner payload)) s = (.error f, t) ∧
        CalledAll inner conduct payload before s u ∧
          Called inner conduct payload e u (.error f) t := by
  induction es generalizing s with
  | nil => exact .inl ⟨s, rfl, .nil s⟩
  | cons e rest ih =>
    have hfirst := hcall payload e s
    rcases he : carryOut (call inner payload e) s with ⟨f | _, t⟩
    · rw [he] at hfirst
      refine .inr ⟨[], e, rest, s, f, t, rfl, ?_, .nil s, hfirst⟩
      rw [carryOut_forM_cons, carryOut_bind, he]
    · rw [he] at hfirst
      rw [carryOut_forM_cons, carryOut_bind_ok he]
      obtain ⟨u, hrest, hcalled⟩ | ⟨before, e', after, u, f, v, rfl, hrest, hcalled, hfailed⟩ :=
        ih t
      · exact .inl ⟨u, hrest, .cons hfirst hcalled⟩
      · exact .inr ⟨e :: before, e', after, u, f, v, rfl, hrest, .cons hfirst hcalled, hfailed⟩

theorem dispatch_publish (event : Event) (payload : List Payload) (s : Session) :
    Dispatch inner conduct event payload s (carryOut (publish inner event payload) s).1
      (carryOut (publish inner event payload) s).2 := by
  have hpublish : carryOut (publish inner event payload) s =
      carryOut ((s.bus.entriesOf event).forM (call inner payload))
        (s.noted (.told event payload)) := rfl
  rw [hpublish]
  obtain ⟨t, h, hall⟩ | ⟨before, e, after, u, f, t, hentries, h, hbefore, he⟩ :=
    called_forM hcall payload (s.bus.entriesOf event) (s.noted (.told event payload))
  · rw [h]
    exact .completed hall
  · rw [h]
    exact .failed hentries hbefore he

end Telling

/-! ### Runs -/

theorem Prepared.conduct {s t : Session} (h : Prepared s t) (depth : Nat) :
    Conduct depth s t := by
  obtain ⟨made, asked, rfl⟩ := h
  refine .of_aside depth rfl rfl fun o ho => ?_
  obtain ⟨text, -, rfl⟩ := List.mem_map.1 ho
  rfl

theorem called_call {depth : Nat} (h : ∀ c, Leads (Conduct depth) (run depth c))
    (payload : List Payload) (e : Bus.Entry Listener) (s : Session) :
    Called (run depth) (Conduct depth) payload e s (carryOut (call (run depth) payload e) s).1
      (carryOut (call (run depth) payload e) s).2 := by
  have hperform : Leads (Conduct depth) (perform (run depth) e.listener.name
      (e.listener.respond (s.calls e.subscription.token) payload)) :=
    leads_perform h (fun s name c r => .of_aside depth rfl rfl (by simp [Occurrence.isAside])) _ _
  exact ⟨rfl, hperform _⟩

/-- Everything that is told in the course of a command is dispatched, however deep commands of
listeners nest. -/
theorem conduct_run : ∀ (depth : Nat) (c : Command), Leads (Conduct depth) (run depth c)
  | 0, _ => .throw _
  | depth + 1, c => by
    -- listeners give their commands one level below, where the same is known of them
    have hpublish : ∀ event payload,
        Leads (Conduct (depth + 1)) (publish (run depth) event payload) := by
      intro event payload s
      have hdispatch := dispatch_publish (called_call (conduct_run depth)) event payload s
      exact .single (.told ⟨event, payload, _, hdispatch⟩)
    have hcommit : ∀ s g notices, Graph.Step s.schema s.graph g notices →
        Conduct (depth + 1) s (carryOut (commit (run depth) g notices) s).2 := by
      intro s g notices _
      have htold : Leads (Conduct (depth + 1)) (notices.forM (tell (run depth))) :=
        .forM fun n => hpublish n.event n.payload
      have hplaced : Conduct (depth + 1) s { s with graph := g } :=
        .of_aside _ rfl (List.append_nil _).symm (fun _ ho => absurd ho List.not_mem_nil)
      exact trans_of _ hplaced (htold _)
    have hready : ∀ s t, Prepared s t → Conduct (depth + 1) s t :=
      fun _ _ h => h.conduct (depth + 1)
    refine leads_step (fun s bus hbus => .single (.fewer hbus))
      (fun ha => ha.leads hready hcommit) (fun event listener _ => ?_)
      fun event args _ e => hpublish e _
    refine .bind (.settle _) fun e s => ?_
    exact .single (.subscribed e listener _)

/-- Tokens grow along the entries of a bus, so that the order of entries is that in which listeners
subscribed. -/
theorem ordered_run : ∀ (depth : Nat) (c : Command),
    Leads (Keeps fun s => s.bus.Ordered) (run depth c)
  | 0, _ => .throw _
  | depth + 1, c => by
    have hpublish : ∀ event payload,
        Leads (Keeps fun s => s.bus.Ordered) (publish (run depth) event payload) :=
      leads_publish (ordered_run depth) fun _ _ _ => id
    have hcommit : ∀ s g notices, Graph.Step s.schema s.graph g notices →
        Keeps (fun s => s.bus.Ordered) s (carryOut (commit (run depth) g notices) s).2 := by
      intro s g notices _ hs
      have htold : Leads (Keeps fun s => s.bus.Ordered) (notices.forM (tell (run depth))) :=
        .forM fun n => hpublish n.event n.payload
      exact htold { s with graph := g } hs
    have hready : ∀ s t, Prepared s t → Keeps (fun s => s.bus.Ordered) s t := by
      intro s t h hs
      rwa [← h.with_bus]
    have hfewer : ∀ (s : Session) (bus : Bus Listener), s.bus.Fewer bus → s.bus.Ordered →
        bus.Ordered := by
      intro s bus hbus hs
      cases hbus with
      | unsubscribed subscription => exact hs.unsubscribe subscription
      | cleared => exact hs.clear
    refine leads_step hfewer (fun ha => ha.leads hready hcommit) (fun event listener _ => ?_)
      fun event args _ e => hpublish e _
    refine .bind (.settle _) fun e s hs => ?_
    exact hs.subscribe e listener

/-- What is emitted is told to those who listen to it when it is emitted, in order and once each, up
to the first that fails, whose failure is what comes of it; whatever they do meanwhile counts only
for what is told later, which is told in the same way. -/
theorem emit_dispatched (depth : Nat) (event : Event) (args : List Value) (s : Session) :
    ∃ r t, carryOut (run (depth + 1) (.emit event.name args)) s = (r.map fun _ => .nothing, t) ∧
      Dispatch (run depth) (Conduct depth) event (args.map .value) s r t := by
  have hemit : carryOut (run (depth + 1) (.emit event.name args)) s =
      carryOut (do publish (run depth) event (args.map .value); return Outcome.nothing) s := by
    show carryOut (do publish (run depth) (← settle (Event.ofName event.name)) (args.map .value)
                      return Outcome.nothing) s = _
    rw [carryOut_settle_bind, Event.ofName_name]
  rw [hemit, carryOut_return]
  exact ⟨_, _, rfl, dispatch_publish (called_call (conduct_run depth)) event _ s⟩

/-- When it is first called, this sends `bystander` away, makes `latecomer` listen, and emits the
event once more. -/
def meddler : Listener :=
  .ofSteps "meddler" 1 [.give (.unsubscribeNamed "bystander") false,
    .give (.subscribe "graph:clear" (.ofSteps "latecomer" 0 [])) false,
    .give (.emit "graph:clear" []) false]

-- who was sent away is called all the same, and who came is called only by what is emitted later
example :
    let s := afterAll 3 [.subscribe "graph:clear" meddler,
      .subscribe "graph:clear" (.ofSteps "bystander" 0 []), .emit "graph:clear" []]
      (start none plainPolicy none)
    s.history.filterMap (fun o => match o with | .called _ name _ _ => some name | _ => none) =
      ["meddler", "meddler", "latecomer", "bystander"] := by
  decide +kernel

end Session

end PropertyGraph
