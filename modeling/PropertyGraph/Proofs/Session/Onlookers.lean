import PropertyGraph.Proofs.Graph.Mirror
import PropertyGraph.Proofs.Session.Shown

/-!
# Onlookers

*Onlookers* are listeners that neither fail nor change the graph: whenever one of them is called in
a run to tell of a change, its program comes to an end, the graph is as it was, and nobody is told
anything meanwhile.  They may ask questions, try what is refused, and change who listens, so long as
only onlookers do.

While only onlookers listen, a change of the graph goes through, and just its notices are told, in
their order (`Onlookers.commit`).  Listeners that only ask questions are onlookers in every run
(`onlookers_of_asks`).
-/

namespace PropertyGraph

/-- A program that only asks questions, whatever the answers are, and does not mind if there is
none. -/
inductive Program.Asks : Program → Prop
  | done : Asks .done
  | ask (q : Question) {next : Result Outcome → Program} :
    (∀ r, Asks (next r)) → Asks (.perform (.ask q) false next)

/-- A listener that only asks questions. -/
def Listener.Asks (listener : Listener) : Prop :=
  ∀ number payload, (listener.respond number payload).Asks

/-- Whether a listener gave a command. -/
def Occurrence.isDid : Occurrence → Bool
  | .did _ _ _ _ => true
  | _ => false

/-- What was told, if something was. -/
def Occurrence.telling? : Occurrence → Option (Event × List Payload)
  | .told event payload => some (event, payload)
  | _ => none

namespace Session

variable {L : Event → Listener → Prop} {α β : Type}

/-- All that was told, in order. -/
def emitted (s : Session) : List (Event × List Payload) := s.history.filterMap Occurrence.telling?

theorem emitted_note (s : Session) (o : Occurrence) :
    ({ s with history := s.history ++ [o] } : Session).emitted =
      s.emitted ++ o.telling?.toList := by
  rw [emitted, List.filterMap_append]
  rcases h : o.telling? with _ | t <;> simp [emitted, h]

/-- Whoever listens to something is as `L` says. -/
def HeardBy (L : Event → Listener → Prop) (s : Session) : Prop :=
  ∀ e ∈ s.bus.entries, L e.subscription.event e.listener

/-- From one session to another just some notices are told, while the graph stays as it is; those
who listen in the end are as `L` says. -/
structure Told (L : Event → Listener → Prop) (notices : List Notice) (s t : Session) : Prop where
  graph : t.graph = s.graph
  emitted : t.emitted = s.emitted ++ notices.map Notice.telling
  heardBy : t.HeardBy L

theorem Told.refl {s : Session} (hs : s.HeardBy L) : Told L [] s s :=
  ⟨rfl, by rw [List.map_nil, List.append_nil], hs⟩

theorem Told.trans {s t u : Session} {notices more : List Notice} (h : Told L notices s t)
    (h' : Told L more t u) : Told L (notices ++ more) s u where
  graph := h'.graph.trans h.graph
  emitted := by rw [h'.emitted, h.emitted, List.map_append, List.append_assoc]
  heardBy := h'.heardBy

theorem Told.note {s : Session} (hs : s.HeardBy L) {o : Occurrence} (ho : o.telling? = none) :
    Told L [] s { s with history := s.history ++ [o] } where
  graph := rfl
  emitted := by rw [emitted_note, ho, Option.toList_none, List.map_nil]
  heardBy := hs

theorem Told.singleton {s : Session} (hs : s.HeardBy L) (n : Notice) :
    Told L [n] s { s with history := s.history ++ [.told n.event n.payload] } where
  graph := rfl
  emitted := emitted_note s _
  heardBy := hs

/-! ### Acts that tell some notices -/

/-- What is done after an act, whatever comes of it, is made of moves. -/
theorem moves_bind {a : Act α} {k : α → Act β} (hk : ∀ x, Moving (k x)) (s : Session) :
    Moves (carryOut a s).2 (carryOut (a >>= k) s).2 := by
  rw [carryOut_bind]
  rcases carryOut a s with ⟨f | x, t⟩
  · exact .refl
  · exact hk x t

/-- Wherever moves from the start lead while listeners are as `L` says, an act goes through and
tells just some notices, if it is carried out in a run in which the occurrences of `log` happen. -/
def Tells (start : Session) (L : Event → Listener → Prop) (log : List Occurrence)
    (notices : List Notice) (a : Act PUnit) : Prop :=
  ∀ s, Moves start s → s.HeardBy L → (carryOut a s).2.history <+: log →
    ∃ t, carryOut a s = (.ok ⟨⟩, t) ∧ Told L notices s t

namespace Tells

variable {start : Session} {log : List Occurrence} {notices more : List Notice}

theorem bind {a b : Act PUnit} (ha : Tells start L log notices a) (hmoving : Moving a)
    (hb : Tells start L log more b) (hmoving' : Moving b) :
    Tells start L log (notices ++ more) (do a; b) := by
  intro s hs hheard hlog
  have hmoves : Moves (carryOut a s).2 (carryOut (do a; b) s).2 := moves_bind (fun _ => hmoving') s
  obtain ⟨t, hat, htold⟩ := ha s hs hheard (hmoves.keeps_history.trans hlog)
  rw [carryOut_bind_ok hat] at hlog ⊢
  obtain ⟨u, hbu, htold'⟩ := hb t (hs.trans (hmoving.rel hat)) htold.heardBy hlog
  exact ⟨u, hbu, htold.trans htold'⟩

theorem forM {l : List α} {a : α → Act PUnit} {notices : α → List Notice}
    (ha : ∀ x ∈ l, Tells start L log (notices x) (a x)) (hmoving : ∀ x, Moving (a x)) :
    Tells start L log (l.flatMap notices) (l.forM a) := by
  induction l with
  | nil => exact fun s _ hheard _ => ⟨s, rfl, .refl hheard⟩
  | cons x rest ih =>
    rw [List.forall_mem_cons] at ha
    exact ha.1.bind (hmoving x) (ih ha.2) (.forM hmoving)

end Tells

/-! ### Onlookers -/

/-- Listeners as `L` says are onlookers in a run: calling one of them to tell of a change goes
through and tells nothing further, wherever this is done in the run. -/
def Onlookers (start : Session) (depth : Nat) (L : Event → Listener → Prop)
    (log : List Occurrence) : Prop :=
  ∀ (n : Notice) (e : Bus.Entry Listener), e.subscription.event = n.event →
    L n.event e.listener → Tells start L log [] (call (run depth) n.payload e)

namespace Onlookers

variable {start : Session} {depth : Nat} {log : List Occurrence}

theorem callAll (h : Onlookers start depth L log) (n : Notice) :
    Tells start L log [] (callAll (run depth) n.event n.payload) := by
  intro s hs hheard hlog
  have hentries : ∀ e ∈ s.bus.entriesOf n.event,
      Tells start L log [] (call (run depth) n.payload e) := by
    intro e he
    obtain ⟨he, hevent⟩ := List.mem_filter.1 he
    have hevent := of_decide_eq_true hevent
    exact h n e hevent (hevent ▸ hheard e he)
  obtain ⟨t, ht, htold⟩ :=
    Tells.forM hentries (moving_call (moving_run depth) n.payload) s hs hheard hlog
  rw [List.flatMap_eq_nil_iff.2 fun _ _ => rfl] at htold
  exact ⟨t, ht, htold⟩

theorem tell (h : Onlookers start depth L log) (n : Notice) :
    Tells start L log [n] (tell (run depth) n) := by
  intro s hs hheard hlog
  have htold := Told.singleton hheard n
  obtain ⟨t, ht, htold'⟩ :=
    h.callAll n _ (hs.trans (Moves.of_told s n.event n.payload)) htold.heardBy hlog
  exact ⟨t, ht, htold.trans htold'⟩

/-- While only onlookers listen, a step of the graph goes through, and just its notices are told. -/
theorem commit (h : Onlookers start depth L log) {s : Session} (hs : Moves start s)
    (hheard : s.HeardBy L) {g : Graph} {notices : List Notice}
    (hstep : Graph.Step s.schema s.graph g notices)
    (hlog : (carryOut (commit (run depth) g notices) s).2.history <+: log) :
    ∃ t, carryOut (commit (run depth) g notices) s = (.ok ⟨⟩, t) ∧
      Told L notices { s with graph := g } t := by
  obtain ⟨n, rest, rfl⟩ := List.exists_cons_of_ne_nil hstep.notices_ne_nil
  have hfirst : Told L [n] { s with graph := g }
      { s with graph := g, history := s.history ++ [.told n.event n.payload] } :=
    Told.singleton (s := { s with graph := g }) hheard n
  have hmoving : ∀ n, Moving (Session.tell (run depth) n) := moving_tell (moving_run depth)
  have hrest : Tells start L log (rest.flatMap fun n => [n])
      (rest.forM (Session.tell (run depth))) := .forM (fun n _ => h.tell n) hmoving
  -- the graph is changed and its first notice is told of in one move
  rw [carryOut_commit] at hlog ⊢
  obtain ⟨t, ht, htold⟩ := (h.callAll n).bind (moving_callAll (moving_run depth) _ _) hrest
    (.forM hmoving) _ (hs.tail (.stepped hstep)) hfirst.heardBy hlog
  have hall := hfirst.trans htold
  rw [List.flatMap_singleton'] at hall
  exact ⟨t, ht, hall⟩

end Onlookers

/-! ### Listeners that only ask -/

/-- What listeners do is none of what is picked from what happened, if nothing they do is. -/
theorem filterMap_of_did {os : List Occurrence} (hos : ∀ o ∈ os, o.isDid = true)
    {pick : Occurrence → Option β} (hpick : ∀ name c r g, pick (.did name c r g) = none) :
    os.filterMap pick = [] := by
  rw [List.filterMap_eq_nil_iff]
  intro o ho
  have hdid := hos o ho
  cases o with
  | did name c r g => exact hpick name c r g
  | _ => cases hdid

theorem carryOut_run_ask (depth : Nat) (q : Question) (s : Session) :
    (carryOut (run depth (.ask q)) s).2 = s := by
  cases depth with
  | zero => rfl
  | succ depth => rfl

/-- A command whose failure does not escape is written down with what comes of it, and the program
goes on. -/
theorem carryOut_perform_kept (inner : Command → Act Outcome) (name : String) (c : Command)
    (next : Result Outcome → Program) (s : Session) :
    carryOut (perform inner name (.perform c false next)) s =
      carryOut (perform inner name (next (carryOut (inner c) s).1))
        { (carryOut (inner c) s).2 with
          history := (carryOut (inner c) s).2.history ++
            [.did name c (carryOut (inner c) s).1 (carryOut (inner c) s).2.graph] } := by
  conv_lhs => unfold perform
  rw [carryOut_observe_bind]
  rcases carryOut (inner c) s with ⟨_ | _, t⟩ <;> rfl

/-- Asking goes through, and leaves nothing behind but the record of it. -/
theorem carryOut_perform_asks (depth : Nat) (name : String) {p : Program} (hp : p.Asks)
    (s : Session) :
    ∃ os : List Occurrence, (∀ o ∈ os, o.isDid = true) ∧
      carryOut (perform (run depth) name p) s =
        (.ok ⟨⟩, { s with history := s.history ++ os }) := by
  induction hp generalizing s with
  | done => exact ⟨[], nofun, by rw [List.append_nil]; rfl⟩
  | @ask q next _ ih =>
    let o : Occurrence := .did name (.ask q) (carryOut (run depth (.ask q)) s).1 s.graph
    obtain ⟨os, hos, hrest⟩ :=
      ih (carryOut (run depth (.ask q)) s).1 { s with history := s.history ++ [o] }
    refine ⟨o :: os, List.forall_mem_cons.2 ⟨rfl, hos⟩, ?_⟩
    rw [carryOut_perform_kept, carryOut_run_ask, hrest, List.append_assoc, List.singleton_append]

theorem onlookers_of_asks (start : Session) (depth : Nat) (log : List Occurrence) :
    Onlookers start depth (fun _ listener => listener.Asks) log := by
  intro n e _ hasks s _ hheard _
  let o : Occurrence := .called e.subscription.token e.listener.name n.payload s.graph
  have hcalled := Told.note (o := o) hheard rfl
  obtain ⟨os, hos, h⟩ := carryOut_perform_asks depth e.listener.name
    (hasks (s.calls e.subscription.token) n.payload) { s with history := s.history ++ [o] }
  refine ⟨_, h, hcalled.trans ⟨rfl, ?_, hheard⟩⟩
  rw [emitted, List.filterMap_append, filterMap_of_did hos fun _ _ _ _ => rfl, List.map_nil]
  rfl

/-- This looks up how many entities there are whenever it is called. -/
def counter : Listener :=
  .mk "counter" fun _ _ => .perform (.ask .counts) false fun _ => .done

theorem counter_asks : counter.Asks := fun _ _ => .ask .counts fun _ => .done

end Session

end PropertyGraph
