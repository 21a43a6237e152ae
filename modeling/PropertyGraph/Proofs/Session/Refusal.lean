import PropertyGraph.Proofs.Session.Shown

/-!
# Refusals

A command that changes one entity and fails has either changed nothing, or made its change in full
and met a listener that failed (`SingleStep.refused_or_fromListener`).  So a failure that does not
come from a listener leaves the graph as it was, its adjacency and all orders included, and nobody
was told anything.
-/

namespace PropertyGraph

/-- Whether a command changes at most one entity, and those that go with it. -/
def Command.changesOne : Command → Bool
  | .addNode _ | .createNode _ _ | .updateNode _ _ | .deleteNode _ => true
  | .addEdge _ | .createEdge _ _ _ _ | .updateEdge _ _ | .deleteEdge _ | .deleteHeld _ => true
  | _ => false

def Occurrence.isTold : Occurrence → Bool
  | .told _ _ => true
  | _ => false

namespace Session

/-- How often something was told. -/
def tellings (s : Session) : Nat := s.history.countP Occurrence.isTold

theorem Moves.tellings_le {s t : Session} (h : Moves s t) : s.tellings ≤ t.tellings :=
  h.keeps_history.sublist.countP_le

variable {α β : Type} {inner : Command → Act Outcome}

theorem Prepared.tellings_eq {s t : Session} (h : Prepared s t) : t.tellings = s.tellings := by
  obtain ⟨made, asked, rfl⟩ := h
  have hasked : (asked.map Occurrence.embedded).countP Occurrence.isTold = 0 := by
    rw [List.countP_eq_zero]
    intro o ho
    obtain ⟨text, -, rfl⟩ := List.mem_map.1 ho
    simp [Occurrence.isTold]
  rw [tellings, tellings, List.countP_append, hasked, Nat.add_zero]

/-- Acts that are carried out one after another fail by one of them, after those before it. -/
theorem exists_of_forM_error {l : List β} {a : β → Act PUnit} {s t : Session} {f : Failure}
    (h : carryOut (l.forM a) s = (.error f, t)) :
    ∃ before x after u, l = before ++ x :: after ∧
      carryOut (before.forM a) s = (.ok ⟨⟩, u) ∧ carryOut (a x) u = (.error f, t) := by
  induction l generalizing s with
  | nil => cases h
  | cons x rest ih =>
    rw [carryOut_forM_cons, carryOut_bind] at h
    rcases hx : carryOut (a x) s with ⟨f' | _, u⟩
    · rw [hx] at h
      exact ⟨[], x, rest, s, rfl, rfl, hx.trans h⟩
    · rw [hx] at h
      obtain ⟨before, y, after, v, rfl, hbefore, hy⟩ := ih h
      refine ⟨x :: before, y, after, v, rfl, ?_, hy⟩
      rw [carryOut_forM_cons, carryOut_bind_ok hx]
      exact hbefore

/-- A failure comes from a listener: the graph took a step, the notices `before` were told of, and
somebody who listened to the next one by then was called and failed. -/
def FromListener (inner : Command → Act Outcome) (s : Session) (f : Failure) (t : Session) : Prop :=
  ∃ g before n after s₁ v e u,
    Graph.Step s.schema s.graph g (before ++ n :: after) ∧ Prepared s s₁ ∧
      carryOut (commit inner g before) s₁ = (.ok ⟨⟩, v) ∧ e ∈ v.bus.entriesOf n.event ∧
        v.history ++ [.told n.event n.payload] <+: u.history ∧
          carryOut (call inner n.payload e) u = (.error f, t)

section Moving

variable (hinner : ∀ c, Moving (inner c))

include hinner

/-- After a step of the graph only a listener can fail. -/
theorem fromListener_of_commit {s s₁ t : Session} {g : Graph} {notices : List Notice} {f : Failure}
    (hstep : Graph.Step s.schema s.graph g notices) (hready : Prepared s s₁)
    (h : carryOut (commit inner g notices) s₁ = (.error f, t)) : FromListener inner s f t := by
  unfold commit at h
  rw [carryOut_modify_bind] at h
  obtain ⟨before, n, after, v, rfl, hbefore, hn⟩ := exists_of_forM_error h
  unfold tell at hn
  rw [carryOut_publish] at hn
  obtain ⟨called, e, others, u, hentries, hcalled, he⟩ := exists_of_forM_error hn
  have hmem : e ∈ v.bus.entriesOf n.event := by
    show e ∈ ({ v with history := _ } : Session).bus.entriesOf n.event
    rw [hentries]
    exact List.mem_append_right called List.mem_cons_self
  have hothers : Moving (called.forM (call inner n.payload)) :=
    .forM (moving_call hinner n.payload)
  exact ⟨g, before, n, after, s₁, v, e, u, hstep, hready, hbefore, hmem,
    (hothers.rel hcalled).keeps_history, he⟩

/-- What comes from a listener comes after something was told. -/
theorem FromListener.tellings_lt {s t : Session} {f : Failure} (h : FromListener inner s f t) :
    s.tellings < t.tellings := by
  obtain ⟨g, before, n, after, s₁, v, e, u, -, hready, hbefore, -, htold, hcall⟩ := h
  have htell : Moving (before.forM (tell inner)) := .forM (moving_tell hinner)
  have hs : s.tellings ≤ s₁.tellings := hready.moves.tellings_le
  have hs₁ : s₁.tellings ≤ v.tellings := (htell.rel hbefore).tellings_le
  have hv : v.tellings + 1 ≤ u.tellings := by
    have hcount := htold.sublist.countP_le (p := Occurrence.isTold)
    rwa [List.countP_append] at hcount
  have hu : u.tellings ≤ t.tellings := ((moving_call hinner n.payload e).rel hcall).tellings_le
  omega

/-- What comes from a listener is never a refusal: the two kinds of failure exclude each other. -/
theorem FromListener.not_prepared {s t : Session} {f : Failure} (h : FromListener inner s f t) :
    ¬ Prepared s t := by
  intro hready
  have hlt := h.tellings_lt hinner
  rw [hready.tellings_eq] at hlt
  exact Nat.lt_irrefl _ hlt

/-- An act that takes a single step and fails has only made ready, unless a listener failed. -/
theorem SingleStep.refused_or_fromListener {a : Act α} (ha : SingleStep inner a) {s t : Session}
    {f : Failure} (h : carryOut a s = (.error f, t)) :
    Prepared s t ∨ FromListener inner s f t := by
  obtain ⟨s₁, hready, ⟨r, hr⟩ | ⟨g, notices, x, hstep, hcommit⟩⟩ := ha s
  · rw [h] at hr
    obtain ⟨-, rfl⟩ := Prod.mk.inj hr
    exact .inl hready
  · rw [h, carryOut_return] at hcommit
    obtain ⟨hf, rfl⟩ := Prod.mk.inj hcommit
    refine .inr (fromListener_of_commit hinner hstep hready ?_)
    rcases hc : carryOut (commit inner g notices) s₁ with ⟨f' | _, u⟩
    · rw [hc] at hf
      cases hf
      rfl
    · rw [hc] at hf
      cases hf

end Moving

theorem oneStep_step : ∀ c : Command, c.changesOne = true → OneStep fun inner => step inner c
  | .addNode v, _ => (oneStep_loadNode v).andReturn fun _ => Outcome.nothing
  | .createNode type data, _ => oneStep_createNode type data
  | .updateNode id changes, _ => oneStep_updateNode id changes
  | .deleteNode id, _ => oneStep_deleteNode id
  | .addEdge v, _ => (oneStep_loadEdge v).andReturn fun _ => Outcome.nothing
  | .createEdge type source target data, _ => oneStep_createEdge type source target data
  | .updateEdge id changes, _ => oneStep_updateEdge id changes
  | .deleteEdge id, _ => oneStep_deleteEdge id
  | .deleteHeld place, _ => oneStep_deleteHeld place

/-- A command on one entity that fails, where no listener failed, leaves all as it was: at most an
entity was counted and vectors were asked for, but nothing was changed and nobody was told. -/
theorem prepared_of_refused {depth : Nat} {c : Command} {s t : Session} {f : Failure}
    (hc : c.changesOne = true) (h : carryOut (run depth c) s = (.error f, t))
    (hf : ¬ FromListener (run (depth - 1)) s f t) :
    ∃ (made : Nat) (asked : List String),
      t = { s with made, history := s.history ++ asked.map .embedded } := by
  cases depth with
  | zero =>
    obtain ⟨-, rfl⟩ := Prod.mk.inj h
    exact Prepared.refl s
  | succ depth =>
    have hsingle : SingleStep (run depth) (step (run depth) c) := (oneStep_step c hc).single
    exact (hsingle.refused_or_fromListener (moving_run depth) h).resolve_right hf

/-- A session whose nodes want vectors that nobody can give, while `pairer` listens. -/
def offline : Session :=
  afterAll 3 [.subscribe "node:add" pairer]
    (start pairSchema ⟨.bool true, .propagate, .null⟩ (some (Provider.unavailable "offline")))

/-- Asks for a new item. -/
def newItem : Command := .createNode (.text "item") (.record [("label", .text "c")])

/-- The vector was asked for in vain, and `pairer` is not even called. -/
theorem offline_newItem_prepared :
    carryOut (run 3 newItem) offline =
        (.error (.unavailable "offline"), (carryOut (run 3 newItem) offline).2) ∧
      ¬ FromListener (run 2) offline (.unavailable "offline") (carryOut (run 3 newItem) offline).2 ∧
      ∃ (made : Nat) (asked : List String), (carryOut (run 3 newItem) offline).2 =
        { offline with made, history := offline.history ++ asked.map .embedded } :=
  have hfailed : carryOut (run 3 newItem) offline =
      (.error (.unavailable "offline"), (carryOut (run 3 newItem) offline).2) :=
    Prod.ext (by rfl) rfl
  have hlistener : ¬ FromListener (run 2) offline (.unavailable "offline")
      (carryOut (run 3 newItem) offline).2 := fun h =>
    absurd (h.tellings_lt (moving_run 2)) (by decide +kernel)
  ⟨hfailed, hlistener, prepared_of_refused rfl hfailed hlistener⟩

end Session

end PropertyGraph
