import Mathlib.Data.List.Induction
import PropertyGraph.Proofs.Graph.Seniority
import PropertyGraph.Proofs.Session.Shown

/-!
# Timelines

The moments of a run are told apart by how much has happened.  A *timeline* says what the graph is
at every moment: at first it is empty; when a listener is called, or is done with a command, it is
what is written down then; and it changes only by a step, at the moment when somebody begins to tell
of it.

Every run has a timeline, which gives the graph after each of its commands (`exists_timeline`).  As
long as entities have texts for identifiers, they keep their types and their order along every
timeline, and that order is the one in which they were added (`keepsOrder_of_run`).
-/

namespace PropertyGraph.Session

open PropertyGraph.Graph PropertyGraph.Roster

/-- What the graph is at every moment of what happened. -/
structure Timeline (schema : Option Schema) (history : List Occurrence) (graphAt : ℕ → Graph) :
    Prop where
  begins : graphAt 0 = .empty
  seen : ∀ i o, history[i]? = some o → ∀ g ∈ o.graph?, g = graphAt i
  goes : ∀ i o, history[i]? = some o →
    graphAt (i + 1) = graphAt i ∨
      ∃ n rest, o = .told n.event n.payload ∧
        Step schema (graphAt i) (graphAt (i + 1)) (n :: rest)

/-! ### Runs have timelines -/

/-- A timeline that leads to a session. -/
structure LeadsTo (graphAt : ℕ → Graph) (s : Session) : Prop where
  timeline : Timeline s.schema s.history graphAt
  now : graphAt s.history.length = s.graph

theorem leadsTo_start (schema : Option Schema) (policy : Policy) (provider : Option Provider) :
    LeadsTo (fun _ => .empty) (start schema policy provider) where
  timeline := {
    begins := rfl
    seen := fun _ _ ho => absurd ho (by simp [start])
    goes := fun _ _ _ => .inl rfl }
  now := rfl

/-- A timeline goes on by one moment when one thing more happens. -/
theorem LeadsTo.occurred {graphAt : ℕ → Graph} {s : Session} (h : LeadsTo graphAt s) {g : Graph}
    {o : Occurrence} (hseen : ∀ g' ∈ o.graph?, g' = s.graph)
    (hgoes : g = s.graph ∨ ∃ n rest, o = .told n.event n.payload ∧
      Step s.schema s.graph g (n :: rest)) :
    ∃ graphAt', LeadsTo graphAt' { s with graph := g, history := s.history ++ [o] } ∧
      ∀ k ≤ s.history.length, graphAt' k = graphAt k := by
  let graphAt' : ℕ → Graph := fun k => if k ≤ s.history.length then graphAt k else g
  have hbefore : ∀ k ≤ s.history.length, graphAt' k = graphAt k := fun k hk => if_pos hk
  have hafter : graphAt' (s.history.length + 1) = g := if_neg (Nat.not_succ_le_self _)
  -- an occurrence is an earlier one or the one that was added
  have hcases : ∀ i p, (s.history ++ [o])[i]? = some p →
      i < s.history.length ∧ s.history[i]? = some p ∨ i = s.history.length ∧ p = o := by
    intro i p hp
    rcases Nat.lt_trichotomy i s.history.length with hi | rfl | hi
    · rw [List.getElem?_append_left hi] at hp
      exact .inl ⟨hi, hp⟩
    · rw [List.getElem?_concat_length, Option.some.injEq] at hp
      exact .inr ⟨rfl, hp.symm⟩
    · rw [List.getElem?_eq_none (by rw [List.length_append]; exact hi)] at hp
      cases hp
  refine ⟨graphAt', ⟨⟨(hbefore 0 (Nat.zero_le _)).trans h.timeline.begins, ?_, ?_⟩, ?_⟩, hbefore⟩
  · intro i p hp
    obtain ⟨hi, hp⟩ | ⟨rfl, rfl⟩ := hcases i p hp
    · rw [hbefore i (Nat.le_of_lt hi)]
      exact h.timeline.seen i p hp
    · rw [hbefore _ (Nat.le_refl _), h.now]
      exact hseen
  · intro i p hp
    obtain ⟨hi, hp⟩ | ⟨rfl, rfl⟩ := hcases i p hp
    · rw [hbefore i (Nat.le_of_lt hi), hbefore (i + 1) hi]
      exact h.timeline.goes i p hp
    · rw [hbefore _ (Nat.le_refl _), hafter, h.now]
      exact hgoes
  · rw [List.length_append]
    exact hafter

theorem LeadsTo.move {graphAt : ℕ → Graph} {s t : Session} (h : LeadsTo graphAt s)
    (hmove : Move s t) :
    ∃ graphAt', LeadsTo graphAt' t ∧ ∀ k ≤ s.history.length, graphAt' k = graphAt k := by
  cases hmove with
  | noted ho => exact h.occurred ho (.inl rfl)
  | counted made => exact ⟨graphAt, ⟨h.timeline, h.now⟩, fun _ _ => rfl⟩
  | listening bus latest => exact ⟨graphAt, ⟨h.timeline, h.now⟩, fun _ _ => rfl⟩
  | stepped hstep => exact h.occurred nofun (.inr ⟨_, _, rfl, hstep⟩)

theorem LeadsTo.moves {graphAt : ℕ → Graph} {s t : Session} (h : LeadsTo graphAt s)
    (hmoves : Moves s t) :
    ∃ graphAt', LeadsTo graphAt' t ∧ ∀ k ≤ s.history.length, graphAt' k = graphAt k := by
  induction hmoves with
  | refl => exact ⟨graphAt, h, fun _ _ => rfl⟩
  | tail hmoves hmove ih =>
    obtain ⟨graphAt', h', hsame⟩ := ih
    obtain ⟨graphAt'', h'', hsame'⟩ := h'.move hmove
    refine ⟨graphAt'', h'', fun k hk => (hsame' k ?_).trans (hsame k hk)⟩
    exact Nat.le_trans hk (Moves.keeps_history hmoves).length_le

/-- A run has a timeline that gives the graph after each of its commands. -/
theorem exists_timeline (schema : Option Schema) (policy : Policy) (provider : Option Provider)
    (depth : ℕ) (cs : List Command) :
    ∃ graphAt, LeadsTo graphAt (afterAll depth cs (start schema policy provider)) ∧
      ∀ before, before <+: cs →
        graphAt (afterAll depth before (start schema policy provider)).history.length =
          (afterAll depth before (start schema policy provider)).graph := by
  induction cs using List.reverseRecOn with
  | nil =>
    refine ⟨_, leadsTo_start schema policy provider, fun before hbefore => ?_⟩
    obtain rfl := List.prefix_nil.1 hbefore
    rfl
  | append_singleton cs c ih =>
    obtain ⟨graphAt, h, hprefix⟩ := ih
    have hafter : afterAll depth (cs ++ [c]) (start schema policy provider) =
        (carryOut (run depth c) (afterAll depth cs (start schema policy provider))).2 :=
      afterAll_append depth cs [c] _
    obtain ⟨graphAt', h', hsame⟩ := h.moves (moving_run depth c _)
    rw [← hafter] at h'
    refine ⟨graphAt', h', fun before hbefore => ?_⟩
    rcases List.prefix_concat_iff.1 hbefore with rfl | hbefore
    · exact h'.now
    · rw [← hprefix before hbefore]
      refine hsame _ ?_
      obtain ⟨rest, rfl⟩ := hbefore
      rw [afterAll_append]
      exact (moves_afterAll depth rest _).keeps_history.length_le

/-! ### What holds along a timeline -/

namespace Timeline

variable {schema : Option Schema} {history : List Occurrence} {graphAt : ℕ → Graph}
  (h : Timeline schema history graphAt) (htext : history.all Occurrence.textual = true)

include h htext

/-- The graph is valid at every moment. -/
theorem valid {k : ℕ} (hk : k ≤ history.length) : Valid schema (graphAt k) := by
  induction k with
  | zero =>
    rw [h.begins]
    exact valid_empty schema
  | succ k ih =>
    have hv := ih (Nat.le_of_succ_le hk)
    have ho : history[k]? = some history[k] := List.getElem?_eq_getElem hk
    rcases h.goes k _ ho with hsame | ⟨n, rest, htold, hstep⟩
    · rwa [hsame]
    · refine hstep.valid hv fun m hm p hp => ?_
      obtain rfl := Option.some.inj hm
      have htextual := List.all_eq_true.1 htext _ (List.getElem_mem hk)
      rw [htold] at htextual
      exact List.all_eq_true.1 htextual p hp

theorem succession (cls : EntityClass) :
    Succession (fun k => (graphAt k).roster cls) history.length where
  begins := by rw [h.begins, roster_empty]
  follows k hk := by
    have ho : history[k]? = some history[k] := List.getElem?_eq_getElem hk
    rcases h.goes k _ ho with hsame | ⟨n, rest, -, hstep⟩
    · rw [hsame]
      exact .left (List.Sublist.refl _)
    · exact hstep.follows (h.valid htext (Nat.le_of_lt hk)) cls

end Timeline

/-- Up to the moment `n`, entities keep their identifiers, their types and their order as long as
they last, and the order of those of one class, and of the edges of one node, is that in which they
were added. -/
structure KeepsOrder (graphAt : ℕ → Graph) (n : ℕ) : Prop where
  known : ∀ cls i j, i ≤ j → j ≤ n → ∀ id, Lasts (fun k => (graphAt k).roster cls) id i j →
    ∃ type, (graphAt i).known? cls id = some (id, type) ∧
      (graphAt j).known? cls id = some (id, type)
  order : ∀ cls i j, i ≤ j → j ≤ n → ∀ a b, Lasts (fun k => (graphAt k).roster cls) a i j →
    Lasts (fun k => (graphAt k).roster cls) b i j →
      ([a, b].Sublist ((graphAt j).roster cls).ids ↔ [a, b].Sublist ((graphAt i).roster cls).ids)
  added : ∀ cls j, j ≤ n → ∀ a b, [a, b].Sublist ((graphAt j).roster cls).ids ↔
    b ∈ ((graphAt j).roster cls).ids ∧ Senior (fun k => (graphAt k).roster cls) j a b
  edgesOf : ∀ j, j ≤ n → ∀ v a b, [a, b].Sublist (((graphAt j).edgesOf v).map (·.id)) ↔
    a ∈ ((graphAt j).edgesOf v).map (·.id) ∧ b ∈ ((graphAt j).edgesOf v).map (·.id) ∧
      Senior (fun k => (graphAt k).roster .edge) j a b

theorem Timeline.keepsOrder {schema : Option Schema} {history : List Occurrence}
    {graphAt : ℕ → Graph} (h : Timeline schema history graphAt)
    (htext : history.all Occurrence.textual = true) : KeepsOrder graphAt history.length where
  known cls i j hij hj id hid := by
    have hsuccession := h.succession htext cls
    obtain ⟨⟨id', type⟩, hmem, rfl⟩ := List.mem_map.1 (hid i (Nat.le_refl i) hij)
    have hi : i ≤ history.length := Nat.le_trans hij hj
    refine ⟨type, ?_, ?_⟩
    · exact ((h.valid htext hi).sound.known?_eq_some_iff cls _ _).2 ⟨hmem, rfl⟩
    · exact ((h.valid htext hj).sound.known?_eq_some_iff cls _ _).2
        ⟨(hsuccession.mem_iff_of_lasts hij hj hid type).2 hmem, rfl⟩
  order cls i j hij hj a b ha hb :=
    (h.succession htext cls).pair_sublist_iff_of_lasts hij hj ha hb
  added cls j hj a b := (h.succession htext cls).pair_sublist_iff hj a b
  edgesOf j hj v a b := by
    rw [(h.valid htext hj).sound.pair_sublist_edgesOf_iff]
    refine and_congr_right fun ha => and_congr_right fun hb => ?_
    have hids : b ∈ ((graphAt j).roster .edge).ids := by
      rw [ids_roster_edge]
      exact (List.filter_sublist.map _).subset hb
    exact ((h.succession htext .edge).pair_sublist_iff hj a b).trans (and_iff_right hids)

/-- Entities with texts for identifiers keep their types and their order in every run, whoever
listens and whatever fails: at all moments between which they are not deleted. -/
theorem keepsOrder_of_run {schema : Option Schema} {policy : Policy} {provider : Option Provider}
    {depth : ℕ} {cs : List Command}
    (htext : (afterAll depth cs (start schema policy provider)).textual = true) :
    (∃ graphAt, Timeline schema (afterAll depth cs (start schema policy provider)).history graphAt ∧
      ∀ before, before <+: cs →
        graphAt (afterAll depth before (start schema policy provider)).history.length =
          (afterAll depth before (start schema policy provider)).graph) ∧
    ∀ graphAt, Timeline schema (afterAll depth cs (start schema policy provider)).history graphAt →
      KeepsOrder graphAt (afterAll depth cs (start schema policy provider)).history.length := by
  have hschema : (afterAll depth cs (start schema policy provider)).schema = schema :=
    (moves_afterAll depth cs _).schema_eq
  obtain ⟨graphAt, hleads, hprefix⟩ := exists_timeline schema policy provider depth cs
  have htimeline := hleads.timeline
  rw [hschema] at htimeline
  exact ⟨⟨graphAt, htimeline, hprefix⟩, fun _ h => h.keepsOrder htext⟩

/-- After `pairedRun`, in which a listener makes a pair and fails, there is a pair the other way
round, and the first pair becomes a loop. -/
def loopedRun : List Command :=
  pairedRun ++ [.addEdge (pair "ba" "b" "a"),
    .updateEdge (.text "ab") (.record [("source_node_id", .text "b")])]

set_option maxRecDepth 2000 in
/-- The first pair is the last one in the adjacency now, but still the first of its node. -/
theorem loopedRun_keepsOrder :
    let s := afterAll 3 loopedRun (start none plainPolicy none)
    s.textual = true ∧
      s.graph.neighbors (.text "b") = [.text "a", .text "b"] ∧
      (s.graph.edgesOf (.text "b")).map (·.id) = [.text "ab", .text "ba"] ∧
      (∃ graphAt, Timeline none s.history graphAt ∧ ∀ before, before <+: loopedRun →
        graphAt (afterAll 3 before (start none plainPolicy none)).history.length =
          (afterAll 3 before (start none plainPolicy none)).graph) ∧
      ∀ graphAt, Timeline none s.history graphAt → KeepsOrder graphAt s.history.length :=
  have htext : (afterAll 3 loopedRun (start none plainPolicy none)).textual = true := by
    decide +kernel
  ⟨htext, by rfl, by rfl, keepsOrder_of_run htext⟩

end PropertyGraph.Session
