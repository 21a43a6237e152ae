import PropertyGraph.Proofs.Json.Canonical
import PropertyGraph.Proofs.Session.Inhabited

/-!
# The text that a provider is asked with

When a node is made, the first thing that happens is that the provider is asked with the text of the
data, where a vector is wanted (`history_created`).  That text stands for the data: in whatever
sessions and of whatever types two nodes are made, the provider is asked with one text just when the
data is equal up to the order of names (`asked_texts_eq_iff`).
-/

namespace PropertyGraph.Session

variable {s t : Session}

/-- The next node that is made wants a vector, somebody provides it, and the clock can be read. -/
structure Asking (s : Session) : Prop where
  provided : ∃ provider, s.provider = some provider
  wanted : s.policy.embedOnCreate.truthy = true
  clock : ∃ time, clockText (s.made + 1) = .ok time

theorem history_created (hs : s.Asking) {r : Record Value} (hr : (Value.record r).Simple)
    (depth : ℕ) (type : Value) :
    ∃ later, (created depth type (.record r) s).2.history =
      s.history ++ .embedded (Json.write (.record r)) :: later := by
  obtain ⟨provider, hprovider⟩ := hs.provided
  obtain ⟨time, htime⟩ := hs.clock
  let id : Value := .text (freshId (s.made + 1))
  have hnew : newNode (s.made + 1) type (.record r) =
      .ok ⟨id, type, Fields.ofRecord r, .text time, .text time, none⟩ := by
    rw [newNode, htime, Value.toData_record]
    rfl
  generalize hn : (⟨id, type, Fields.ofRecord r, .text time, .text time, none⟩ : Node) = n at hnew
  have htext : embeddedText n = .ok (Json.write (.record r)) := by
    rw [← hn, embeddedText, Value.ofFields_ofRecord, Json.write?,
      if_pos (Json.writable_of_simple hr)]
  have hasked := carryOut_withVector (s := { s with made := s.made + 1 }) hprovider hs.wanted n
  rw [carryOut_embed, htext] at hasked
  have hmoves := moves_bind (a := withVector n) (k := fun m => do
      addNode (run depth) m
      return Outcome.node (some m))
    (fun m => ((oneStep_addNode m).andReturn _).single.moving (moving_run depth))
    { s with made := s.made + 1 }
  rw [created_eq, hnew]
  have hkept := hmoves.keeps_history
  rw [hasked] at hkept
  obtain ⟨later, hlater⟩ := hkept
  refine ⟨later, ?_⟩
  rw [← hlater, List.append_assoc]
  rfl

/-- Two nodes are made, in whatever sessions and of whatever types: the provider is asked with one
text just when their data is equal up to the order of names at every depth. -/
theorem asked_texts_eq_iff (hs : s.Asking) (ht : t.Asking) {r r' : Record Value}
    (hr : (Value.record r).Simple) (hr' : (Value.record r').Simple) (depth depth' : ℕ)
    (type type' : Value) :
    ∃ text text' later later',
      (created depth type (.record r) s).2.history = s.history ++ .embedded text :: later ∧
      (created depth' type' (.record r') t).2.history = t.history ++ .embedded text' :: later' ∧
      (text = text' ↔ (Value.record r).Reordered (.record r')) := by
  obtain ⟨later, hlater⟩ := history_created hs hr depth type
  obtain ⟨later', hlater'⟩ := history_created ht hr' depth' type'
  refine ⟨_, _, later, later', hlater, hlater', ?_⟩
  rw [Json.write, Json.write, String.ofList_inj, Json.text_eq_iff hr hr']

/-- Names in another order, somewhere inside, and everything else about the nodes is different. -/
theorem asked_text_of_shuffled :
    let s := lenient .lengths
    let t := { start none ⟨.int 1, .propagate, .null⟩ (some .lengths) with made := 41 }
    let tag : Record Value := [("name", .text "Zoë"), ("since", .int (-1)), ("kept", .bool true)]
    let r : Record Value := [("tags", .list [.record tag, .null])]
    let r' : Record Value := [("tags", .list [.record tag.reverse, .null])]
    s.Asking ∧ t.Asking ∧ (Value.record r).Simple ∧ (Value.record r').Simple ∧
      ∃ text later later',
        (created 2 (.text "item") (.record r) s).2.history = .embedded text :: later ∧
        (created 0 (.int 7) (.record r') t).2.history = .embedded text :: later' := by
  intro s t tag r r'
  have hs : s.Asking := ⟨⟨_, rfl⟩, rfl, exists_clockText (by decide)⟩
  have ht : t.Asking := ⟨⟨_, rfl⟩, rfl, exists_clockText (by decide)⟩
  have htag : ∀ p ∈ tag, p.2.Simple := by
    simp [tag, Value.Simple.text, Value.Simple.int, Value.Simple.bool]
  have hsimple : ∀ {fs : Record Value}, (Value.record fs).Simple →
      (Value.record [("tags", .list [.record fs, .null])]).Simple := by
    intro fs hfs
    refine .record (List.nodup_singleton _) (List.forall_mem_singleton.2 (.list ?_))
    exact List.forall_mem_cons.2 ⟨hfs, List.forall_mem_singleton.2 .null⟩
  have hr : (Value.record r).Simple := hsimple (.record (by decide) htag)
  have hr' : (Value.record r').Simple :=
    hsimple (.record (by decide) fun p hp => htag p (List.mem_reverse.1 hp))
  have hreordered : (Value.record r).Reordered (.record r') := by
    refine .record (List.Perm.refl _) fun name v w hv hw => ?_
    cases List.mem_singleton.1 hv
    cases List.mem_singleton.1 hw
    refine .list rfl fun i v w hv hw => ?_
    cases i with
    | zero =>
      cases hv
      cases hw
      exact .of_perm (List.reverse_perm tag).symm (by decide)
    | succ i =>
      cases hv.symm.trans hw
      exact .refl _
  obtain ⟨text, text', later, later', hlater, hlater', hiff⟩ :=
    asked_texts_eq_iff hs ht hr hr' 2 0 (.text "item") (.int 7)
  rw [← hiff.2 hreordered] at hlater'
  exact ⟨hs, ht, hr, hr', text, later, later', hlater, hlater'⟩

end PropertyGraph.Session
