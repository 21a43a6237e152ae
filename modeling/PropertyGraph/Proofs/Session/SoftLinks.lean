import PropertyGraph.Proofs.Session.EdgeQuery
import PropertyGraph.Proofs.SoftLink.Listing

/-!
# Asking for soft links

No two nodes of a session are ever known by the same, whatever they are known by
(`Step.nodesApart`); so where they are known by texts, the soft links between them are as
`SoftLink.Suggested` says.  Asking for them changes nothing, and a higher threshold only leaves
links out (`softLinks_suggested`).
-/

namespace PropertyGraph

namespace Graph

/-- No two nodes are known by the same. -/
def NodesApart (g : Graph) : Prop := g.nodes.Pairwise fun m n => m.id.sameKey n.id = false

/-- A node takes the place of those that are known by an identifier, and is known by what the first
of them was known by. -/
theorem NodesApart.replaceNode {g : Graph} (hg : g.NodesApart) {id : Value} {n m : Node}
    (hn : g.node? id = some n) (hid : m.id = n.id) : (g.replaceNode id m).NodesApart := by
  have hnid : n.id.sameKey id = true := List.find?_some (p := fun n : Node => n.id.sameKey id) hn
  rw [NodesApart, Graph.replaceNode, List.pairwise_map]
  refine hg.imp ?_
  intro k l hkl
  by_cases hk : k.id.sameKey id = true
  · have hkn : k.id.sameKey n.id = true :=
      Value.sameKey_trans hk (Value.sameKey_comm n.id id ▸ hnid)
    -- were both known by the identifier, they would be known by the same
    have hl : l.id.sameKey id = false := by
      rw [← Bool.not_eq_true]
      intro hl
      rw [Value.sameKey_trans hk (Value.sameKey_comm l.id id ▸ hl)] at hkl
      cases hkl
    rw [if_pos hk, if_neg (by rw [hl]; nofun), hid]
    exact Value.sameKey_eq_false_of_sameKey (Value.sameKey_comm k.id n.id ▸ hkn) hkl
  · rw [if_neg hk]
    by_cases hl : l.id.sameKey id = true
    · rw [if_pos hl, hid, ← Bool.not_eq_true]
      intro hkn
      exact hk (Value.sameKey_trans hkn hnid)
    · rwa [if_neg hl]

theorem Step.nodesApart {schema : Option Schema} {g g' : Graph} {notices : List Notice}
    (h : Step schema g g' notices) (hg : g.NodesApart) : g'.NodesApart := by
  cases h with
  | @nodeAdded n _ h =>
    obtain ⟨hnew, -, -, rfl⟩ := addNode_eq_ok_iff.1 h
    refine List.pairwise_append.2 ⟨hg, List.pairwise_singleton _ _, fun m hm k hk => ?_⟩
    rw [List.mem_singleton.1 hk, ← Bool.not_eq_true]
    intro hsame
    rw [(hasNode_iff_exists g n.id).2 ⟨m, hm, hsame⟩] at hnew
    cases hnew
  | nodeUpdated h =>
    obtain ⟨n, hn, -, hm, -, rfl⟩ := updateNode_eq_some_iff.1 h
    exact hg.replaceNode hn (Node.id_type_of_updated hm).1
  | nodeDeleted h =>
    obtain ⟨-, -, rfl⟩ := deleteNode_eq_some_iff.1 h
    exact hg.filter _
  | edgeAdded h =>
    obtain ⟨-, -, -, rfl⟩ := addEdge_eq_ok_iff.1 h
    exact hg
  | edgeUpdated h =>
    obtain ⟨-, e, -, -, -, -, rfl⟩ := updateEdge_eq_some_iff.1 h
    exact hg
  | edgeDeleted h =>
    obtain ⟨e, -, rfl⟩ := edge?_of_deleteEdge h
    exact hg
  | @heldDeleted place _ _ h =>
    obtain ⟨e, -, -, rfl⟩ := deleteHeld_eq_some_iff.1 h
    rwa [NodesApart, nodes_removeHeld]
  | cleared => exact .nil

/-- Where nodes are known by texts, each is known by its own one. -/
theorem NodesApart.nodup_ids {g : Graph} (hg : g.NodesApart)
    (htexts : ∀ n ∈ g.nodes, isText n.id = true) : (g.nodes.map (·.id)).Nodup := by
  refine List.pairwise_map.2 (hg.imp_of_mem ?_)
  intro m n _ hn hapart
  exact (Value.sameKey_eq_false_iff (htexts n hn) m.id).1 hapart

end Graph

namespace Session

open SoftLink

variable {schema : Option Schema} {policy : Policy} {provider : Option Provider} {s : Session}

/-- No two nodes are known by the same in a session that comes about from an empty one. -/
theorem Moves.nodesApart (hs : Moves (start schema policy provider) s) : s.graph.NodesApart :=
  hs.shown (P := Graph.NodesApart) (fun hstep => hstep.nodesApart)
    (List.forall_mem_singleton.2 .nil) s.graph List.mem_cons_self

theorem carryOut_run_ask_softLinks (depth : Nat) (t : Value) (s : Session) :
    carryOut (run (depth + 1) (.ask (.softLinks t))) s =
      ((links (s.threshold t) s.graph.nodes).map .links, s) := by
  show carryOut (settle (s.answer (.softLinks t))) s = _
  rw [answer]
  cases links (s.threshold t) s.graph.nodes <;> rfl

/-- In every session, whatever the nodes are, as long as they are known by texts, and whatever the
score of two vectors is: the links are those that are to be suggested, the ones by similarity first;
asking for them changes nothing, and gives them when the vectors have these scores; and no higher
threshold gives others. -/
theorem softLinks_suggested (hs : Moves (start schema policy provider) s)
    (htexts : ∀ n ∈ s.graph.nodes, Graph.isText n.id = true) (score : Value → Value → Float)
    {t : Value} {bound : Exact} (ht : (s.threshold t).number? = some bound) (depth : Nat) :
    ∃ similar referring,
      Suggested score bound s.graph.nodes similar referring ∧
      linksBy (fun a b => .ok (score a b)) (s.threshold t) s.graph.nodes =
        .ok (similar ++ referring) ∧
      (carryOut (run (depth + 1) (.ask (.softLinks t))) s).2 = s ∧
      ((∀ a ∈ s.graph.nodes, ∀ b ∈ s.graph.nodes, ∀ xs ∈ a.embedding, ∀ ys ∈ b.embedding,
          Embedding.similarity (.tuple xs) (.tuple ys) = .ok (score (.tuple xs) (.tuple ys))) →
        (carryOut (run (depth + 1) (.ask (.softLinks t))) s).1 =
          .ok (.links (similar ++ referring))) ∧
      ∀ t' bound', (s.threshold t').number? = some bound' →
        bound.less bound' = true ∨ bound.same bound' = true →
        ∃ fewer, linksBy (fun a b => .ok (score a b)) (s.threshold t') s.graph.nodes = .ok fewer ∧
          fewer.Sublist (similar ++ referring) := by
  refine ⟨alike score bound s.graph.nodes, s.graph.nodes.flatMap (ofFields s.graph.nodes),
    suggested htexts (hs.nodesApart.nodup_ids htexts), linksBy_eq htexts ht,
    by rw [carryOut_run_ask_softLinks], fun hscore => ?_, fun t' bound' ht' hle => ?_⟩
  · have hlinks : links (s.threshold t) s.graph.nodes =
        linksBy (fun a b => .ok (score a b)) (s.threshold t) s.graph.nodes := linksBy_congr hscore
    rw [carryOut_run_ask_softLinks, hlinks, linksBy_eq htexts ht]
    rfl
  · exact ⟨_, linksBy_eq htexts ht', (alike_sublist hle _).append (List.Sublist.refl _)⟩

/-- Three items with vectors, where the first names the second, itself and nobody, and the last
names the first; a fourth one was there for a while. -/
def namingRun : List Command :=
  [("a", [("next", "b"), ("self", "a"), ("lost", "z")]), ("b", []), ("c", [("back", "a")])].map
    (fun p => .addNode (.record [("id", .text p.1), ("type", .text "item"),
      ("data", .record (p.2.map fun q => (q.1, .text q.2))),
      ("embedding", .list [.int 1, .int 0])])) ++
  [.addNode (.record [("id", .int 7), ("type", .text "item")]), .deleteNode (.int 7)]

theorem softLinks_of_namingRun :
    let s := afterAll 1 namingRun (start none plainPolicy none)
    s.graph.nodes.length = 3 ∧ (s.graph.nodes.all fun n => n.embedding.isSome) = true ∧
      (∀ n ∈ s.graph.nodes, Graph.isText n.id = true) ∧
      (s.threshold (.int 0)).number? = some (.ofInt 0) ∧
      ∃ similar referring,
        Suggested (fun _ _ => 1.0) (.ofInt 0) s.graph.nodes similar referring ∧
        linksBy (fun _ _ => .ok 1.0) (s.threshold (.int 0)) s.graph.nodes =
          .ok (similar ++ referring) ∧
        (similar ++ referring).length = 5 := by
  intro s
  have htexts : ∀ n ∈ s.graph.nodes, Graph.isText n.id = true := by decide +kernel
  have ht : (s.threshold (.int 0)).number? = some (.ofInt 0) := rfl
  obtain ⟨similar, referring, hsuggested, hlinks, -⟩ :=
    softLinks_suggested (moves_afterAll 1 namingRun _) htexts (fun _ _ => 1.0) ht 0
  have hlength : (linksBy (fun _ _ => .ok 1.0) (s.threshold (.int 0))
      s.graph.nodes).toOption.map List.length = some 5 := by decide +kernel
  rw [hlinks] at hlength
  exact ⟨by decide +kernel, by decide +kernel, htexts, ht, similar, referring, hsuggested, hlinks,
    Option.some.inj hlength⟩

end Session

end PropertyGraph
