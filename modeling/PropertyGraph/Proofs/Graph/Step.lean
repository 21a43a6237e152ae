import PropertyGraph.Graph.Change
import PropertyGraph.Event
import PropertyGraph.Proofs.Graph.Conforming

/-!
# Steps of a graph

`Step schema g g' notices` says that one operation turns the graph `g` into `g'`, which is then told
by `notices`.  A graph is *valid* when it is sound, linked and conforms to the schema, if there is
one.  Every step leads from a valid graph to a valid one (`Step.valid`), so long as what is added
has a text for its identifier.
-/

namespace PropertyGraph

/-! ### Replacing one of several things -/

section Replacing

variable {α : Type} {l : List α} {id : α → Value}

/-- Replacing what has an identifier leaves the others. -/
theorem replace_perm (ht : ∀ x ∈ l, Graph.isText (id x) = true) (hn : (l.map id).Nodup) {x : α}
    (hx : x ∈ l) (z : α) :
    (l.map fun y => if (id y).sameKey (id x) then z else y).Perm
      (z :: l.filter fun y => !(id y).sameKey (id x)) := by
  induction l with
  | nil => cases hx
  | cons y rest ih =>
    have htx := ht x hx
    rw [List.map_cons, List.nodup_cons] at hn
    rw [List.map_cons, List.filter_cons]
    by_cases hy : (id y).sameKey (id x) = true
    · -- no other thing has this identifier, so that the rest stays as it is
      have hother : ∀ w ∈ rest, (id w).sameKey (id x) = false := by
        intro w hw
        rw [Value.sameKey_eq_false_iff htx, ← (Value.sameKey_iff_eq htx (id y)).1 hy]
        exact fun h => hn.1 (h ▸ List.mem_map_of_mem hw)
      have hmap : (rest.map fun w => if (id w).sameKey (id x) then z else w) = rest := by
        refine (List.map_congr_left fun w hw => ?_).trans (List.map_id rest)
        rw [hother w hw]
        rfl
      have hfilter : (rest.filter fun w => !(id w).sameKey (id x)) = rest :=
        List.filter_eq_self.2 fun w hw => by rw [hother w hw]; rfl
      rw [if_pos hy, hmap, hy, hfilter]
      exact List.Perm.refl _
    · have hne : y ≠ x := fun h => hy ((Value.sameKey_iff_eq htx (id y)).2 (h ▸ rfl))
      have hrest : x ∈ rest := (List.mem_cons.1 hx).resolve_left hne.symm
      have hperm := ih (fun w hw => ht w (List.mem_cons_of_mem y hw)) hn.2 hrest
      rw [if_neg hy, if_pos (by rw [Bool.not_eq_true] at hy; rw [hy]; rfl)]
      exact (hperm.cons y).trans (List.Perm.swap z y _)

theorem mem_replace_iff (ht : ∀ x ∈ l, Graph.isText (id x) = true) (hn : (l.map id).Nodup) {x : α}
    (hx : x ∈ l) (z y : α) :
    y ∈ (l.map fun w => if (id w).sameKey (id x) then z else w) ↔
      y = z ∨ y ∈ l ∧ id y ≠ id x := by
  rw [(replace_perm ht hn hx z).mem_iff, List.mem_cons, List.mem_filter, Bool.not_eq_true',
    Value.sameKey_eq_false_iff (ht x hx)]

theorem map_id_replace (ht : ∀ x ∈ l, Graph.isText (id x) = true) {v : Value} {z : α}
    (hz : id z = v) :
    (l.map fun y => if (id y).sameKey v then z else y).map id = l.map id := by
  rw [List.map_map]
  refine List.map_congr_left fun y hy => ?_
  rw [Function.comp_apply]
  split
  · rename_i hkey
    rw [hz, (Value.sameKey_iff_eq_left (ht y hy) v).1 hkey]
  · rfl

section Place

variable (ht : ∀ x ∈ l, Graph.isText (id x) = true) (hn : (l.map id).Nodup) {x : α}
  {before after : List α} (hsplit : l = before ++ x :: after)

include ht hn hsplit

/-- What stands before and after something has other identifiers. -/
theorem sameKey_eq_false_of_split {y : α} (hy : y ∈ before ++ after) :
    (id y).sameKey (id x) = false := by
  have hx : x ∈ l := hsplit ▸ List.mem_append_right before List.mem_cons_self
  rw [hsplit, List.map_append, List.map_cons, List.nodup_middle, List.nodup_cons,
    ← List.map_append] at hn
  rw [Value.sameKey_eq_false_iff (ht x hx)]
  exact fun hid => hn.1 (hid ▸ List.mem_map_of_mem hy)

omit hn in
theorem sameKey_self_of_split : (id x).sameKey (id x) = true := by
  have hx : x ∈ l := hsplit ▸ List.mem_append_right before List.mem_cons_self
  exact (Value.sameKey_iff_eq (ht x hx) (id x)).2 rfl

/-- What is replaced is replaced in its place. -/
theorem replace_of_split (z : α) :
    (l.map fun y => if (id y).sameKey (id x) then z else y) = before ++ z :: after := by
  have hother : ∀ m ⊆ before ++ after,
      (m.map fun y => if (id y).sameKey (id x) then z else y) = m := by
    intro m hm
    refine (List.map_congr_left fun y hy => ?_).trans (List.map_id m)
    rw [sameKey_eq_false_of_split ht hn hsplit (hm hy)]
    rfl
  have hself : (if (id x).sameKey (id x) then z else x) = z :=
    if_pos (sameKey_self_of_split ht hsplit)
  conv_lhs => rw [hsplit]
  rw [List.map_append, List.map_cons, hself, hother before (List.subset_append_left _ _),
    hother after (List.subset_append_right _ _)]

/-- What is taken out is taken out of its place. -/
theorem remove_of_split :
    (l.filter fun y => !(id y).sameKey (id x)) = before ++ after := by
  have hother : ∀ m ⊆ before ++ after, (m.filter fun y => !(id y).sameKey (id x)) = m := by
    intro m hm
    refine List.filter_eq_self.2 fun y hy => ?_
    rw [sameKey_eq_false_of_split ht hn hsplit (hm hy)]
    rfl
  have hself : (!(id x).sameKey (id x)) = false := by
    rw [sameKey_self_of_split ht hsplit]
    rfl
  conv_lhs => rw [hsplit]
  rw [List.filter_append, List.filter_cons, hself, hother before (List.subset_append_left _ _),
    hother after (List.subset_append_right _ _)]
  rfl

end Place

end Replacing

/-- Whether what is told as added has a text for its identifier. -/
def Payload.textual : Payload → Bool
  | .node n => Graph.isText n.id
  | .edge e => Graph.isText e.id
  | _ => true

namespace Graph

/-! ### What the operations do -/

theorem addNode_eq_ok_iff {schema : Option Schema} {g g' : Graph} {n : Node} :
    g.addNode schema n = .ok g' ↔
      g.hasNode n.id = false ∧ checkNode schema n = .ok () ∧ requireNodeId n.id = .ok () ∧
        g' = { g with nodes := g.nodes ++ [n] } := by
  unfold addNode
  cases g.hasNode n.id with
  | true => exact iff_of_false nofun (by simp)
  | false =>
    simp only [Bool.false_eq_true, if_false, bind_eq_ok_iff, true_and]
    constructor
    · rintro ⟨⟨⟩, hcheck, ⟨⟩, hid, hg⟩
      exact ⟨hcheck, hid, (Except.ok.inj hg).symm⟩
    · rintro ⟨hcheck, hid, rfl⟩
      exact ⟨(), hcheck, (), hid, rfl⟩

theorem updateNode_eq_some_iff {schema : Option Schema} {g g' : Graph} {id v : Value} {m : Node}
    {changes : Record Value} :
    g.updateNode schema id v = .ok (some (g', m, changes)) ↔
      ∃ n, g.node? id = some n ∧ requireChanges Node.updatable n.type .node v = .ok changes ∧
        n.updated changes = .ok m ∧ checkNode schema m = .ok () ∧ g' = g.replaceNode id m := by
  unfold updateNode
  cases g.node? id with
  | none => exact iff_of_false nofun (by simp)
  | some n =>
    simp only [bind_eq_ok_iff, Option.some.injEq, exists_eq_left']
    constructor
    · rintro ⟨cs, hcs, m', hm, ⟨⟩, hcheck, h⟩
      cases h
      exact ⟨hcs, hm, hcheck, rfl⟩
    · rintro ⟨hcs, hm, hcheck, rfl⟩
      exact ⟨changes, hcs, m, hm, (), hcheck, rfl⟩

theorem deleteNode_eq_some_iff {g g' : Graph} {id : Value} {edges : List Value} :
    g.deleteNode id = some (g', edges) ↔
      g.hasNode id = true ∧ edges = (g.edgesOf id).map (·.id) ∧ g' = {
        nodes := g.nodes.filter fun n => !n.id.sameKey id
        edges := g.edges.filter fun e => !touches e id
        adjacency := g.adjacency.dropNode id } := by
  unfold deleteNode
  cases g.hasNode id with
  | false => exact iff_of_false nofun (by simp)
  | true =>
    simp only [if_true, Option.some.injEq, Prod.mk.injEq, true_and]
    exact ⟨fun h => ⟨h.2.symm, h.1.symm⟩, fun h => ⟨h.2.symm, h.1.symm⟩⟩

theorem addEdge_eq_ok_iff {schema : Option Schema} {g g' : Graph} {e : Edge} :
    g.addEdge schema e = .ok g' ↔
      requireKey e.id = .ok () ∧ g.hasEdge e.id = false ∧ g.checkEdge schema e .null = .ok () ∧
        g' = { g with edges := g.edges ++ [e], adjacency := g.adjacency.link e.id e } := by
  unfold addEdge
  simp only [bind_eq_ok_iff]
  cases g.hasEdge e.id with
  | true => exact iff_of_false (by rintro ⟨-, -, h⟩; cases h) (by simp)
  | false =>
    simp only [Bool.false_eq_true, if_false, bind_eq_ok_iff, true_and]
    constructor
    · rintro ⟨⟨⟩, hid, ⟨⟩, hcheck, hg⟩
      exact ⟨hid, hcheck, (Except.ok.inj hg).symm⟩
    · rintro ⟨hid, hcheck, rfl⟩
      exact ⟨(), hid, (), hcheck, rfl⟩

theorem updateEdge_eq_some_iff {schema : Option Schema} {g g' : Graph} {id v : Value} {f : Edge}
    {changes : Record Value} :
    g.updateEdge schema id v = .ok (some (g', f, changes)) ↔
      requireKey id = .ok () ∧ ∃ e, g.edge? id = some e ∧
        requireChanges Edge.updatable e.type .edge v = .ok changes ∧
          e.updated changes = .ok f ∧ g.checkEdge schema f id = .ok () ∧
            g' = g.replaceEdge id e f := by
  unfold updateEdge
  simp only [bind_eq_ok_iff]
  cases g.edge? id with
  | none => exact iff_of_false (by rintro ⟨-, -, h⟩; cases h) (by simp)
  | some e =>
    simp only [bind_eq_ok_iff, Option.some.injEq, exists_eq_left']
    constructor
    · rintro ⟨⟨⟩, hid, cs, hcs, f', hf, ⟨⟩, hcheck, h⟩
      cases h
      exact ⟨hid, hcs, hf, hcheck, rfl⟩
    · rintro ⟨hid, hcs, hf, hcheck, rfl⟩
      exact ⟨(), hid, changes, hcs, f, hf, (), hcheck, rfl⟩

theorem edge?_of_deleteEdge {g g' : Graph} {id : Value} (h : g.deleteEdge id = .ok (some g')) :
    ∃ e, g.edge? id = some e ∧ g' = g.removeEdge id e := by
  have hmap : (g.edge? id).map (g.removeEdge id) = some g' := by
    unfold deleteEdge at h
    split at h
    · exact Except.ok.inj h
    · obtain ⟨_, -, h⟩ := bind_eq_ok_iff.1 h
      exact Except.ok.inj h
  obtain ⟨e, he, hg⟩ := Option.map_eq_some_iff.1 hmap
  exact ⟨e, he, hg.symm⟩

theorem deleteHeld_eq_some_iff {g g' : Graph} {place : Nat} {id : Value} :
    g.deleteHeld place = some (g', id) ↔
      ∃ e, g.edges[place]? = some e ∧ id = e.id ∧ g' = g.removeHeld place e := by
  rw [deleteHeld, Option.map_eq_some_iff]
  refine exists_congr fun e => and_congr_right fun _ => ?_
  rw [Prod.mk.injEq, and_comm, eq_comm, eq_comm (a := g')]

/-- An edge that is found by a value like its identifier is removed in the same way. -/
theorem removeHeld_of_sameKey {g : Graph} {e : Edge} (h : e.id.sameKey e.id = true) (place : Nat) :
    g.removeHeld place e = g.removeEdge e.id e := by
  rw [removeHeld, if_neg]
  rw [Value.elusive, h]
  exact Bool.false_ne_true

theorem nodes_removeHeld (g : Graph) (place : Nat) (e : Edge) :
    (g.removeHeld place e).nodes = g.nodes := by
  rw [removeHeld]
  split <;> rfl

theorem edges_removeHeld_sublist (g : Graph) (place : Nat) (e : Edge) :
    (g.removeHeld place e).edges.Sublist g.edges := by
  rw [removeHeld]
  split
  · exact List.eraseIdx_sublist _ _
  · exact List.filter_sublist

/-! ### Steps -/

/-- One operation turns a graph into another one, which is told by these notices. -/
inductive Step (schema : Option Schema) (g : Graph) : Graph → List Notice → Prop
  | nodeAdded {n : Node} {g' : Graph} :
    g.addNode schema n = .ok g' → Step schema g g' [.nodeAdded n]
  | nodeUpdated {id v : Value} {m : Node} {changes : Record Value} {g' : Graph} :
    g.updateNode schema id v = .ok (some (g', m, changes)) →
      Step schema g g' [.nodeUpdated m changes]
  | nodeDeleted {id : Value} {edges : List Value} {g' : Graph} :
    g.deleteNode id = some (g', edges) → Step schema g g' (Notice.ofDeletion id edges)
  | edgeAdded {e : Edge} {g' : Graph} :
    g.addEdge schema e = .ok g' → Step schema g g' [.edgeAdded e]
  | edgeUpdated {id v : Value} {f : Edge} {changes : Record Value} {g' : Graph} :
    g.updateEdge schema id v = .ok (some (g', f, changes)) →
      Step schema g g' [.edgeUpdated f changes]
  | edgeDeleted {id : Value} {g' : Graph} :
    g.deleteEdge id = .ok (some g') → Step schema g g' [.edgeDeleted id]
  | heldDeleted {place : Nat} {id : Value} {g' : Graph} :
    g.deleteHeld place = some (g', id) → Step schema g g' [.edgeDeleted id]
  | cleared : Step schema g .empty [.cleared]

theorem Step.notices_ne_nil {schema : Option Schema} {g g' : Graph} {notices : List Notice}
    (h : Step schema g g' notices) : notices ≠ [] := by
  cases h <;> simp [Notice.ofDeletion]

/-- Where identifiers are texts, the very identifier of an edge finds what a value like it does. -/
theorem Sound.removed_of_deleteHeld {g g' : Graph} (hg : g.Sound) {place : Nat} {id : Value}
    (h : g.deleteHeld place = some (g', id)) :
    ∃ e ∈ g.edges, id = e.id ∧ g' = g.removeEdge e.id e := by
  obtain ⟨e, he, rfl, rfl⟩ := deleteHeld_eq_some_iff.1 h
  have hmem := List.mem_of_getElem? he
  exact ⟨e, hmem, rfl,
    removeHeld_of_sameKey ((Value.sameKey_iff_eq (hg.edgeTexts e hmem) e.id).2 rfl) place⟩

/-- A graph is sound, linked, and as the schema declares. -/
structure Valid (schema : Option Schema) (g : Graph) : Prop where
  sound : g.Sound
  linked : g.Linked
  conforming : ∀ s, schema = some s → g.Conforming s

theorem valid_empty (schema : Option Schema) : Valid schema empty :=
  ⟨sound_empty, linked_empty, fun s _ => conforming_empty s⟩

/-! ### Steps lead to valid graphs -/

/-- The ends that an edge has among some nodes are among other nodes too, of the same types. -/
def EndsKept (nodes nodes' : List Node) (e : Edge) : Prop :=
  ∀ side, ∀ n ∈ nodes, n.id = e.endpoint side →
    ∃ m ∈ nodes', m.id = e.endpoint side ∧ m.type = n.type

theorem EdgeFits.of_endsKept {s : Schema} {nodes nodes' : List Node} {e : Edge}
    (h : EdgeFits s nodes e) (hkept : EndsKept nodes nodes' e) : EdgeFits s nodes' e := by
  obtain ⟨name, t, htype, hdecl, hdata, hends⟩ := h
  refine ⟨name, t, htype, hdecl, hdata, fun side => ?_⟩
  obtain ⟨n, hn, hid, hn'⟩ := hends side
  obtain ⟨m, hm, hid', hm'⟩ := hkept side n hn hid
  exact ⟨m, hm, hid', hm'.trans hn'⟩

/-- A new identifier does not repeat one that is there. -/
theorem nodup_map_append_singleton {α : Type} {l : List α} {x : α} {id : α → Value}
    (h : (l.map id).Nodup) (hnew : ∀ y ∈ l, id y ≠ id x) : ((l ++ [x]).map id).Nodup := by
  rw [List.map_append, List.nodup_append]
  refine ⟨h, List.nodup_singleton _, ?_⟩
  intro u hu v hv huv
  obtain ⟨y, hy, rfl⟩ := List.mem_map.1 hu
  exact hnew y hy (huv.trans (List.mem_singleton.1 hv))

namespace Valid

variable {schema : Option Schema} {g : Graph}

/-- The nodes may be exchanged for others, if these have texts for identifiers and fit, and if the
edges keep their ends. -/
theorem withNodes (hv : Valid schema g) {nodes : List Node}
    (htexts : ∀ n ∈ nodes, isText n.id = true) (hids : (nodes.map (·.id)).Nodup)
    (hfits : ∀ s, schema = some s → ∀ n ∈ nodes, NodeFits s n)
    (hkept : ∀ e ∈ g.edges, EndsKept g.nodes nodes e) : Valid schema { g with nodes } where
  sound := {
    nodeTexts := htexts
    edgeTexts := hv.sound.edgeTexts
    nodeIds := hids
    edgeIds := hv.sound.edgeIds
    ends := by
      intro e he side
      obtain ⟨n, hn, hid⟩ := hv.sound.ends e he side
      obtain ⟨m, hm, hid', -⟩ := hkept e he side n hn hid
      exact ⟨m, hm, hid'⟩ }
  linked := ⟨hv.linked.tidy, hv.linked.entries⟩
  conforming := fun s hs => {
    nodes := hfits s hs
    edges := fun e he => ((hv.conforming s hs).edges e he).of_endsKept (hkept e he)
    single := (hv.conforming s hs).single }

theorem addNode (hv : Valid schema g) {n : Node} (ht : isText n.id = true)
    (hnew : g.hasNode n.id = false) (hfit : ∀ s, schema = some s → NodeFits s n) :
    Valid schema { g with nodes := g.nodes ++ [n] } := by
  have hids : ∀ m ∈ g.nodes, m.id ≠ n.id := by
    intro m hm hid
    rw [(hv.sound.hasNode_iff n.id).2 ⟨m, hm, hid⟩] at hnew
    cases hnew
  apply hv.withNodes
  · exact List.forall_mem_append.2 ⟨hv.sound.nodeTexts, List.forall_mem_singleton.2 ht⟩
  · exact nodup_map_append_singleton hv.sound.nodeIds hids
  · intro s hs
    exact List.forall_mem_append.2
      ⟨(hv.conforming s hs).nodes, List.forall_mem_singleton.2 (hfit s hs)⟩
  · intro e _ side m hm hid
    exact ⟨m, List.mem_append_left _ hm, hid, rfl⟩

/-- A node may be replaced by one that is known by the same text and is of the same type. -/
theorem replaceNode (hv : Valid schema g) {n m : Node} (hn : n ∈ g.nodes) (hid : m.id = n.id)
    (htype : m.type = n.type) (hfit : ∀ s, schema = some s → NodeFits s m) :
    Valid schema (g.replaceNode n.id m) := by
  have hmem := mem_replace_iff hv.sound.nodeTexts hv.sound.nodeIds hn m
  have hmap := map_id_replace hv.sound.nodeTexts hid
  apply hv.withNodes
  · intro k hk
    rcases (hmem k).1 hk with rfl | ⟨hk, -⟩
    · exact hid ▸ hv.sound.nodeTexts n hn
    · exact hv.sound.nodeTexts k hk
  · exact (congrArg List.Nodup hmap).mpr hv.sound.nodeIds
  · intro s hs k hk
    rcases (hmem k).1 hk with rfl | ⟨hk, -⟩
    · exact hfit s hs
    · exact (hv.conforming s hs).nodes k hk
  · intro e _ side k hk hke
    by_cases h : k.id = n.id
    · obtain rfl := List.inj_on_of_nodup_map hv.sound.nodeIds hk hn h
      exact ⟨m, (hmem m).2 (Or.inl rfl), hid.trans hke, htype⟩
    · exact ⟨k, (hmem k).2 (Or.inr ⟨hk, h⟩), hke, rfl⟩

/-- A node may be deleted together with the edges that touch it. -/
theorem deleteNode (hv : Valid schema g) (id : Value) :
    Valid schema {
      nodes := g.nodes.filter fun n => !n.id.sameKey id
      edges := g.edges.filter fun e => !touches e id
      adjacency := g.adjacency.dropNode id } := by
  have hedge : ∀ e ∈ g.edges.filter (fun e => !touches e id), e ∈ g.edges ∧ touches e id = false :=
    fun e he => by simpa using List.mem_filter.1 he
  -- the ends of the edges that stay are other nodes, so that these stay too
  have hkept : ∀ e, touches e id = false →
      EndsKept g.nodes (g.nodes.filter fun n => !n.id.sameKey id) e := by
    intro e htouch side n hn hne
    rw [touches, Bool.or_eq_false_iff] at htouch
    refine ⟨n, List.mem_filter.2 ⟨hn, ?_⟩, hne, rfl⟩
    rw [hne]
    cases side
    · rw [Edge.endpoint_source, htouch.1]
      rfl
    · rw [Edge.endpoint_target, htouch.2]
      rfl
  have hentries : (g.edges.map Edge.entry).filter
      (fun x => !x.source.sameKey id && !x.target.sameKey id) =
        (g.edges.filter fun e => !touches e id).map Edge.entry := by
    rw [List.filter_map]
    refine congrArg (List.map Edge.entry) (List.filter_congr fun e _ => ?_)
    simp [touches, Edge.entry]
  refine ⟨⟨?_, ?_, ?_, ?_, ?_⟩, ⟨hv.linked.tidy.dropNode id, ?_⟩, fun s hs => ⟨?_, ?_, ?_⟩⟩
  · exact fun n hn => hv.sound.nodeTexts n (List.mem_filter.1 hn).1
  · exact fun e he => hv.sound.edgeTexts e (hedge e he).1
  · exact hv.sound.nodeIds.sublist (List.filter_sublist.map _)
  · exact hv.sound.edgeIds.sublist (List.filter_sublist.map _)
  · intro e he side
    obtain ⟨n, hn, hne⟩ := hv.sound.ends e (hedge e he).1 side
    obtain ⟨m, hm, hme, -⟩ := hkept e (hedge e he).2 side n hn hne
    exact ⟨m, hm, hme⟩
  · rw [Adjacency.entries_dropNode, ← hentries]
    exact hv.linked.entries.filter _
  · exact fun n hn => (hv.conforming s hs).nodes n (List.mem_filter.1 hn).1
  · intro e he
    exact ((hv.conforming s hs).edges e (hedge e he).1).of_endsKept (hkept e (hedge e he).2)
  · exact (hv.conforming s hs).single.sublist List.filter_sublist

theorem addEdge (hv : Valid schema g) {e : Edge} (ht : isText e.id = true)
    (hnew : g.hasEdge e.id = false) (hcheck : g.checkEdge schema e .null = .ok ()) :
    Valid schema { g with edges := g.edges ++ [e], adjacency := g.adjacency.link e.id e } := by
  obtain ⟨hends, hfit⟩ := (checkEdge_eq_ok_iff hv.sound hv.linked schema e .null).1 hcheck
  have hids : ∀ f ∈ g.edges, f.id ≠ e.id := by
    intro f hf hid
    rw [(hv.sound.hasEdge_iff e.id).2 ⟨f, hf, hid⟩] at hnew
    cases hnew
  have htext : ∀ side, isText (e.endpoint side) = true := by
    intro side
    obtain ⟨n, hn, hid⟩ := hends side
    exact hid ▸ hv.sound.nodeTexts n hn
  refine ⟨⟨hv.sound.nodeTexts, ?_, hv.sound.nodeIds, ?_, ?_⟩,
    ⟨hv.linked.tidy.link (htext .source) (htext .target) e.id, ?_⟩,
    fun s hs => ⟨(hv.conforming s hs).nodes, ?_, ?_⟩⟩
  · exact List.forall_mem_append.2 ⟨hv.sound.edgeTexts, List.forall_mem_singleton.2 ht⟩
  · exact nodup_map_append_singleton hv.sound.edgeIds hids
  · exact List.forall_mem_append.2 ⟨hv.sound.ends, List.forall_mem_singleton.2 hends⟩
  · have hkeys : ∀ x ∈ g.adjacency.entries, x.key ≠ e.id := by
      intro x hx
      obtain ⟨f, hf, rfl⟩ := List.mem_map.1 (hv.linked.entries.subset hx)
      exact hids f hf
    have hlink := Adjacency.entries_link_perm (htext .source) (htext .target) ht _ hkeys
    rw [List.map_append]
    exact (hlink.trans (hv.linked.entries.cons e.entry)).trans
      (List.perm_append_singleton e.entry _).symm
  · exact List.forall_mem_append.2
      ⟨(hv.conforming s hs).edges, List.forall_mem_singleton.2 (hfit s hs).1⟩
  · refine List.pairwise_append.2 ⟨(hv.conforming s hs).single, List.pairwise_singleton _ _, ?_⟩
    intro f hf
    exact List.forall_mem_singleton.2 ((hfit s hs).2 f hf (hv.sound.edge_named hf))

/-- Unlinking an edge takes away its entry, and leaves the others as they are. -/
theorem entries_unlink (hv : Valid schema g) {e : Edge} (he : e ∈ g.edges) :
    (g.adjacency.unlink e).entries = g.adjacency.entries.filter fun x => !x.key.sameKey e.id := by
  have honly : ∀ x ∈ g.adjacency.entries, x.key = e.id →
      x.source = e.source ∧ x.target = e.target := by
    intro x hx hkey
    obtain ⟨f, hf, rfl⟩ := List.mem_map.1 (hv.linked.entries.subset hx)
    obtain rfl := List.inj_on_of_nodup_map hv.sound.edgeIds hf he hkey
    exact ⟨rfl, rfl⟩
  exact Adjacency.entries_unlink (hv.sound.isText_endpoint he .source)
    (hv.sound.isText_endpoint he .target) (hv.sound.edgeTexts e he) hv.linked.tidy.apart honly

/-- What is left in the adjacency without one edge. -/
theorem entries_unlink_perm (hv : Valid schema g) {e : Edge} (he : e ∈ g.edges) :
    (g.adjacency.unlink e).entries.Perm
      ((g.edges.filter fun f => !f.id.sameKey e.id).map Edge.entry) := by
  have hfilter : (g.edges.map Edge.entry).filter (fun x => !x.key.sameKey e.id) =
      (g.edges.filter fun f => !f.id.sameKey e.id).map Edge.entry := by
    rw [List.filter_map]
    rfl
  rw [hv.entries_unlink he, ← hfilter]
  exact hv.linked.entries.filter _

theorem removeEdge (hv : Valid schema g) {e : Edge} (he : e ∈ g.edges) :
    Valid schema (g.removeEdge e.id e) := by
  have hmem : ∀ f ∈ (g.removeEdge e.id e).edges, f ∈ g.edges :=
    fun f hf => (List.mem_filter.1 hf).1
  exact {
    sound := {
      nodeTexts := hv.sound.nodeTexts
      edgeTexts := fun f hf => hv.sound.edgeTexts f (hmem f hf)
      nodeIds := hv.sound.nodeIds
      edgeIds := hv.sound.edgeIds.sublist (List.filter_sublist.map _)
      ends := fun f hf => hv.sound.ends f (hmem f hf) }
    linked := ⟨hv.linked.tidy.unlink e, hv.entries_unlink_perm he⟩
    conforming := fun s hs => {
      nodes := (hv.conforming s hs).nodes
      edges := fun f hf => (hv.conforming s hs).edges f (hmem f hf)
      single := (hv.conforming s hs).single.sublist List.filter_sublist } }

/-- An edge may be replaced by one that is known by the same text, if the checks pass that do not
count the old one. -/
theorem replaceEdge (hv : Valid schema g) {e f : Edge} (he : e ∈ g.edges) (hid : f.id = e.id)
    (hcheck : g.checkEdge schema f e.id = .ok ()) : Valid schema (g.replaceEdge e.id e f) := by
  obtain ⟨hends, hfit⟩ := (checkEdge_eq_ok_iff hv.sound hv.linked schema f e.id).1 hcheck
  have htext : ∀ side, isText (f.endpoint side) = true := by
    intro side
    obtain ⟨n, hn, hne⟩ := hends side
    exact hne ▸ hv.sound.nodeTexts n hn
  have hperm := replace_perm hv.sound.edgeTexts hv.sound.edgeIds he f
  have hmem := mem_replace_iff hv.sound.edgeTexts hv.sound.edgeIds he f
  refine ⟨⟨hv.sound.nodeTexts, ?_, hv.sound.nodeIds, ?_, ?_⟩,
    ⟨(hv.linked.tidy.unlink e).link (htext .source) (htext .target) e.id, ?_⟩,
    fun s hs => ⟨(hv.conforming s hs).nodes, ?_, ?_⟩⟩
  · intro k hk
    rcases (hmem k).1 hk with rfl | ⟨hk, -⟩
    · exact hid ▸ hv.sound.edgeTexts e he
    · exact hv.sound.edgeTexts k hk
  · have hmap := map_id_replace hv.sound.edgeTexts hid
    exact (congrArg List.Nodup hmap).mpr hv.sound.edgeIds
  · intro k hk
    rcases (hmem k).1 hk with rfl | ⟨hk, -⟩
    · exact hends
    · exact hv.sound.ends k hk
  · have hrest := hv.entries_unlink_perm he
    have hkeys : ∀ x ∈ (g.adjacency.unlink e).entries, x.key ≠ e.id := by
      intro x hx
      obtain ⟨k, hk, rfl⟩ := List.mem_map.1 (hrest.subset hx)
      have hk := (List.mem_filter.1 hk).2
      rwa [Bool.not_eq_true', Value.sameKey_eq_false_iff (hv.sound.edgeTexts e he)] at hk
    have hlink := Adjacency.entries_link_perm (htext .source) (htext .target)
      (hv.sound.edgeTexts e he) _ hkeys
    have hentry : (⟨f.source, f.target, e.id, f⟩ : Entry) = f.entry := by rw [← hid]; rfl
    rw [hentry] at hlink
    exact (hlink.trans (hrest.cons f.entry)).trans (hperm.map Edge.entry).symm
  · intro k hk
    rcases (hmem k).1 hk with rfl | ⟨hk, -⟩
    · exact (hfit s hs).1
    · exact (hv.conforming s hs).edges k hk
  · refine (hperm.pairwise_iff fun h => h.symm).2 (List.pairwise_cons.2 ⟨?_, ?_⟩)
    · intro k hk
      obtain ⟨hk, hkey⟩ := List.mem_filter.1 hk
      rw [Bool.not_eq_true', Value.sameKey_eq_false_iff (hv.sound.edgeTexts e he)] at hkey
      exact ((hfit s hs).2 k hk hkey).symm
    · exact (hv.conforming s hs).single.sublist List.filter_sublist

end Valid

/-- Every step leads from a valid graph to a valid one. -/
theorem Step.valid {schema : Option Schema} {g g' : Graph} {notices : List Notice}
    (h : Step schema g g' notices) (hv : Valid schema g)
    (ht : ∀ n ∈ notices.head?, ∀ p ∈ n.payload, p.textual = true) :
    Valid schema g' := by
  have hnode : ∀ {n : Node}, checkNode schema n = .ok () → ∀ s, schema = some s → NodeFits s n := by
    rintro n hcheck s rfl
    exact (checkNode_eq_ok_iff s n).1 hcheck
  cases h with
  | nodeAdded h =>
    obtain ⟨hnew, hcheck, -, rfl⟩ := addNode_eq_ok_iff.1 h
    exact hv.addNode (ht _ rfl _ List.mem_cons_self) hnew (hnode hcheck)
  | nodeUpdated h =>
    obtain ⟨n, hn, -, hm, hcheck, rfl⟩ := updateNode_eq_some_iff.1 h
    obtain ⟨hmem, rfl⟩ := (hv.sound.node?_eq_some_iff _ n).1 hn
    obtain ⟨hid, htype⟩ := Node.id_type_of_updated hm
    exact hv.replaceNode hmem hid htype (hnode hcheck)
  | nodeDeleted h =>
    obtain ⟨-, -, rfl⟩ := deleteNode_eq_some_iff.1 h
    exact hv.deleteNode _
  | edgeAdded h =>
    obtain ⟨-, hnew, hcheck, rfl⟩ := addEdge_eq_ok_iff.1 h
    exact hv.addEdge (ht _ rfl _ List.mem_cons_self) hnew hcheck
  | edgeUpdated h =>
    obtain ⟨-, e, he, -, hf, hcheck, rfl⟩ := updateEdge_eq_some_iff.1 h
    obtain ⟨hmem, rfl⟩ := (hv.sound.edge?_eq_some_iff _ e).1 he
    exact hv.replaceEdge hmem (Edge.id_type_of_updated hf).1 hcheck
  | edgeDeleted h =>
    obtain ⟨e, he, rfl⟩ := edge?_of_deleteEdge h
    obtain ⟨hmem, rfl⟩ := (hv.sound.edge?_eq_some_iff _ e).1 he
    exact hv.removeEdge hmem
  | heldDeleted h =>
    obtain ⟨e, he, -, rfl⟩ := hv.sound.removed_of_deleteHeld h
    exact hv.removeEdge he
  | cleared => exact valid_empty schema

end Graph

end PropertyGraph
