import Mathlib.Data.List.Flatten
import PropertyGraph.Proofs.Graph.Admission
import PropertyGraph.Proofs.Graph.Charts

/-!
# Clearance

Edges may have identifiers of any kind, not only texts, and may have none.  One without an
identifier is linked under a number; unlinking it takes away the last link of its bundle, and the
check of another edge that meets it looks for an edge under that number.  No harm is done where such
an edge is the last one to join its ends and its type takes many (`Graph.Unmistakable`), and where
no check comes to it before it comes to an edge whose type takes only one (`Graph.InSight`).

Then the adjacency holds just the edges after insertions and after deletions
(`Graph.Charted.of_addEdge`, `Graph.Charted.removeHeld`), and each edge is found by its ends and by
the checks of other ones (`Graph.Charted.stands`).
-/

namespace PropertyGraph

/-- The type of an edge takes only one edge at a node on this side. -/
def Edge.Exclusive (schema : Option Schema) (e : Edge) (side : Side) : Prop :=
  ∃ s name t, schema = some s ∧ e.type = .text name ∧ s.edgeType? name = some t ∧
    (t.side side).multiple = false

theorem Edge.Exclusive.type_eqv {schema : Option Schema} {f : Edge} {side : Side}
    (h : f.Exclusive schema side) : f.type.eqv f.type = true := by
  obtain ⟨_, name, _, -, hname, -, -⟩ := h
  rw [hname, Value.eqv_text_right_iff]

/-- If something is found at some place, something is found first, there or before it. -/
theorem exists_findSome?_eq {α β : Type} {f : α → Option β} {p : β → Prop} {before after : List α}
    {x : α} (hbefore : ∀ z ∈ before, ∀ y, f z = some y → p y) {y : β} (hx : f x = some y)
    (hy : p y) : ∃ y, p y ∧ (before ++ x :: after).findSome? f = some y := by
  induction before with
  | nil => exact ⟨y, hy, by rw [List.nil_append, List.findSome?_cons, hx]⟩
  | cons z rest ih =>
    rw [List.forall_mem_cons] at hbefore
    rw [List.cons_append, List.findSome?_cons]
    rcases hz : f z with _ | w
    · exact ih hbefore.2
    · exact ⟨w, hbefore.1 w hz, rfl⟩

namespace Graph

variable {schema : Option Schema} {g : Graph}

/-- An edge without an identifier is the last one that joins its ends, and its type takes many. -/
structure Unmistakable (schema : Option Schema) (es : List Edge) : Prop where
  last : es.Pairwise fun e f => e.id = .null → ¬ f.Joins e.source e.target
  plain : ∀ e ∈ es, e.id = .null → ∀ side, ¬ e.Exclusive schema side

theorem Unmistakable.sublist {es fs : List Edge} (h : Unmistakable schema fs)
    (hsub : es.Sublist fs) : Unmistakable schema es :=
  ⟨h.last.sublist hsub, fun e he => h.plain e (hsub.subset he)⟩

/-- Going over the links at a node, one does not come to an edge without an identifier before one
comes to an edge whose type takes only one there, unless the number of the former is the identifier
of the latter. -/
def InSight (schema : Option Schema) (a : Adjacency) : Prop :=
  ∀ side id, (a.linksAt side id).Pairwise fun l m =>
    l.edge.id = .null → m.edge.Exclusive schema side → l.key.sameKey m.edge.id = true

/-- Where only the last link has no identifier, no check comes to it too early. -/
theorem inSight_of_pairwise {a : Adjacency}
    (h : (a.links.map (·.edge)).Pairwise fun e _ => e.id ≠ .null) : InSight schema a := by
  intro side id
  have hsub : (a.linksAt side id).Sublist a.links := List.filter_sublist.flatMap _
  exact ((List.pairwise_map.1 h).sublist hsub).imp fun hnamed hnull => absurd hnull hnamed

/-- The entities go together, unmistakable edges among them, the ends of the edges are there, and
the adjacency holds just the edges. -/
structure Charted (schema : Option Schema) (g : Graph) : Prop where
  nodes : g.nodes.Pairwise Apart
  edges : g.edges.Pairwise (Together schema)
  clear : Unmistakable schema g.edges
  ends : ∀ e ∈ g.edges, ∀ side, g.hasNode (e.endpoint side) = true
  charts : g.adjacency.Charts g.edges

theorem charted_empty (schema : Option Schema) : Charted schema empty :=
  ⟨.nil, .nil, ⟨.nil, nofun⟩, nofun, Adjacency.charts_nil⟩

/-- What is found of an edge in a graph: one end among the neighbours or predecessors of the other,
and, by the check of any edge of its type at the same node, the edge itself, if its type takes only
one on that side. -/
structure Stands (schema : Option Schema) (g : Graph) (f : Edge) : Prop where
  neighbor : ∃ w ∈ g.neighbors f.source, w.sameKey f.target = true
  predecessor : ∃ w ∈ g.predecessors f.target, w.sameKey f.source = true
  crowds : ∀ side, f.Exclusive schema side → ∀ e : Edge, e.type = f.type →
    (e.endpoint side).sameKey (f.endpoint side) = true →
      ∃ key, (key = f.id ∨ key.sameKey f.id = true) ∧
        g.crowdFault? e side .null = some (.cardinality e.type side (e.endpoint side) key)

/-- What the checks of an edge see to: its ends are there, and where its type takes only one edge,
none is in the way. -/
theorem free_of_checkEdge {e : Edge} (h : g.checkEdge schema e .null = .ok ()) :
    (∀ side, g.hasNode (e.endpoint side) = true) ∧
      ∀ side, e.Exclusive schema side → g.crowdFault? e side .null = none := by
  unfold checkEdge at h
  simp only [bind_eq_ok_iff, Schema.refuse_eq_ok_iff, endsFault?_eq_none_iff] at h
  obtain ⟨-, hends, h⟩ := h
  refine ⟨hends, ?_⟩
  rintro side ⟨s, name, t, rfl, hname, ht, hm⟩
  simp only [bind_eq_ok_iff, Schema.refuse_eq_ok_iff, schemaCheckEdge_eq_ok_iff,
    cardinalityFault?_eq_none_iff] at h
  obtain ⟨u, ⟨name', hname', hu, -⟩, hfree⟩ := h
  obtain rfl := Value.text.inj (hname.symm.trans hname')
  obtain rfl := Option.some.inj (ht.symm.trans hu)
  exact hfree side hm

namespace Charted

variable (hg : Charted schema g)

include hg

/-- An edge with an identifier has its link under it at both of its ends. -/
theorem mem_linksAt {f : Edge} (hf : f ∈ g.edges) (hnamed : f.id ≠ .null) {side : Side}
    {id : Value} (hend : (f.endpoint side).sameKey id = true) :
    (⟨f.id, f⟩ : Link) ∈ g.adjacency.linksAt side id := by
  obtain ⟨⟨key, k⟩, hl, rfl⟩ := hg.charts.exists_mem_linksAt hf hend
  obtain ⟨hkeyed, -⟩ := hg.charts.of_mem_linksAt hl
  have hkey : key = k.id := hkeyed.key_eq hnamed
  rwa [hkey] at hl

/-- Two edges of a type that takes only one do not meet. -/
theorem eq_of_exclusive {e f : Edge} (he : e ∈ g.edges) (hf : f ∈ g.edges) {side : Side}
    (hexclusive : f.Exclusive schema side) (htype : e.type.eqv f.type = true)
    (hend : (e.endpoint side).sameKey (f.endpoint side) = true) : e = f := by
  obtain ⟨s, name, t, hs, hname, ht, hm⟩ := hexclusive
  rw [hname, Value.eqv_text_right_iff] at htype
  by_contra hne
  have hapart := (hg.edges.forall he hf hne).2 s hs name t side htype hname ht hm
  rw [hend] at hapart
  cases hapart

theorem eq_of_sameKey {e f : Edge} (he : e ∈ g.edges) (hf : f ∈ g.edges)
    (h : e.id.sameKey f.id = true) : e = f := by
  by_contra hne
  have hapart := (hg.edges.forall he hf hne).1
  rw [h] at hapart
  cases hapart

/-- What finds an edge by its identifier finds this edge. -/
theorem edge?_eq_some {id : Value} {f : Edge} (hf : f ∈ g.edges) (h : f.id.sameKey id = true) :
    g.edge? id = some f := by
  rcases hfound : g.edge? id with _ | k
  · exact absurd h (List.find?_eq_none.1 hfound f hf)
  · have hkey := List.find?_some (p := fun k : Edge => k.id.sameKey id) hfound
    have hsame := Value.sameKey_trans hkey (Value.sameKey_comm _ _ ▸ h)
    rw [hg.eq_of_sameKey (List.mem_of_find?_eq_some hfound) hf hsame]

/-! ### Adding -/

theorem of_addNode {n : Node} {g' : Graph} (h : g.addNode schema n = .ok g') :
    Charted schema g' := by
  obtain ⟨hnew, -, -, rfl⟩ := addNode_eq_ok_iff.1 h
  rw [hasNode_eq_false_iff] at hnew
  refine ⟨?_, hg.edges, hg.clear, fun e he side => ?_, hg.charts⟩
  · exact List.pairwise_append.2 ⟨hg.nodes, List.pairwise_singleton _ n,
      fun m hm _ hk => List.mem_singleton.1 hk ▸ hnew m hm⟩
  · obtain ⟨m, hm, hid⟩ := (hasNode_iff_exists g _).1 (hg.ends e he side)
    exact (hasNode_iff_exists _ _).2 ⟨m, List.mem_append_left _ hm, hid⟩

theorem insertEdge {e : Edge} (hclear : Unmistakable schema (g.edges ++ [e]))
    (hends : ∀ side, g.hasNode (e.endpoint side) = true)
    (hnew : ∀ f ∈ g.edges, Together schema f e) : Charted schema (g.insertEdge e) where
  nodes := hg.nodes
  edges := List.pairwise_append.2 ⟨hg.edges, List.pairwise_singleton _ e,
    fun f hf k hk => List.mem_singleton.1 hk ▸ hnew f hf⟩
  clear := hclear
  ends := List.forall_mem_append.2 ⟨hg.ends, List.forall_mem_singleton.2 hends⟩
  charts := by
    have hself : ∀ side, (e.endpoint side).sameKey (e.endpoint side) = true := by
      intro side
      obtain ⟨n, -, hn⟩ := (hasNode_iff_exists g _).1 (hends side)
      exact Value.sameKey_trans (Value.sameKey_comm _ _ ▸ hn) hn
    have hlast : ∀ f ∈ g.edges, f.id = .null → ¬ e.Joins f.source f.target := fun f hf =>
      (List.pairwise_append.1 hclear.last).2.2 f hf e (List.mem_singleton_self e)
    exact hg.charts.link (fun f hf => (hnew f hf).1) hlast ⟨hself .source, hself .target⟩

/-- A check that finds nothing would have found an edge of the same type that is in the way. -/
theorem of_addEdge {e : Edge} {g' : Graph} (h : g.addEdge schema e = .ok g')
    (hclear : Unmistakable schema g'.edges) : Charted schema g' := by
  obtain ⟨-, hnew, hcheck, rfl⟩ := Graph.addEdge_eq_ok_iff.1 h
  rw [hasEdge_eq_false_iff] at hnew
  obtain ⟨hends, hfree⟩ := free_of_checkEdge hcheck
  refine hg.insertEdge hclear hends fun f hf => ⟨hnew f hf, ?_⟩
  intro s hs name t side hftype hetype ht hm
  have hnamed : f.id ≠ .null := fun hnull =>
    hclear.plain f (List.mem_append_left _ hf) hnull side ⟨s, name, t, hs, hftype, ht, hm⟩
  have hnone := hfree side ⟨s, name, t, hs, hetype, ht, hm⟩
  rw [crowdFault?, List.findSome?_eq_none_iff] at hnone
  rw [← Bool.not_eq_true]
  intro hend
  have hother := hnone _ (hg.mem_linksAt hf hnamed hend)
  rw [linkFault?_eq_none_iff hnamed, hftype, hetype, Value.eqv_text_text, beq_self_eq_true]
    at hother
  cases hother (eqv_null_eq_false hnamed)

/-! ### Deleting an edge -/

theorem deleteEdge_eq {e : Edge} (he : e ∈ g.edges) (hself : e.id.sameKey e.id = true) :
    g.deleteEdge e.id = .ok (some (g.removeEdge e.id e)) := by
  have hkey : requireKey e.id = .ok () := if_pos (Value.identifies_of_sameKey hself)
  rw [deleteEdge, hkey, hg.edge?_eq_some he hself]
  split <;> rfl

section Delete

variable {before after : List Edge} {e : Edge} (hsplit : g.edges = before ++ e :: after)

include hsplit

/-- The edge is taken out of its place. -/
theorem edges_removeEdge (hself : e.id.sameKey e.id = true) :
    (g.removeEdge e.id e).edges = before ++ after := by
  have hapart := hg.edges
  rw [hsplit, List.pairwise_middle fun {_ _} => Std.Symm.symm _ _, List.pairwise_cons] at hapart
  have hothers : ∀ l ⊆ before ++ after, (l.filter fun f => !f.id.sameKey e.id) = l := by
    intro l hl
    refine List.filter_eq_self.2 fun f hf => ?_
    rw [Value.sameKey_comm, (hapart.1 f (hl hf)).1]
    rfl
  show (g.edges.filter fun f => !f.id.sameKey e.id) = _
  rw [hsplit, List.filter_append, List.filter_cons, hself,
    hothers before (List.subset_append_left _ _), hothers after (List.subset_append_right _ _)]
  rfl

/-- An edge that is deleted by its very identifier is taken out of its place, and its link out of
the adjacency. -/
theorem edges_removeHeld : (g.removeHeld before.length e).edges = before ++ after ∧
    (g.removeHeld before.length e).adjacency.Charts (before ++ after) := by
  have hcharts := hg.charts
  rw [hsplit] at hcharts
  by_cases helusive : e.id.elusive = true
  · have hedges : (before ++ e :: after).eraseIdx before.length = before ++ after := by
      rw [List.eraseIdx_append_of_length_le (Nat.le_refl _), Nat.sub_self]
      rfl
    have hcount : g.elusiveBefore before.length e = before.countP fun f =>
        f.id.elusive && (f.source.sameKey e.source && f.target.sameKey e.target) := by
      rw [elusiveBefore, hsplit, List.take_left]
    rw [removeHeld, if_pos helusive, hsplit, hcount]
    exact ⟨hedges, hcharts.unlink_elusive helusive⟩
  · have hself : e.id.sameKey e.id = true :=
      Value.elusive_eq_false_iff.1 (eq_false_of_ne_true helusive)
    have hlast := hg.clear.last
    rw [hsplit, List.pairwise_append, List.pairwise_cons] at hlast
    rw [removeHeld_of_sameKey hself]
    exact ⟨hg.edges_removeEdge hsplit hself,
      hcharts.unlink hself fun hnull f hf => hlast.2.1.1 f hf hnull⟩

theorem removeHeld : Charted schema (g.removeHeld before.length e) := by
  obtain ⟨hedges, hcharts⟩ := hg.edges_removeHeld hsplit
  have hsub := edges_removeHeld_sublist g before.length e
  constructor
  case nodes => exact nodes_removeHeld g _ e ▸ hg.nodes
  case edges => exact hg.edges.sublist hsub
  case clear => exact hg.clear.sublist hsub
  case ends =>
    intro f hf side
    rw [hasNode, node?, nodes_removeHeld]
    exact hg.ends f (hsub.subset hf) side
  case charts =>
    rw [hedges]
    exact hcharts

end Delete

/-! ### What is found -/

section Crowds

variable {e f : Edge} {side : Side} (hf : f ∈ g.edges) (hexclusive : f.Exclusive schema side)
  (htype : e.type = f.type) (hend : (e.endpoint side).sameKey (f.endpoint side) = true)

include hf hexclusive htype hend

/-- At the node where an edge is the only one of its type, a check finds fault with its link only,
or with one that has its identifier for a number. -/
theorem exists_key_of_linkFault? {l : Link}
    (hl : l ∈ g.adjacency.linksAt side (e.endpoint side))
    (hnumber : l.edge.id = .null → l.key.sameKey f.id = true) {x : Failure}
    (hx : g.linkFault? e side .null l = some x) :
    ∃ key, (key = f.id ∨ key.sameKey f.id = true) ∧
      x = .cardinality e.type side (e.endpoint side) key := by
  obtain ⟨hkeyed, hk, hkend⟩ := hg.charts.of_mem_linksAt hl
  by_cases hnull : l.edge.id = .null
  · have hkey := hnumber hnull
    have hnamed : l.key ≠ .null := by
      obtain ⟨n, hn⟩ := hkeyed.exists_number hnull
      simp [hn]
    have hlinked : g.linkedEdge? l = some f := by
      rw [linkedEdge?, hnull]
      exact hg.edge?_eq_some hf (Value.sameKey_comm _ _ ▸ hkey)
    have htypes : f.type.eqv e.type = true := htype ▸ hexclusive.type_eqv
    rw [linkFault?, eqv_null_eq_false hnamed, hlinked] at hx
    simp only [Bool.false_eq_true, if_false, htypes, if_true] at hx
    exact ⟨l.key, .inr hkey, (Option.some.inj hx).symm⟩
  · obtain ⟨key, k⟩ := l
    have hkey : key = k.id := hkeyed.key_eq hnull
    rw [hkey, linkFault?_eq_some_iff hnull] at hx
    obtain ⟨⟨-, hktype⟩, rfl⟩ := hx
    rw [htype] at hktype
    have hsame : k = f :=
      hg.eq_of_exclusive hk hf hexclusive hktype (Value.sameKey_trans hkend hend)
    exact ⟨k.id, .inl (hsame ▸ rfl), rfl⟩

/-- On a side where its type takes only one edge, an edge is the one that is in the way: every link
that is come to before its own is passed over, or is taken for its link. -/
theorem exists_crowdFault?_eq (hsight : InSight schema g.adjacency) :
    ∃ key, (key = f.id ∨ key.sameKey f.id = true) ∧
      g.crowdFault? e side .null = some (.cardinality e.type side (e.endpoint side) key) := by
  have hnamed : f.id ≠ .null := fun hnull => hg.clear.plain f hf hnull side hexclusive
  have hfend : (f.endpoint side).sameKey (e.endpoint side) = true := Value.sameKey_comm _ _ ▸ hend
  have htypes : f.type.eqv e.type = true := htype ▸ hexclusive.type_eqv
  obtain ⟨ls, ms, hlinks⟩ := List.append_of_mem (hg.mem_linksAt hf hnamed hfend)
  have hpairs := hsight side (e.endpoint side)
  rw [hlinks, List.pairwise_append] at hpairs
  have hbefore : ∀ l ∈ ls, ∀ x, g.linkFault? e side .null l = some x →
      ∃ key, (key = f.id ∨ key.sameKey f.id = true) ∧
        x = .cardinality e.type side (e.endpoint side) key := by
    intro l hl x hx
    have hmem : l ∈ g.adjacency.linksAt side (e.endpoint side) :=
      hlinks ▸ List.mem_append_left _ hl
    exact hg.exists_key_of_linkFault? hf hexclusive htype hend hmem
      (fun hnull => hpairs.2.2 l hl _ List.mem_cons_self hnull hexclusive) hx
  have hown : g.linkFault? e side .null ⟨f.id, f⟩ =
      some (.cardinality e.type side (e.endpoint side) f.id) :=
    (linkFault?_eq_some_iff hnamed e side .null _).2 ⟨⟨eqv_null_eq_false hnamed, htypes⟩, rfl⟩
  obtain ⟨x, ⟨key, hkey, rfl⟩, hx⟩ :=
    exists_findSome?_eq hbefore hown ⟨f.id, .inl rfl, rfl⟩
  exact ⟨key, hkey, by rw [crowdFault?, hlinks, hx]⟩

end Crowds

theorem stands (hsight : InSight schema g.adjacency) {f : Edge} (hf : f ∈ g.edges) :
    Stands schema g f where
  neighbor := by
    obtain ⟨b, hb, hj⟩ := hg.charts.connected f hf
    exact (exists_neighbor_iff g _ _).2 ⟨hg.ends f hf .source, b, hb, hj⟩
  predecessor := by
    obtain ⟨b, hb, hj⟩ := hg.charts.connected f hf
    exact (exists_predecessor_iff g _ _).2 ⟨hg.ends f hf .target, b, hb, hj⟩
  crowds _ hexclusive _ htype hend := hg.exists_crowdFault?_eq hf hexclusive htype hend hsight

theorem neighbors_of_edges_eq_nil (hnone : g.edges = []) (id : Value) :
    g.neighbors id = [] ∧ g.predecessors id = [] := by
  have hadjacency := hg.charts.eq_nil hnone
  rw [neighbors, predecessors, hadjacency]
  constructor <;> split <;> rfl

end Charted

/-- What is in sight stays so when an edge is deleted. -/
theorem InSight.removeHeld (h : InSight schema g.adjacency) (place : Nat) (e : Edge) :
    InSight schema (g.removeHeld place e).adjacency := by
  intro side id
  rw [Graph.removeHeld]
  split
  · exact (h side id).sublist
      (Adjacency.linksAt_unlinkBy_sublist (Link.removeElusive_sublist _) e _ side id)
  · exact (h side id).sublist
      (Adjacency.linksAt_unlinkBy_sublist (Link.remove_sublist · e.id) e _ side id)

end Graph

end PropertyGraph
