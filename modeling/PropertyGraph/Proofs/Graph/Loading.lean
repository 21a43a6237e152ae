import Mathlib.Data.List.Forall2
import Mathlib.Data.List.Pairwise
import PropertyGraph.Proofs.Graph.Step

/-!
# The order of what is loaded

Whether a document can be loaded into a graph does not hang on the order of its nodes, nor on that
of its edges, and neither does what is in the graph then (`exists_load_of_perm`).

Each insertion is checked against what is there already, but all the checks together come down to
something about lists of entities that order does not touch (`Loadable`): each of them is fit by
itself, each goes together with those that are in the graph, and any two of them go together.
Identifiers need not be texts here.  Only where there is a schema an edge must not have null for its
identifier: it is linked under a number then, by which no edge is found when others are checked.
-/

namespace PropertyGraph

/-! ### One after another -/

/-- A way to insert things.  While `Inv` holds, a thing of the kind `kind` goes in when it is
`ready` and goes `together` with everything that is `held` already. -/
structure Inserts {σ α : Type} (insert? : σ → α → Result σ) (insert : σ → α → σ)
    (held : σ → List α) (ready : α → Prop) (together : α → α → Prop) (Inv : σ → Prop)
    (kind : α → Prop) : Prop where
  insert_iff : ∀ {g x g'}, Inv g → kind x →
    (insert? g x = .ok g' ↔ ready x ∧ (∀ y ∈ held g, together y x) ∧ g' = insert g x)
  keeps : ∀ {g x}, Inv g → kind x → (∀ y ∈ held g, together y x) → Inv (insert g x)
  held_insert : ∀ g x, held (insert g x) = held g ++ [x]

namespace Inserts

variable {σ α : Type} {insert? : σ → α → Result σ} {insert : σ → α → σ} {held : σ → List α}
  {ready kind : α → Prop} {together : α → α → Prop} {Inv : σ → Prop}
  (h : Inserts insert? insert held ready together Inv kind)

include h

theorem inv_of_foldlM {l : List α} (hl : ∀ x ∈ l, kind x) {g g' : σ} (hg : Inv g)
    (hfold : l.foldlM insert? g = .ok g') : Inv g' := by
  induction l generalizing g with
  | nil => exact Except.ok.inj hfold ▸ hg
  | cons x rest ih =>
    rw [List.forall_mem_cons] at hl
    rw [List.foldlM_cons, bind_eq_ok_iff] at hfold
    obtain ⟨g₁, hx, hrest⟩ := hfold
    obtain ⟨-, hgo, rfl⟩ := (h.insert_iff hg hl.1).1 hx
    exact ih hl.2 (h.keeps hg hl.1 hgo) hrest

/-- Things go in one after another when each is ready and goes together with all that is held, and
any two of them go together. -/
theorem foldlM_eq_ok_iff {l : List α} (hl : ∀ x ∈ l, kind x) {g g' : σ} (hg : Inv g) :
    l.foldlM insert? g = .ok g' ↔
      (∀ x ∈ l, ready x) ∧ (∀ x ∈ l, ∀ y ∈ held g, together y x) ∧ l.Pairwise together ∧
        g' = l.foldl insert g := by
  induction l generalizing g with
  | nil =>
    constructor
    · intro hfold
      exact ⟨nofun, nofun, .nil, (Except.ok.inj hfold).symm⟩
    · rintro ⟨-, -, -, rfl⟩
      rfl
  | cons x rest ih =>
    -- what is held for the rest of the list is what was held before, and `x`
    rw [List.forall_mem_cons] at hl
    rw [List.foldlM_cons, bind_eq_ok_iff]
    simp only [List.forall_mem_cons, List.pairwise_cons, List.foldl_cons]
    constructor
    · rintro ⟨g₁, hx, hrest⟩
      obtain ⟨hready, hgo, rfl⟩ := (h.insert_iff hg hl.1).1 hx
      obtain ⟨hready', hgo', hpair, hg'⟩ := (ih hl.2 (h.keeps hg hl.1 hgo)).1 hrest
      simp only [h.held_insert, List.forall_mem_append, List.forall_mem_singleton] at hgo'
      exact ⟨⟨hready, hready'⟩, ⟨hgo, fun y hy => (hgo' y hy).1⟩,
        ⟨fun y hy => (hgo' y hy).2, hpair⟩, hg'⟩
    · rintro ⟨⟨hready, hready'⟩, ⟨hgo, hgo'⟩, ⟨hfirst, hpair⟩, hg'⟩
      refine ⟨insert g x, (h.insert_iff hg hl.1).2 ⟨hready, hgo, rfl⟩, ?_⟩
      refine (ih hl.2 (h.keeps hg hl.1 hgo)).2 ⟨hready', fun y hy => ?_, hpair, hg'⟩
      rw [h.held_insert, List.forall_mem_append, List.forall_mem_singleton]
      exact ⟨hgo' y hy, hfirst y hy⟩

end Inserts

/-! ### Links under identifiers of any kind -/

/-- Whether an edge runs from one node to another. -/
def Edge.Joins (e : Edge) (u v : Value) : Prop :=
  e.source.sameKey u = true ∧ e.target.sameKey v = true

theorem Bundle.joins_of_joins {b : Bundle} {e : Edge} {u v : Value}
    (hb : b.joins e.source e.target = true) (he : e.Joins u v) : b.joins u v = true := by
  rw [joins, Bool.and_eq_true] at hb ⊢
  exact ⟨Value.sameKey_trans hb.1 he.1, Value.sameKey_trans hb.2 he.2⟩

theorem Bundle.sameKey_endpoint_iff {b : Bundle} {e : Edge}
    (hb : b.joins e.source e.target = true) (side : Side) (id : Value) :
    (b.endpoint side).sameKey id = true ↔ (e.endpoint side).sameKey id = true := by
  rw [joins, Bool.and_eq_true] at hb
  have hend : (b.endpoint side).sameKey (e.endpoint side) = true := by
    cases side with
    | source => exact hb.1
    | target => exact hb.2
  exact ⟨Value.sameKey_trans (Value.sameKey_comm _ _ ▸ hend), Value.sameKey_trans hend⟩

namespace Adjacency

/-- Some bundle runs from one node to another. -/
def Connects (a : Adjacency) (u v : Value) : Prop := ∃ b ∈ a, b.joins u v = true

/-- A link goes into a bundle that joins the ends of its edge, or, where there is none, into a new
one at the end. -/
theorem link_cases (key : Value) (e : Edge) (a : Adjacency) :
    (∃ before b after, a = before ++ b :: after ∧ b.joins e.source e.target = true ∧
      link key e a =
        before ++ { b with links := Link.put b.links ⟨Link.keyFor b.links key, e⟩ } :: after) ∨
    (∀ b ∈ a, b.joins e.source e.target = false) ∧
      link key e a = a ++ [⟨e.source, e.target, [⟨Link.keyFor [] key, e⟩]⟩] := by
  induction a with
  | nil => exact .inr ⟨nofun, rfl⟩
  | cons b rest ih =>
    unfold link
    by_cases hj : b.joins e.source e.target = true
    · rw [if_pos hj]
      exact .inl ⟨[], b, rest, rfl, hj, rfl⟩
    · rw [if_neg hj]
      obtain ⟨before, c, after, rfl, hc, hlink⟩ | ⟨hnone, hlink⟩ := ih
      · exact .inl ⟨b :: before, c, after, rfl, hc, by rw [hlink]; rfl⟩
      · exact .inr ⟨List.forall_mem_cons.2 ⟨eq_false_of_ne_true hj, hnone⟩, by rw [hlink]; rfl⟩

theorem connects_link_iff (key : Value) (e : Edge) (a : Adjacency) (u v : Value) :
    (link key e a).Connects u v ↔ a.Connects u v ∨ e.Joins u v := by
  obtain ⟨before, b, after, rfl, hb, hlink⟩ | ⟨-, hlink⟩ := link_cases key e a
  · have hsame : (link key e (before ++ b :: after)).Connects u v ↔
        Connects (before ++ b :: after) u v := by
      rw [hlink]
      simp [Connects, Bundle.joins, or_and_right, exists_or]
    have hold : e.Joins u v → Connects (before ++ b :: after) u v := fun he =>
      ⟨b, List.mem_append_right _ List.mem_cons_self, Bundle.joins_of_joins hb he⟩
    rw [hsame]
    exact ⟨.inl, fun h => h.elim id hold⟩
  · rw [hlink]
    simp [Connects, Edge.Joins, Bundle.joins, or_and_right, exists_or]

theorem linksAt_cons (b : Bundle) (a : Adjacency) (side : Side) (id : Value) :
    linksAt (b :: a) side id =
      (if (b.endpoint side).sameKey id then b.links else []) ++ linksAt a side id := by
  simp only [linksAt, bundlesAt, List.filter_cons]
  split <;> rfl

theorem mem_linksAt_iff (a : Adjacency) (side : Side) (id : Value) (l : Link) :
    l ∈ a.linksAt side id ↔ ∃ b ∈ a, (b.endpoint side).sameKey id = true ∧ l ∈ b.links := by
  simp only [linksAt, bundlesAt, List.mem_flatMap, List.mem_filter, and_assoc]

/-- Linking an edge under a key that is new in its bundle adds a link at both of its ends. -/
theorem mem_linksAt_link_iff {key : Value} (hkey : key ≠ .null) {e : Edge} {a : Adjacency}
    (hnew : ∀ b ∈ a, b.joins e.source e.target = true → ∀ m ∈ b.links, m.key.sameKey key = false)
    (side : Side) (id : Value) (l : Link) :
    l ∈ (link key e a).linksAt side id ↔
      l ∈ a.linksAt side id ∨ (e.endpoint side).sameKey id = true ∧ l = ⟨key, e⟩ := by
  have hkeyFor := Link.keyFor_of_named hkey
  obtain ⟨before, b, after, rfl, hb, hlink⟩ | ⟨-, hlink⟩ := link_cases key e a
  · have hput : Link.put b.links ⟨key, e⟩ = b.links ++ [⟨key, e⟩] :=
      Link.put_of_new (hnew b (List.mem_append_right _ List.mem_cons_self) hb)
    have hsame : ∀ links, Bundle.endpoint { b with links } side = b.endpoint side := by
      intro links
      cases side <;> rfl
    have hend := Bundle.sameKey_endpoint_iff hb side id
    rw [hlink, hkeyFor, hput]
    simp only [mem_linksAt_iff, List.mem_append, List.mem_cons, or_and_right, exists_or,
      exists_eq_left, List.not_mem_nil, or_false, hsame, hend, and_or_left, or_assoc]
    exact or_congr_right (or_congr_right or_comm)
  · have hends : ∀ links, (Bundle.mk e.source e.target links).endpoint side = e.endpoint side := by
      intro links
      cases side <;> rfl
    rw [hlink, hkeyFor]
    simp only [mem_linksAt_iff, List.mem_append, List.mem_singleton, or_and_right, exists_or,
      exists_eq_left, hends]

end Adjacency

namespace Graph

variable {schema : Option Schema} {g g' : Graph}

theorem hasNode_iff_exists (g : Graph) (id : Value) :
    g.hasNode id = true ↔ ∃ n ∈ g.nodes, n.id.sameKey id = true := by
  rw [hasNode, node?, List.find?_isSome]

theorem hasNode_eq_false_iff (g : Graph) (id : Value) :
    g.hasNode id = false ↔ ∀ n ∈ g.nodes, n.id.sameKey id = false := by
  rw [hasNode, node?, Option.isSome_eq_false_iff, Option.isNone_iff_eq_none, List.find?_eq_none]
  exact forall₂_congr fun n _ => Bool.not_eq_true _ ▸ Iff.rfl

theorem hasEdge_eq_false_iff (g : Graph) (id : Value) :
    g.hasEdge id = false ↔ ∀ e ∈ g.edges, e.id.sameKey id = false := by
  rw [hasEdge, edge?, Option.isSome_eq_false_iff, Option.isNone_iff_eq_none, List.find?_eq_none]
  exact forall₂_congr fun e _ => Bool.not_eq_true _ ▸ Iff.rfl

/-- A node is found among the neighbours of another one if some bundle connects them. -/
theorem exists_neighbor_iff (g : Graph) (u v : Value) :
    (∃ w ∈ g.neighbors u, w.sameKey v = true) ↔
      g.hasNode u = true ∧ g.adjacency.Connects u v := by
  rw [neighbors]
  by_cases hu : g.hasNode u = true
  · rw [if_pos hu, Adjacency.neighbors, Adjacency.bundlesAt]
    simp [hu, Adjacency.Connects, Bundle.joins, Bundle.endpoint, and_assoc]
  · simp [hu]

theorem exists_predecessor_iff (g : Graph) (u v : Value) :
    (∃ w ∈ g.predecessors v, w.sameKey u = true) ↔
      g.hasNode v = true ∧ g.adjacency.Connects u v := by
  rw [predecessors]
  by_cases hv : g.hasNode v = true
  · rw [if_pos hv, Adjacency.predecessors, Adjacency.bundlesAt]
    simp only [hv, Adjacency.Connects, Bundle.joins, Bundle.endpoint, Bool.and_eq_true,
      List.mem_map, List.mem_filter, true_and]
    constructor
    · rintro ⟨_, ⟨b, ⟨hb, hbv⟩, rfl⟩, hbu⟩
      exact ⟨b, hb, hbu, hbv⟩
    · rintro ⟨b, hb, hbu, hbv⟩
      exact ⟨b.source, ⟨b, ⟨hb, hbv⟩, rfl⟩, hbu⟩
  · simp [hv]

/-! ### What is checked -/

/-- The type and the data of an edge are as declared, and whatever nodes there are at its ends have
the types that it asks for. -/
def Declared (s : Schema) (nodes : List Node) (e : Edge) : Prop :=
  ∃ name t, e.type = .text name ∧ s.edgeType? name = some t ∧ Schema.Conforms t.fields e.data ∧
    ∀ side, ∀ n ∈ nodes, n.id.sameKey (e.endpoint side) = true →
      n.type = .text (t.side side).nodeType

/-- Two edges are not both at one node, on a side of their type that takes only one. -/
def Clear (s : Schema) (e f : Edge) : Prop :=
  ∀ name t side, e.type = .text name → f.type = .text name → s.edgeType? name = some t →
    (t.side side).multiple = false → (e.endpoint side).sameKey (f.endpoint side) = false

/-- The checks of a node pass, wherever it is to be added. -/
def NodeReady (schema : Option Schema) (n : Node) : Prop :=
  checkNode schema n = .ok () ∧ requireNodeId n.id = .ok ()

/-- What an edge asks of the nodes that are there. -/
structure EdgeReady (schema : Option Schema) (nodes : List Node) (e : Edge) : Prop where
  key : requireKey e.id = .ok ()
  ends : ∀ side, ∃ n ∈ nodes, n.id.sameKey (e.endpoint side) = true
  declared : ∀ s, schema = some s → Declared s nodes e

/-- Two nodes have identifiers of their own. -/
def Apart (m n : Node) : Prop := m.id.sameKey n.id = false

instance : Std.Symm Apart where
  symm m n h := (Value.sameKey_comm n.id m.id).trans h

/-- Two edges can be in one graph. -/
def Together (schema : Option Schema) (e f : Edge) : Prop :=
  e.id.sameKey f.id = false ∧ ∀ s, schema = some s → Clear s e f

instance : Std.Symm (Together schema) where
  symm e f h := by
    refine ⟨Value.sameKey_comm e.id f.id ▸ h.1, fun s hs name t side hf he ht hm => ?_⟩
    rw [Value.sameKey_comm]
    exact h.2 s hs name t side he hf ht hm

def insertNode (g : Graph) (n : Node) : Graph := { g with nodes := g.nodes ++ [n] }

def insertEdge (g : Graph) (e : Edge) : Graph :=
  { g with edges := g.edges ++ [e], adjacency := g.adjacency.link e.id e }

/-- What insertions keep: nodes have identifiers of their own, bundles run where edges do, and
where there is a schema, each edge has its link under its identifier. -/
structure Loading (schema : Option Schema) (g : Graph) : Prop where
  apart : g.nodes.Pairwise Apart
  connects : ∀ u v, g.adjacency.Connects u v ↔ ∃ e ∈ g.edges, e.Joins u v
  links : schema ≠ none → ∀ side id l, l ∈ g.adjacency.linksAt side id ↔
    ∃ e ∈ g.edges, (e.endpoint side).sameKey id = true ∧ l = ⟨e.id, e⟩
  named : schema ≠ none → ∀ e ∈ g.edges, e.id ≠ .null

theorem Valid.loading (hv : Valid schema g) : Loading schema g where
  apart := by
    refine (List.pairwise_map.1 hv.sound.nodeIds).imp_of_mem fun {m n} _ hn hne => ?_
    exact (Value.sameKey_eq_false_iff (hv.sound.nodeTexts n hn) m.id).2 hne
  connects u v := by
    constructor
    · rintro ⟨b, hb, hj⟩
      obtain ⟨l, hl⟩ := List.exists_mem_of_ne_nil _ (hv.linked.tidy.filled b hb)
      obtain ⟨e, he, -, hends⟩ := hv.linked.edge_of_link hb hl
      have hsource : b.source = e.source := hends .source
      have htarget : b.target = e.target := hends .target
      rw [Bundle.joins, Bool.and_eq_true, hsource, htarget] at hj
      exact ⟨e, he, hj⟩
    · rintro ⟨e, he, hjoins⟩
      obtain ⟨b, hb, -, hends⟩ := hv.linked.link_of_edge he
      have hsource : b.source = e.source := hends .source
      have htarget : b.target = e.target := hends .target
      refine ⟨b, hb, ?_⟩
      rw [Bundle.joins, Bool.and_eq_true, hsource, htarget]
      exact hjoins
  links _ side id := (hv.linked.namedLinks hv.sound side id).links
  named _ _ he := hv.sound.edge_named he

theorem eqv_null_eq_false {v : Value} (hv : v ≠ .null) : v.eqv .null = false := by
  cases v with
  | null => exact absurd rfl hv
  | _ => simp [Value.eqv, Value.sameNumber, Value.number?]

theorem NamedLinks.crowdFault?_null_eq_none_iff {e : Edge} {side : Side}
    (h : NamedLinks g side (e.endpoint side)) :
    g.crowdFault? e side .null = none ↔
      ∀ f ∈ g.edges, (f.endpoint side).sameKey (e.endpoint side) = true →
        f.type.eqv e.type = false := by
  rw [h.crowdFault?_eq_none_iff]
  refine forall₂_congr fun f hf => forall_congr' fun hend => ?_
  rw [eqv_null_eq_false (h.named f hf hend)]
  exact ⟨fun hother => hother rfl, fun hother _ => hother⟩

namespace Loading

theorem typeOf_eq (hg : Loading schema g) {id : Value} {n : Node} (hn : n ∈ g.nodes)
    (hid : n.id.sameKey id = true) : g.typeOf id = n.type := by
  have hfound : g.node? id = some n := by
    rcases hm : g.node? id with _ | m
    · exact absurd hid (List.find?_eq_none.1 hm n hn)
    · have hmid : m.id.sameKey id = true := by simpa using List.find?_some hm
      -- both nodes have the key of `id`, so that they are not apart, and are one node
      by_contra hne
      have hapart : m.id.sameKey n.id = false :=
        hg.apart.forall (List.mem_of_find?_eq_some hm) hn fun h => hne (h ▸ rfl)
      rw [Value.sameKey_trans hmid (Value.sameKey_comm n.id id ▸ hid)] at hapart
      cases hapart
  rw [typeOf, hfound]

theorem namedLinks (hg : Loading schema g) (hschema : schema ≠ none) (side : Side) (id : Value) :
    NamedLinks g side id :=
  ⟨hg.links hschema side id, fun f hf _ => hg.named hschema f hf⟩

theorem crowdFault?_eq_none_iff (hg : Loading schema g) (hschema : schema ≠ none) (e : Edge)
    (side : Side) :
    g.crowdFault? e side .null = none ↔
      ∀ f ∈ g.edges, (f.endpoint side).sameKey (e.endpoint side) = true →
        f.type.eqv e.type = false :=
  (hg.namedLinks hschema side _).crowdFault?_null_eq_none_iff

theorem checkEdge_eq_ok_iff (hg : Loading schema g) (e : Edge) :
    g.checkEdge schema e .null = .ok () ↔
      (∀ side, ∃ n ∈ g.nodes, n.id.sameKey (e.endpoint side) = true) ∧
        ∀ s, schema = some s → Declared s g.nodes e ∧ ∀ f ∈ g.edges, Clear s f e := by
  unfold checkEdge
  simp only [bind_eq_ok_iff, Schema.refuse_eq_ok_iff, endsFault?_eq_none_iff, hasNode_iff_exists]
  cases schema with
  | none =>
    constructor
    · rintro ⟨_, hends, -⟩
      exact ⟨hends, fun s hs => absurd hs.symm (Option.some_ne_none s)⟩
    · exact fun h => ⟨(), h.1, rfl⟩
  | some s =>
    have hschema : some s ≠ none := Option.some_ne_none s
    simp only [bind_eq_ok_iff, Schema.refuse_eq_ok_iff, schemaCheckEdge_eq_ok_iff,
      cardinalityFault?_eq_none_iff, hg.crowdFault?_eq_none_iff hschema]
    constructor
    · rintro ⟨-, hends, t, ⟨name, hname, ht, hdata, hsource, htarget⟩, hfree⟩
      refine ⟨hends, fun u hu => ?_⟩
      obtain rfl := Option.some.inj hu
      refine ⟨⟨name, t, hname, ht, hdata, fun side n hn hid => ?_⟩, ?_⟩
      · rw [← hg.typeOf_eq hn hid]
        cases side with
        | source => exact hsource
        | target => exact htarget
      · intro f hf name' u side hftype hename hu hm
        obtain rfl : name' = name := Value.text.inj (hename.symm.trans hname)
        obtain rfl : t = u := Option.some.inj (ht.symm.trans hu)
        by_contra hmeet
        rw [Bool.not_eq_false] at hmeet
        have hother := hfree side hm f hf hmeet
        rw [hftype, hname, Value.eqv_text_text, beq_self_eq_true] at hother
        cases hother
    · rintro ⟨hends, h⟩
      obtain ⟨⟨name, t, hname, ht, hdata, htypes⟩, hclear⟩ := h s rfl
      have htypeOf : ∀ side, g.typeOf (e.endpoint side) = .text (t.side side).nodeType := by
        intro side
        obtain ⟨n, hn, hid⟩ := hends side
        rw [hg.typeOf_eq hn hid]
        exact htypes side n hn hid
      refine ⟨(), hends, t, ⟨name, hname, ht, hdata, htypeOf .source, htypeOf .target⟩, ?_⟩
      intro side hm f hf hmeet
      rw [← Bool.not_eq_true, hname, Value.eqv_text_right_iff]
      intro hftype
      have hapart := hclear f hf name t side hftype hname ht hm
      rw [hmeet] at hapart
      cases hapart

theorem withNode (hg : Loading schema g) {n : Node} (hnew : ∀ m ∈ g.nodes, Apart m n) :
    Loading schema (g.insertNode n) where
  apart := List.pairwise_append.2 ⟨hg.apart, List.pairwise_singleton _ n,
    fun m hm _ hk => List.mem_singleton.1 hk ▸ hnew m hm⟩
  connects := hg.connects
  links := hg.links
  named := hg.named

theorem withEdge (hg : Loading schema g) {e : Edge} (hnamed : schema ≠ none → e.id ≠ .null)
    (hnew : ∀ f ∈ g.edges, Together schema f e) : Loading schema (g.insertEdge e) where
  apart := hg.apart
  connects u v := by
    show (g.adjacency.link e.id e).Connects u v ↔ ∃ f ∈ g.edges ++ [e], f.Joins u v
    rw [Adjacency.connects_link_iff, hg.connects]
    simp [or_and_right, exists_or]
  links hschema side id l := by
    -- links are those of edges in the graph, so no bundle has one under an identifier that is new
    have hfresh : ∀ b ∈ g.adjacency, b.joins e.source e.target = true → ∀ m ∈ b.links,
        m.key.sameKey e.id = false := by
      intro b hb hj m hm
      have hend : (b.endpoint .source).sameKey e.source = true := (Bool.and_eq_true_iff.1 hj).1
      have hlink := (Adjacency.mem_linksAt_iff _ _ _ m).2 ⟨b, hb, hend, hm⟩
      obtain ⟨f, hf, -, rfl⟩ := (hg.links hschema .source e.source m).1 hlink
      exact (hnew f hf).1
    show l ∈ (g.adjacency.link e.id e).linksAt side id ↔
      ∃ f ∈ g.edges ++ [e], (f.endpoint side).sameKey id = true ∧ l = ⟨f.id, f⟩
    rw [Adjacency.mem_linksAt_link_iff (hnamed hschema) hfresh, hg.links hschema]
    simp [or_and_right, exists_or]
  named hschema := by
    show ∀ f ∈ g.edges ++ [e], f.id ≠ .null
    rw [List.forall_mem_append, List.forall_mem_singleton]
    exact ⟨hg.named hschema, hnamed hschema⟩

/-- Edges go in where what `Loading` says holds; where there is a schema, none of them may have null
for its identifier. -/
theorem inserts_edges (schema : Option Schema) (nodes : List Node) :
    Inserts (Graph.addEdge schema) insertEdge edges (EdgeReady schema nodes) (Together schema)
      (fun g => Loading schema g ∧ g.nodes = nodes) fun e => schema ≠ none → e.id ≠ .null where
  insert_iff {g e g'} hg _ := by
    obtain ⟨hg, rfl⟩ := hg
    rw [Graph.addEdge_eq_ok_iff, hasEdge_eq_false_iff, hg.checkEdge_eq_ok_iff]
    constructor
    · rintro ⟨hkey, hnew, ⟨hends, hschema⟩, rfl⟩
      exact ⟨⟨hkey, hends, fun s hs => (hschema s hs).1⟩,
        fun f hf => ⟨hnew f hf, fun s hs => (hschema s hs).2 f hf⟩, rfl⟩
    · rintro ⟨hready, htogether, rfl⟩
      exact ⟨hready.key, fun f hf => (htogether f hf).1, ⟨hready.ends, fun s hs =>
        ⟨hready.declared s hs, fun f hf => (htogether f hf).2 s hs⟩⟩, rfl⟩
  keeps hg he hnew := ⟨hg.1.withEdge he hnew, hg.2⟩
  held_insert _ _ := rfl

theorem inserts_nodes (schema : Option Schema) :
    Inserts (Graph.addNode schema) insertNode nodes (NodeReady schema) Apart (Loading schema)
      fun _ => True where
  insert_iff {g n g'} _ _ := by
    rw [addNode_eq_ok_iff, hasNode_eq_false_iff]
    constructor
    · rintro ⟨hnew, hcheck, hid, hg'⟩
      exact ⟨⟨hcheck, hid⟩, hnew, hg'⟩
    · rintro ⟨⟨hcheck, hid⟩, hnew, hg'⟩
      exact ⟨hnew, hcheck, hid, hg'⟩
  keeps hg _ hnew := hg.withNode hnew
  held_insert _ _ := rfl

end Loading

/-! ### Everything that is loaded -/

/-- What it takes to add nodes and then edges to a graph. -/
structure Loadable (schema : Option Schema) (g : Graph) (ns : List Node) (es : List Edge) :
    Prop where
  nodesReady : ∀ n ∈ ns, NodeReady schema n
  nodesNew : ∀ n ∈ ns, ∀ m ∈ g.nodes, Apart m n
  nodesApart : ns.Pairwise Apart
  edgesReady : ∀ e ∈ es, EdgeReady schema (g.nodes ++ ns) e
  edgesNew : ∀ e ∈ es, ∀ f ∈ g.edges, Together schema f e
  edgesTogether : es.Pairwise (Together schema)

theorem Loadable.perm {ns ns' : List Node} {es es' : List Edge} (h : Loadable schema g ns es)
    (hns : ns.Perm ns') (hes : es.Perm es') : Loadable schema g ns' es' where
  nodesReady n hn := h.nodesReady n (hns.mem_iff.2 hn)
  nodesNew n hn := h.nodesNew n (hns.mem_iff.2 hn)
  nodesApart := (hns.pairwise_iff fun {_ _} => Std.Symm.symm _ _).1 h.nodesApart
  edgesReady e he := by
    have hready := h.edgesReady e (hes.mem_iff.2 he)
    have hmem : ∀ n, n ∈ g.nodes ++ ns ↔ n ∈ g.nodes ++ ns' := fun n =>
      (hns.append_left g.nodes).mem_iff
    refine ⟨hready.key, fun side => ?_, fun s hs => ?_⟩
    · obtain ⟨n, hn, hid⟩ := hready.ends side
      exact ⟨n, (hmem n).1 hn, hid⟩
    · obtain ⟨name, t, hname, ht, hdata, htypes⟩ := hready.declared s hs
      exact ⟨name, t, hname, ht, hdata, fun side n hn => htypes side n ((hmem n).2 hn)⟩
  edgesNew e he := h.edgesNew e (hes.mem_iff.2 he)
  edgesTogether := (hes.pairwise_iff fun {_ _} => Std.Symm.symm _ _).1 h.edgesTogether

theorem foldl_insertNode (ns : List Node) (g : Graph) :
    ns.foldl insertNode g = { g with nodes := g.nodes ++ ns } := by
  induction ns generalizing g with
  | nil => rw [List.foldl_nil, List.append_nil]
  | cons n rest ih =>
    rw [List.foldl_cons, ih, insertNode, List.append_assoc, List.singleton_append]

theorem foldl_insertEdge (es : List Edge) (g : Graph) :
    (es.foldl insertEdge g).nodes = g.nodes ∧ (es.foldl insertEdge g).edges = g.edges ++ es := by
  induction es generalizing g with
  | nil => exact ⟨rfl, (List.append_nil _).symm⟩
  | cons e rest ih =>
    rw [List.foldl_cons]
    refine ⟨(ih _).1, ?_⟩
    rw [(ih _).2, insertEdge, List.append_assoc, List.singleton_append]

/-- A graph that nodes and then edges were added to. -/
structure Loaded (schema : Option Schema) (g : Graph) (ns : List Node) (es : List Edge)
    (g' : Graph) : Prop where
  nodes : g'.nodes = g.nodes ++ ns
  edges : g'.edges = g.edges ++ es
  loading : Loading schema g'

namespace Loading

variable (hg : Loading schema g) {ns : List Node} {es : List Edge}
  (hnamed : ∀ e ∈ es, schema ≠ none → e.id ≠ .null)

include hg hnamed

theorem loadable_of_added
    (h : (do let k ← ns.foldlM (Graph.addNode schema) g
             es.foldlM (Graph.addEdge schema) k) = .ok g') :
    Loadable schema g ns es ∧ Loaded schema g ns es g' := by
  obtain ⟨k, hk, hg'⟩ := bind_eq_ok_iff.1 h
  have hkloading := (inserts_nodes schema).inv_of_foldlM (fun _ _ => trivial) hg hk
  obtain ⟨hready, hnew, hapart, rfl⟩ :=
    ((inserts_nodes schema).foldlM_eq_ok_iff (fun _ _ => trivial) hg).1 hk
  have hedges := inserts_edges schema (ns.foldl insertNode g).nodes
  have hloading := hedges.inv_of_foldlM hnamed ⟨hkloading, rfl⟩ hg'
  obtain ⟨hready', hnew', htogether, rfl⟩ :=
    (hedges.foldlM_eq_ok_iff hnamed ⟨hkloading, rfl⟩).1 hg'
  rw [foldl_insertNode] at hready' hnew' hloading ⊢
  refine ⟨⟨hready, hnew, hapart, hready', hnew', htogether⟩, ?_, ?_, hloading.1⟩
  · exact hloading.2
  · exact (foldl_insertEdge es _).2

theorem exists_added_of_loadable (h : Loadable schema g ns es) :
    ∃ g', (do let k ← ns.foldlM (Graph.addNode schema) g
              es.foldlM (Graph.addEdge schema) k) = .ok g' := by
  have hk : ns.foldlM (Graph.addNode schema) g = .ok (ns.foldl insertNode g) :=
    ((inserts_nodes schema).foldlM_eq_ok_iff (fun _ _ => trivial) hg).2
      ⟨h.nodesReady, h.nodesNew, h.nodesApart, rfl⟩
  have hkloading := (inserts_nodes schema).inv_of_foldlM (fun _ _ => trivial) hg hk
  rw [foldl_insertNode] at hk hkloading
  have hg' := ((inserts_edges schema (g.nodes ++ ns)).foldlM_eq_ok_iff hnamed ⟨hkloading, rfl⟩).2
    ⟨h.edgesReady, h.edgesNew, h.edgesTogether, rfl⟩
  exact ⟨_, bind_eq_ok_iff.2 ⟨_, hk, hg'⟩⟩

end Loading

/-- Two graphs have the same nodes and edges, and each node the same neighbours and predecessors, if
order does not count. -/
structure SameButOrder (g h : Graph) : Prop where
  nodes : g.nodes.Perm h.nodes
  edges : g.edges.Perm h.edges
  neighbors : ∀ u v, (∃ w ∈ g.neighbors u, w.sameKey v = true) ↔
    ∃ w ∈ h.neighbors u, w.sameKey v = true
  predecessors : ∀ u v, (∃ w ∈ g.predecessors u, w.sameKey v = true) ↔
    ∃ w ∈ h.predecessors u, w.sameKey v = true

theorem Loaded.sameButOrder {ns ns' : List Node} {es es' : List Edge} {h h' : Graph}
    (hh : Loaded schema g ns es h) (hh' : Loaded schema g ns' es' h') (hns : ns.Perm ns')
    (hes : es.Perm es') : SameButOrder h h' := by
  have hnodes : h.nodes.Perm h'.nodes := by
    rw [hh.nodes, hh'.nodes]
    exact hns.append_left g.nodes
  have hedges : h.edges.Perm h'.edges := by
    rw [hh.edges, hh'.edges]
    exact hes.append_left g.edges
  have hnode : ∀ id, h.hasNode id = true ↔ h'.hasNode id = true := by
    intro id
    rw [hasNode_iff_exists, hasNode_iff_exists]
    exact exists_congr fun n => and_congr_left fun _ => hnodes.mem_iff
  have hconnects : ∀ u v, h.adjacency.Connects u v ↔ h'.adjacency.Connects u v := by
    intro u v
    rw [hh.loading.connects, hh'.loading.connects]
    exact exists_congr fun e => and_congr_left fun _ => hedges.mem_iff
  refine ⟨hnodes, hedges, fun u v => ?_, fun u v => ?_⟩
  · rw [exists_neighbor_iff, exists_neighbor_iff, hnode, hconnects]
  · rw [exists_predecessor_iff, exists_predecessor_iff, hnode, hconnects]

/-! ### Documents -/

/-- The document that lists some values as nodes and others as edges. -/
def document (ns es : List Value) : Value := .record [("nodes", .list ns), ("edges", .list es)]

/-- Reading and adding values one after another is reading all and then adding. -/
theorem foldlM_read_iff {α : Type} {read : Value → Result α} {add : Graph → α → Result Graph}
    {vs : List Value} :
    vs.foldlM (fun g v => do add g (← read v)) g = .ok g' ↔
      ∃ xs, List.Forall₂ (fun v x => read v = .ok x) vs xs ∧ xs.foldlM add g = .ok g' := by
  induction vs generalizing g with
  | nil => simp
  | cons v rest ih =>
    simp only [List.foldlM_cons, bind_eq_ok_iff, ih, List.forall₂_cons_left_iff]
    constructor
    · rintro ⟨k, ⟨x, hx, hk⟩, xs, hxs, hg'⟩
      exact ⟨x :: xs, ⟨x, xs, hx, hxs, rfl⟩, bind_eq_ok_iff.2 ⟨k, hk, hg'⟩⟩
    · rintro ⟨_, ⟨x, xs, hx, hxs, rfl⟩, hall⟩
      obtain ⟨k, hk, hg'⟩ := bind_eq_ok_iff.1 hall
      exact ⟨k, ⟨x, hx, hk⟩, xs, hxs, hg'⟩

theorem load_document_eq_ok_iff {ns es : List Value} :
    g.load schema (document ns es) = .ok g' ↔
      ∃ nodes edges, List.Forall₂ (fun v n => Node.ofValue v = .ok n) ns nodes ∧
        List.Forall₂ (fun v e => Edge.ofValue v = .ok e) es edges ∧
          (do let k ← nodes.foldlM (addNode schema) g
              edges.foldlM (addEdge schema) k) = .ok g' := by
  have hload : g.load schema (document ns es) = (do
      let k ← ns.foldlM (fun g v => do addNode schema g (← Node.ofValue v)) g
      es.foldlM (fun g v => do addEdge schema g (← Edge.ofValue v)) k) := rfl
  rw [hload]
  simp only [bind_eq_ok_iff, foldlM_read_iff]
  constructor
  · rintro ⟨k, ⟨nodes, hnodes, hk⟩, edges, hedges, hg'⟩
    exact ⟨nodes, edges, hnodes, hedges, k, hk, hg'⟩
  · rintro ⟨nodes, edges, hnodes, hedges, k, hk, hg'⟩
    exact ⟨k, ⟨nodes, hnodes, hk⟩, edges, hedges, hg'⟩

theorem forall_mem_of_forall₂ {α β : Type} {R : α → β → Prop} {p : β → Prop} {l : List α}
    {m : List β} (h : List.Forall₂ R l m) (hp : ∀ x ∈ l, ∀ y, R x y → p y) : ∀ y ∈ m, p y := by
  induction h with
  | nil => exact nofun
  | cons hxy _ ih =>
    rw [List.forall_mem_cons] at hp ⊢
    exact ⟨hp.1 _ hxy, ih hp.2⟩

/-- A document that can be loaded into a valid graph can be loaded into it in any order, and the
same comes of it but for the order. -/
theorem Valid.exists_load_of_perm (hv : Valid schema g) {ns ns' es es' : List Value}
    (hns : ns.Perm ns') (hes : es.Perm es')
    (hnamed : ∀ v ∈ es, ∀ e, Edge.ofValue v = .ok e → schema ≠ none → e.id ≠ .null)
    (h : g.load schema (document ns es) = .ok g') :
    ∃ h', g.load schema (document ns' es') = .ok h' ∧ SameButOrder g' h' := by
  obtain ⟨nodes, edges, hnodes, hedges, hg'⟩ := load_document_eq_ok_iff.1 h
  -- what is read off permuted values is permuted as they are
  obtain ⟨nodes', hnodes', hns'⟩ := List.perm_comp_forall₂ hns.symm hnodes
  obtain ⟨edges', hedges', hes'⟩ := List.perm_comp_forall₂ hes.symm hedges
  have hall : ∀ e ∈ edges, schema ≠ none → e.id ≠ .null := forall_mem_of_forall₂ hedges hnamed
  have hall' : ∀ e ∈ edges', schema ≠ none → e.id ≠ .null := fun e he => hall e (hes'.mem_iff.1 he)
  obtain ⟨hloadable, hloaded⟩ := hv.loading.loadable_of_added hall hg'
  have hloadable' := hloadable.perm hns'.symm hes'.symm
  obtain ⟨h', hh'⟩ := hv.loading.exists_added_of_loadable hall' hloadable'
  have hloaded' := (hv.loading.loadable_of_added hall' hh').2
  exact ⟨h', load_document_eq_ok_iff.2 ⟨nodes', edges', hnodes', hedges', hh'⟩,
    hloaded.sameButOrder hloaded' hns'.symm hes'.symm⟩

end Graph

end PropertyGraph
