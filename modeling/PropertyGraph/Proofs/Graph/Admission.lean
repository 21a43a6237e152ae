import PropertyGraph.Proofs.Graph.Document
import PropertyGraph.Proofs.Graph.Loading

/-!
# Admission of edges

What an edge must be like to be added, and with which failure it is refused otherwise, in terms of
the lists of nodes and edges alone.  An edge is *admissible* when its identifier is new, its ends
are there, its type is declared, its data is as declared, its ends have the types that its type asks
for, and no stored edge crowds it on a side that takes only one.  It is *refused* with the failure
of the first of these conditions that it does not meet.

In a valid graph these two decide everything: adding an edge succeeds just when it is admissible
(`Valid.addEdge_ok_iff_admissible`), and fails with just what it is refused with
(`Valid.addEdge_error_iff_refused`).  The checks read the adjacency where the conditions speak of
the list of edges; that an edge is crowded by one stored edge at most is what makes the failure that
the adjacency gives first the only one there is.
-/

namespace PropertyGraph

/-! ### Data -/

namespace Schema

/-- Data gives a declared field a value of its kind. -/
def Gives (data : Fields) (p : String × Kind) : Prop :=
  ∃ v, data.get? p.1 = some v ∧ p.2.accepts v = true

/-- A label is the name of a declared field. -/
def Knows (declared : Record Kind) (label : Value) : Prop :=
  ∃ name, label = .text name ∧ Record.has declared name = true

/-- The failure with which data is refused: that of the first declared field which is missing or of
the wrong kind, or else that of the first label which is not declared. -/
inductive DataRefused (cls : EntityClass) (type : Value) (declared : Record Kind) (data : Fields) :
    Failure → Prop
  | missing {before after : Record Kind} {name : String} {kind : Kind} :
    declared = before ++ (name, kind) :: after → (∀ p ∈ before, Gives data p) →
      data.get? name = none →
        DataRefused cls type declared data (.missingProperty name type cls)
  | mismatch {before after : Record Kind} {name : String} {kind : Kind} {v : Value} :
    declared = before ++ (name, kind) :: after → (∀ p ∈ before, Gives data p) →
      data.get? name = some v → kind.accepts v = false → v.kindName ≠ kind.name →
        DataRefused cls type declared data (.kindMismatch name kind v.kindName type cls)
  | unknown {before after : List Value} {label : Value} :
    (∀ p ∈ declared, Gives data p) → data.labels = before ++ label :: after →
      (∀ l ∈ before, Knows declared l) → ¬ Knows declared label →
        DataRefused cls type declared data (.unknownProperty label type cls)

section Data

variable (cls : EntityClass) (type : Value) (declared : Record Kind) (data : Fields)

theorem fieldFault?_eq_some_iff (p : String × Kind) (f : Failure) :
    fieldFault? cls type data p = some f ↔
      data.get? p.1 = none ∧ f = .missingProperty p.1 type cls ∨
        ∃ v, data.get? p.1 = some v ∧ p.2.accepts v = false ∧
          f = .kindMismatch p.1 p.2 v.kindName type cls := by
  have hsome : ∀ g : Failure, some g = some f ↔ f = g := fun g =>
    (Option.some.injEq g f).to_iff.trans eq_comm
  unfold fieldFault?
  cases data.get? p.1 with
  | none => simp [hsome]
  | some v => cases h : p.2.accepts v <;> simp [h, hsome]

theorem unknownFault?_eq_some_iff (f : Failure) :
    unknownFault? cls type declared data = some f ↔
      ∃ before label after, data.labels = before ++ label :: after ∧
        (∀ l ∈ before, Knows declared l) ∧ ¬ Knows declared label ∧
          f = .unknownProperty label type cls := by
  simp only [unknownFault?, Option.map_eq_some_iff, List.find?_eq_some_iff_append,
    Bool.not_eq_true', Bool.not_not, ← Bool.not_eq_true, isDeclared_iff]
  constructor
  · rintro ⟨label, ⟨hlabel, before, after, hdata, hbefore⟩, rfl⟩
    exact ⟨before, label, after, hdata, hbefore, hlabel, rfl⟩
  · rintro ⟨before, label, after, hdata, hbefore, hlabel, rfl⟩
    exact ⟨label, ⟨hlabel, before, after, hdata, hbefore⟩, rfl⟩

theorem dataFault?_eq_some_iff (f : Failure) :
    dataFault? cls type declared data = some f ↔ DataRefused cls type declared data f := by
  simp only [dataFault?, Option.or_eq_some_iff, List.findSome?_eq_some_iff,
    List.findSome?_eq_none_iff, fieldFault?_eq_some_iff, fieldFault?_eq_none_iff,
    unknownFault?_eq_some_iff]
  constructor
  · rintro (⟨before, ⟨name, kind⟩, after, hsplit, hfault, hbefore⟩ |
      ⟨hall, before, label, after, hdata, hbefore, hlabel, rfl⟩)
    · obtain ⟨hnone, rfl⟩ | ⟨v, hv, hkind, rfl⟩ := hfault
      · exact .missing hsplit hbefore hnone
      · exact .mismatch hsplit hbefore hv hkind (Kind.kindName_ne_of_not_accepts hkind)
    · exact .unknown hall hdata hbefore hlabel
  · intro h
    cases h with
    | missing hsplit hbefore hnone =>
      exact .inl ⟨_, _, _, hsplit, .inl ⟨hnone, rfl⟩, hbefore⟩
    | mismatch hsplit hbefore hv hkind _ =>
      exact .inl ⟨_, _, _, hsplit, .inr ⟨_, hv, hkind, rfl⟩, hbefore⟩
    | unknown hall hdata hbefore hlabel =>
      exact .inr ⟨hall, _, _, _, hdata, hbefore, hlabel, rfl⟩

end Data

end Schema

namespace Graph

/-! ### Edges -/

/-- An edge of the same type is at the same node on a side. -/
def Meets (e f : Edge) (side : Side) : Prop := f.type = e.type ∧ f.endpoint side = e.endpoint side

/-- An edge has a new identifier, and its ends are there. -/
structure Placed (g : Graph) (e : Edge) : Prop where
  fresh : ∀ f ∈ g.edges, f.id ≠ e.id
  ends : ∀ side, ∃ n ∈ g.nodes, n.id = e.endpoint side

/-- The type of an edge is declared, and its data is as declared. -/
structure Typed (s : Schema) (e : Edge) (t : EdgeType) : Prop where
  declared : ∃ name, e.type = .text name ∧ s.edgeType? name = some t
  data : Schema.Conforms t.fields e.data

/-- The node at a side of an edge has the type that is asked for there. -/
def Suits (t : EdgeType) (g : Graph) (e : Edge) (side : Side) : Prop :=
  ∃ n ∈ g.nodes, n.id = e.endpoint side ∧ n.type = .text (t.side side).nodeType

/-- A side takes many edges of the type, or no stored one is at the same node there. -/
def Free (t : EdgeType) (g : Graph) (e : Edge) (side : Side) : Prop :=
  (t.side side).multiple = false → ∀ f ∈ g.edges, ¬ Meets e f side

/-- An edge is as it must be to be added. -/
structure Admissible (s : Schema) (g : Graph) (e : Edge) : Prop where
  placed : Placed g e
  fits : ∃ t, Typed s e t ∧ (∀ side, Suits t g e side) ∧ ∀ side, Free t g e side

/-- The failure with which an edge is refused: that of the first condition that it does not meet. -/
inductive Refused (s : Schema) (g : Graph) (e : Edge) : Failure → Prop
  | duplicate {f : Edge} : f ∈ g.edges → f.id = e.id → Refused s g e (.duplicate .edge e.id)
  | missingEnds {missing : List Value} :
    (∀ f ∈ g.edges, f.id ≠ e.id) →
      missing = [e.source, e.target].filter (fun id => !g.hasNode id) → missing ≠ [] →
        Refused s g e (.missingEndpoints e.id missing)
  | unknownType :
    Placed g e → (∀ name, e.type = .text name → s.edgeType? name = none) →
      Refused s g e (.unknownType e.type .edge)
  | data {name : String} {t : EdgeType} {f : Failure} :
    Placed g e → e.type = .text name → s.edgeType? name = some t →
      Schema.DataRefused .edge e.type t.fields e.data f → Refused s g e f
  | endpoint {t : EdgeType} {side : Side} {n : Node} :
    Placed g e → Typed s e t → (side = .target → Suits t g e .source) →
      n ∈ g.nodes → n.id = e.endpoint side → n.type ≠ .text (t.side side).nodeType →
        Refused s g e (.endpointMismatch e.type side (t.side side).nodeType n.type)
  | cardinality {t : EdgeType} {side : Side} {f : Edge} :
    Placed g e → Typed s e t → (∀ side, Suits t g e side) →
      (side = .target → Free t g e .source) → (t.side side).multiple = false →
        f ∈ g.edges → Meets e f side → (∀ f' ∈ g.edges, Meets e f' side → f' = f) →
          Refused s g e (.cardinality e.type side (e.endpoint side) f.id)

/-! ### What the checks find -/

theorem endsFault?_eq_some_iff {g : Graph} {e : Edge}
    (hends : ∀ side, isText (e.endpoint side) = true) (f : Failure) :
    g.endsFault? e = some f ↔
      g.missingEnds e ≠ [] ∧ f = .missingEndpoints e.id (g.missingEnds e) := by
  have htexts : (g.missingEnds e).all isText = true := by
    refine List.all_eq_true.2 fun id hid => ?_
    have hid : id ∈ [e.source, e.target] := (List.mem_filter.1 hid).1
    simp only [List.mem_cons, List.not_mem_nil, or_false] at hid
    obtain rfl | rfl := hid
    · exact hends .source
    · exact hends .target
  unfold endsFault?
  split
  · rename_i hnil
    simp [hnil]
  · rename_i hne
    rw [if_pos htexts, Option.some.injEq]
    exact ⟨fun h => ⟨hne, h.symm⟩, fun h => h.2.symm⟩

/-- What is found at ends of some types, the source first. -/
theorem endpointFault?_eq_some_iff (type : Value) (t : EdgeType) (types : Side → Value)
    (f : Failure) :
    Schema.endpointFault? type t (types .source) (types .target) = some f ↔
      ∃ side, types side ≠ .text (t.side side).nodeType ∧
        (side = .target → types .source = .text t.source.nodeType) ∧
          f = .endpointMismatch type side (t.side side).nodeType (types side) := by
  have hcases : Schema.endpointFault? type t (types .source) (types .target) = some f ↔
      types .source ≠ .text t.source.nodeType ∧
          f = .endpointMismatch type .source t.source.nodeType (types .source) ∨
        types .source = .text t.source.nodeType ∧ types .target ≠ .text t.target.nodeType ∧
          f = .endpointMismatch type .target t.target.nodeType (types .target) := by
    rw [ne_eq, ne_eq, ← Value.eqv_text_right_iff, ← Value.eqv_text_right_iff,
      Schema.endpointFault?]
    cases (types .source).eqv (.text t.source.nodeType) <;>
      cases (types .target).eqv (.text t.target.nodeType) <;> simp [eq_comm (a := f)]
  rw [hcases]
  constructor
  · rintro (⟨hsource, hf⟩ | ⟨hsource, htarget, hf⟩)
    · exact ⟨.source, hsource, fun h => Side.noConfusion h, hf⟩
    · exact ⟨.target, htarget, fun _ => hsource, hf⟩
  · rintro ⟨side | side, hside, hsource, hf⟩
    · exact .inl ⟨hside, hf⟩
    · exact .inr ⟨hsource rfl, hside, hf⟩

/-- A text names a type that is declared, or one that is not. -/
theorem declared?_cases {α : Type} (types : Record α) {type : Value} (htype : isText type = true) :
    (∀ name, type = .text name → Record.get? types name = none) ∧
        Schema.declared? types type = .ok none ∨
      ∃ name t, type = .text name ∧ Record.get? types name = some t ∧
        Schema.declared? types type = .ok (some (name, t)) := by
  cases type with
  | text name =>
    cases h : Record.get? types name with
    | none => exact .inl ⟨fun _ hname => Value.text.inj hname ▸ h, by simp [Schema.declared?, h]⟩
    | some t => exact .inr ⟨name, t, rfl, h, by simp [Schema.declared?, h]⟩
  | points ps => exact .inl ⟨fun _ h => Value.noConfusion h, rfl⟩
  | _ => cases htype

theorem schemaCheckEdge_eq_error_iff (s : Schema) {type : Value} (htype : isText type = true)
    (data : Fields) (sourceType targetType : Value) (f : Failure) :
    s.checkEdge type (.ofFields data) sourceType targetType = .error f ↔
      (∀ name, type = .text name → s.edgeType? name = none) ∧ f = .unknownType type .edge ∨
        ∃ name t, type = .text name ∧ s.edgeType? name = some t ∧
          (Schema.DataRefused .edge type t.fields data f ∨
            Schema.Conforms t.fields data ∧
              Schema.endpointFault? type t sourceType targetType = some f) := by
  obtain ⟨hnone, hfound⟩ | ⟨name, t, rfl, ht, hfound⟩ := declared?_cases s.edgeTypes htype
  · have hcheck : s.checkEdge type (.ofFields data) sourceType targetType =
        .error (.unknownType type .edge) := by
      rw [Schema.checkEdge, hfound]
      rfl
    rw [hcheck, Except.error.injEq]
    constructor
    · exact fun h => .inl ⟨hnone, h.symm⟩
    · rintro (⟨-, rfl⟩ | ⟨name, t, hname, ht, -⟩)
      · rfl
      · rw [Schema.edgeType?, hnone name hname] at ht
        cases ht
  · have hcheck : s.checkEdge (.text name) (.ofFields data) sourceType targetType = .error f ↔
        Schema.DataRefused .edge (.text name) t.fields data f ∨
          Schema.Conforms t.fields data ∧
            Schema.endpointFault? (.text name) t sourceType targetType = some f := by
      have hchain : s.checkEdge (.text name) (.ofFields data) sourceType targetType =
          (Schema.checkData .edge (.text name) t.fields (.ofFields data) >>= fun _ =>
            Schema.refuse (Schema.endpointFault? (.text name) t sourceType targetType) >>= fun _ =>
              .ok t) := by
        rw [Schema.checkEdge, hfound]
        rfl
      rw [hchain, bind_eq_error_iff]
      simp only [bind_eq_error_iff, Schema.checkData_ofFields, Schema.refuse_eq_error_iff,
        Schema.refuse_eq_ok_iff, Schema.dataFault?_eq_some_iff, Schema.dataFault?_eq_none_iff,
        reduceCtorEq, and_false, exists_const, or_false]
    rw [hcheck]
    constructor
    · exact fun h => .inr ⟨name, t, rfl, ht, h⟩
    · rintro (⟨hnone, -⟩ | ⟨name', t', hname, ht', h⟩)
      · cases (hnone name rfl).symm.trans ht
      · cases hname
        cases ht'.symm.trans ht
        exact h

/-- What is found on the sides that take only one, the source first. -/
theorem cardinalityFault?_eq_some_iff (g : Graph) (t : EdgeType) (e : Edge) (ignored : Value)
    (f : Failure) :
    g.cardinalityFault? t e ignored = some f ↔
      ∃ side, (t.side side).multiple = false ∧ g.crowdFault? e side ignored = some f ∧
        (side = .target → t.source.multiple = false → g.crowdFault? e .source ignored = none) := by
  have hside : ∀ side, (if (t.side side).multiple then none else g.crowdFault? e side ignored) =
      some f ↔ (t.side side).multiple = false ∧ g.crowdFault? e side ignored = some f := by
    intro side
    cases (t.side side).multiple <;> simp
  have hnone : (if t.source.multiple then none else g.crowdFault? e .source ignored) = none ↔
      (t.source.multiple = false → g.crowdFault? e .source ignored = none) := by
    cases t.source.multiple <;> simp
  rw [cardinalityFault?, Option.or_eq_some_iff, hnone]
  constructor
  · rintro (h | ⟨hsource, h⟩)
    · exact ⟨.source, ((hside .source).1 h).1, ((hside .source).1 h).2,
        fun h => Side.noConfusion h⟩
    · exact ⟨.target, ((hside .target).1 h).1, ((hside .target).1 h).2, fun _ => hsource⟩
  · rintro ⟨side | side, hm, h, hsource⟩
    · exact .inl ((hside .source).2 ⟨hm, h⟩)
    · exact .inr ⟨hsource rfl, (hside .target).2 ⟨hm, h⟩⟩

/-- The link of an edge with an identifier is a fault of another edge, if it is not ignored and the
types are equal. -/
theorem linkFault?_eq_some_iff {g : Graph} {f : Edge} (hf : f.id ≠ .null) (e : Edge) (side : Side)
    (ignored : Value) (x : Failure) :
    g.linkFault? e side ignored ⟨f.id, f⟩ = some x ↔
      (f.id.eqv ignored = false ∧ f.type.eqv e.type = true) ∧
        x = .cardinality e.type side (e.endpoint side) f.id := by
  rw [linkFault?_of_named g hf]
  cases hid : f.id.eqv ignored with
  | true => simp
  | false => cases htype : f.type.eqv e.type <;> simp [eq_comm (a := x)]

namespace NamedLinks

variable {g : Graph} {e : Edge} {side : Side} (h : NamedLinks g side (e.endpoint side))

include h

/-- Whatever link the adjacency gives first, it is that of an edge of the type at the node. -/
theorem exists_of_crowdFault? {x : Failure} (hx : g.crowdFault? e side .null = some x) :
    ∃ f ∈ g.edges, (f.endpoint side).sameKey (e.endpoint side) = true ∧
      f.type.eqv e.type = true ∧ x = .cardinality e.type side (e.endpoint side) f.id := by
  obtain ⟨l, hl, hfault⟩ := List.exists_of_findSome?_eq_some hx
  obtain ⟨f, hf, hend, rfl⟩ := (h.links l).1 hl
  obtain ⟨⟨-, htype⟩, hx⟩ := (linkFault?_eq_some_iff (h.named f hf hend) e side .null x).1 hfault
  exact ⟨f, hf, hend, htype, hx⟩

/-- The only edge of the type at the node is in the way. -/
theorem crowdFault?_eq_some {f : Edge} (hf : f ∈ g.edges)
    (hend : (f.endpoint side).sameKey (e.endpoint side) = true) (htype : f.type.eqv e.type = true)
    (honly : ∀ k ∈ g.edges, (k.endpoint side).sameKey (e.endpoint side) = true →
      k.type.eqv e.type = true → k = f) :
    g.crowdFault? e side .null = some (.cardinality e.type side (e.endpoint side) f.id) := by
  rcases hx : g.crowdFault? e side .null with _ | x
  · have hfree := h.crowdFault?_null_eq_none_iff.1 hx f hf hend
    rw [htype] at hfree
    cases hfree
  · obtain ⟨k, hk, hkend, hktype, rfl⟩ := h.exists_of_crowdFault? hx
    rw [honly k hk hkend hktype]

end NamedLinks

namespace Valid

variable {s : Schema} {g : Graph}

theorem meets_iff (hv : Valid (some s) g) {e : Edge} {name : String} (hname : e.type = .text name)
    {f : Edge} (hf : f ∈ g.edges) (side : Side) :
    Meets e f side ↔
      (f.endpoint side).sameKey (e.endpoint side) = true ∧ f.type.eqv e.type = true := by
  rw [Value.sameKey_iff_eq_left (hv.sound.isText_endpoint hf side), hname,
    Value.eqv_text_right_iff, ← hname]
  exact and_comm

theorem crowdFault?_eq_none_iff (hv : Valid (some s) g) {e : Edge} {name : String}
    (hname : e.type = .text name) (side : Side) :
    g.crowdFault? e side .null = none ↔ ∀ f ∈ g.edges, ¬ Meets e f side := by
  rw [(hv.linked.namedLinks hv.sound side _).crowdFault?_null_eq_none_iff]
  refine forall₂_congr fun f hf => ?_
  rw [hv.meets_iff hname hf, not_and, Bool.not_eq_true]

/-- A crowded side is crowded by one edge only. -/
theorem eq_of_meets (hv : Valid (some s) g) {e : Edge} {t : EdgeType} (ht : Typed s e t)
    {side : Side} (hm : (t.side side).multiple = false) {f f' : Edge} (hf : f ∈ g.edges)
    (hf' : f' ∈ g.edges) (h : Meets e f side) (h' : Meets e f' side) : f' = f := by
  obtain ⟨name, hname, hdecl⟩ := ht.declared
  by_contra hne
  have : Std.Symm (Uncrowded s) := ⟨fun _ _ => Uncrowded.symm⟩
  have hclear := (hv.conforming s rfl).single.forall hf' hf hne
  exact hclear name t side (h'.1.trans hname) (h.1.trans hname) hdecl hm (h'.2.trans h.2.symm)

theorem crowdFault?_eq_some_iff (hv : Valid (some s) g) {e : Edge} {t : EdgeType}
    (ht : Typed s e t) {side : Side} (hm : (t.side side).multiple = false) (x : Failure) :
    g.crowdFault? e side .null = some x ↔
      ∃ f ∈ g.edges, Meets e f side ∧ (∀ f' ∈ g.edges, Meets e f' side → f' = f) ∧
        x = .cardinality e.type side (e.endpoint side) f.id := by
  obtain ⟨name, hname, -⟩ := id ht.declared
  have hlinks := hv.linked.namedLinks hv.sound side (e.endpoint side)
  constructor
  · intro hx
    obtain ⟨f, hf, hend, htype, rfl⟩ := hlinks.exists_of_crowdFault? hx
    have hmeets := (hv.meets_iff hname hf side).2 ⟨hend, htype⟩
    exact ⟨f, hf, hmeets, fun f' hf' h' => hv.eq_of_meets ht hm hf hf' hmeets h', rfl⟩
  · rintro ⟨f, hf, hmeets, honly, rfl⟩
    obtain ⟨hend, htype⟩ := (hv.meets_iff hname hf side).1 hmeets
    exact hlinks.crowdFault?_eq_some hf hend htype fun k hk hkend hktype =>
      honly k hk ((hv.meets_iff hname hk side).2 ⟨hkend, hktype⟩)

end Valid

/-! ### Adding -/

theorem checkEdge_eq_error_iff (g : Graph) (s : Schema) (e : Edge) (f : Failure) :
    g.checkEdge (some s) e .null = .error f ↔
      g.endsFault? e = some f ∨ g.endsFault? e = none ∧
        (s.checkEdge e.type (.ofFields e.data) (g.typeOf e.source) (g.typeOf e.target) = .error f ∨
          ∃ t, s.checkEdge e.type (.ofFields e.data) (g.typeOf e.source) (g.typeOf e.target) =
            .ok t ∧ g.cardinalityFault? t e .null = some f) := by
  simp only [checkEdge, bind_eq_error_iff, Schema.refuse_eq_error_iff, Schema.refuse_eq_ok_iff,
    exists_const]

theorem addEdge_eq_error_iff_check (g : Graph) (schema : Option Schema) {e : Edge}
    (hid : isText e.id = true) (f : Failure) :
    g.addEdge schema e = .error f ↔
      g.hasEdge e.id = true ∧ f = .duplicate .edge e.id ∨
        g.hasEdge e.id = false ∧ g.checkEdge schema e .null = .error f := by
  rw [addEdge, requireKey_of_isText hid]
  cases g.hasEdge e.id with
  | true => simp [throw, throwThe, MonadExceptOf.throw, bind, Except.bind, eq_comm (a := f)]
  | false =>
    rcases g.checkEdge schema e .null with f' | _ <;>
      simp [bind, Except.bind, pure, Except.pure]

theorem placed_iff {g : Graph} (hg : g.Sound) (e : Edge) :
    Placed g e ↔ g.hasEdge e.id = false ∧ g.endsFault? e = none := by
  rw [← Bool.not_eq_true, hg.hasEdge_iff, endsFault?_eq_none_iff]
  simp only [hg.hasNode_iff, not_exists, not_and]
  exact ⟨fun h => ⟨h.fresh, h.ends⟩, fun h => ⟨h.1, h.2⟩⟩

/-- The type of the node at a side, which is looked up, is that of any node with its identifier. -/
theorem suits_iff {g : Graph} (hg : g.Sound) {e : Edge} (hends : ∀ side, ∃ n ∈ g.nodes,
    n.id = e.endpoint side) (t : EdgeType) (side : Side) :
    Suits t g e side ↔ g.typeOf (e.endpoint side) = .text (t.side side).nodeType := by
  constructor
  · rintro ⟨n, hn, hid, htype⟩
    rw [← hid, hg.typeOf_eq hn, htype]
  · intro htype
    obtain ⟨n, hn, hid⟩ := hends side
    exact ⟨n, hn, hid, by rw [← hg.typeOf_eq hn, hid, htype]⟩

theorem Placed.addEdge_eq_error_iff {s : Schema} {g : Graph} (hg : g.Sound) {e : Edge}
    (hid : isText e.id = true) (h : Placed g e) (f : Failure) :
    g.addEdge (some s) e = .error f ↔
      s.checkEdge e.type (.ofFields e.data) (g.typeOf e.source) (g.typeOf e.target) = .error f ∨
        ∃ t, s.checkEdge e.type (.ofFields e.data) (g.typeOf e.source) (g.typeOf e.target) =
          .ok t ∧ g.cardinalityFault? t e .null = some f := by
  obtain ⟨hnew, hthere⟩ := (placed_iff hg e).1 h
  rw [addEdge_eq_error_iff_check g (some s) hid, checkEdge_eq_error_iff, hnew, hthere]
  simp

/-- The type that is looked up for an end is that of a node with its identifier. -/
theorem Sound.typeOf_eq_of_id {g : Graph} (hg : g.Sound) {n : Node} (hn : n ∈ g.nodes)
    {id : Value} (hid : n.id = id) : g.typeOf id = n.type :=
  hid ▸ hg.typeOf_eq hn

namespace Valid

variable {s : Schema} {g : Graph}

/-- Adding an edge succeeds just when it is admissible. -/
theorem addEdge_ok_iff_admissible (hv : Valid (some s) g) {e : Edge} (hid : isText e.id = true)
    (g' : Graph) :
    g.addEdge (some s) e = .ok g' ↔ Admissible s g e ∧ g' = g.insertEdge e := by
  rw [addEdge_eq_ok_iff, checkEdge_some_eq_ok_iff hv.sound hv.linked, ← Bool.not_eq_true,
    hv.sound.hasEdge_iff]
  constructor
  · rintro ⟨-, hnew, ⟨⟨name, t, hname, ht, hdata, hsuits⟩, hfree⟩, rfl⟩
    have hends : ∀ side, ∃ n ∈ g.nodes, n.id = e.endpoint side := by
      intro side
      obtain ⟨n, hn, hnid, -⟩ := hsuits side
      exact ⟨n, hn, hnid⟩
    refine ⟨⟨⟨fun f hf hfid => hnew ⟨f, hf, hfid⟩, hends⟩, t, ⟨⟨name, hname, ht⟩, hdata⟩, hsuits,
      fun side hm f hf hmeets => ?_⟩, rfl⟩
    exact hfree f hf (hv.sound.edge_named hf) name t side (hmeets.1.trans hname) hname ht hm
      hmeets.2
  · rintro ⟨⟨⟨hfresh, -⟩, t, ⟨⟨name, hname, ht⟩, hdata⟩, hsuits, hfree⟩, rfl⟩
    refine ⟨requireKey_of_isText hid, fun ⟨f, hf, hfid⟩ => hfresh f hf hfid,
      ⟨⟨name, t, hname, ht, hdata, hsuits⟩, ?_⟩, rfl⟩
    intro f hf _ name' t' side hfname hname' ht' hm hend
    cases hname.symm.trans hname'
    cases ht.symm.trans ht'
    exact hfree side hm f hf ⟨hfname.trans hname.symm, hend⟩

theorem refused_of_schemaCheck (hv : Valid (some s) g) {e : Edge} (htype : isText e.type = true)
    (hplaced : Placed g e) {f : Failure}
    (h : s.checkEdge e.type (.ofFields e.data) (g.typeOf e.source) (g.typeOf e.target) =
      .error f) : Refused s g e f := by
  obtain ⟨hnone, rfl⟩ | ⟨name, t, hname, ht, hdata | ⟨hdata, hend⟩⟩ :=
    (schemaCheckEdge_eq_error_iff s htype _ _ _ f).1 h
  · exact .unknownType hplaced hnone
  · exact .data hplaced hname ht hdata
  · obtain ⟨side, hother, hsource, rfl⟩ :=
      (endpointFault?_eq_some_iff e.type t (fun side => g.typeOf (e.endpoint side)) f).1 hend
    obtain ⟨n, hn, hnid⟩ := hplaced.ends side
    have hntype := hv.sound.typeOf_eq_of_id hn hnid
    rw [hntype] at hother ⊢
    exact .endpoint hplaced ⟨⟨name, hname, ht⟩, hdata⟩
      (fun hside => (suits_iff hv.sound hplaced.ends t .source).2 (hsource hside)) hn hnid hother

theorem refused_of_crowded (hv : Valid (some s) g) {e : Edge} (hplaced : Placed g e)
    {t : EdgeType} {f : Failure}
    (hok : s.checkEdge e.type (.ofFields e.data) (g.typeOf e.source) (g.typeOf e.target) = .ok t)
    (hcard : g.cardinalityFault? t e .null = some f) : Refused s g e f := by
  obtain ⟨name, hname, ht, hdata, hsource, htarget⟩ :=
    (schemaCheckEdge_eq_ok_iff s _ _ _ _ t).1 hok
  have htyped : Typed s e t := ⟨⟨name, hname, ht⟩, hdata⟩
  have hsuits : ∀ side, Suits t g e side := by
    intro side
    rw [suits_iff hv.sound hplaced.ends]
    cases side
    · exact hsource
    · exact htarget
  obtain ⟨side, hm, hcrowd, hfirst⟩ := (cardinalityFault?_eq_some_iff g t e .null f).1 hcard
  obtain ⟨k, hk, hmeets, honly, rfl⟩ := (hv.crowdFault?_eq_some_iff htyped hm f).1 hcrowd
  have hfree : side = .target → Free t g e .source := fun hside hms =>
    (hv.crowdFault?_eq_none_iff hname .source).1 (hfirst hside hms)
  exact .cardinality hplaced htyped hsuits hfree hm hk hmeets honly

theorem refused_of_addEdge (hv : Valid (some s) g) {e : Edge} (hid : isText e.id = true)
    (htype : isText e.type = true) (hends : ∀ side, isText (e.endpoint side) = true)
    {f : Failure} (h : g.addEdge (some s) e = .error f) : Refused s g e f := by
  by_cases hplaced : Placed g e
  · obtain hschema | ⟨t, hok, hcard⟩ := (hplaced.addEdge_eq_error_iff hv.sound hid f).1 h
    · exact hv.refused_of_schemaCheck htype hplaced hschema
    · exact hv.refused_of_crowded hplaced hok hcard
  · -- what is not placed fails before the schema is looked at
    obtain ⟨hdup, rfl⟩ | ⟨hnew, hcheck⟩ := (addEdge_eq_error_iff_check g (some s) hid f).1 h
    · obtain ⟨k, hk, hkid⟩ := (hv.sound.hasEdge_iff e.id).1 hdup
      exact .duplicate hk hkid
    obtain hfault | ⟨hthere, -⟩ := (checkEdge_eq_error_iff g s e f).1 hcheck
    · obtain ⟨hmissing, rfl⟩ := (endsFault?_eq_some_iff hends f).1 hfault
      refine .missingEnds (fun k hk hkid => ?_) rfl hmissing
      rw [(hv.sound.hasEdge_iff e.id).2 ⟨k, hk, hkid⟩] at hnew
      cases hnew
    · exact absurd ((placed_iff hv.sound e).2 ⟨hnew, hthere⟩) hplaced

theorem addEdge_of_refused (hv : Valid (some s) g) {e : Edge} (hid : isText e.id = true)
    (htype : isText e.type = true) (hends : ∀ side, isText (e.endpoint side) = true)
    {f : Failure} (h : Refused s g e f) : g.addEdge (some s) e = .error f := by
  cases h with
  | duplicate hk hkid =>
    refine (addEdge_eq_error_iff_check g (some s) hid _).2 (.inl ⟨?_, rfl⟩)
    exact (hv.sound.hasEdge_iff e.id).2 ⟨_, hk, hkid⟩
  | missingEnds hfresh hmissing hne =>
    subst hmissing
    refine (addEdge_eq_error_iff_check g (some s) hid _).2 (.inr ⟨?_, ?_⟩)
    · rw [← Bool.not_eq_true, hv.sound.hasEdge_iff]
      exact fun ⟨k, hk, hkid⟩ => hfresh k hk hkid
    · have hfault := (endsFault?_eq_some_iff hends _).2 ⟨hne, rfl⟩
      exact (checkEdge_eq_error_iff g s e _).2 (.inl hfault)
  | unknownType hplaced hnone =>
    refine (hplaced.addEdge_eq_error_iff hv.sound hid _).2 (.inl ?_)
    exact (schemaCheckEdge_eq_error_iff s htype _ _ _ _).2 (.inl ⟨hnone, rfl⟩)
  | data hplaced hname ht hdata =>
    refine (hplaced.addEdge_eq_error_iff hv.sound hid _).2 (.inl ?_)
    exact (schemaCheckEdge_eq_error_iff s htype _ _ _ _).2 (.inr ⟨_, _, hname, ht, .inl hdata⟩)
  | @endpoint t side n hplaced htyped hfirst hn hnid hother =>
    obtain ⟨⟨name, hname, ht⟩, hdata⟩ := htyped
    refine (hplaced.addEdge_eq_error_iff hv.sound hid _).2 (.inl ?_)
    refine (schemaCheckEdge_eq_error_iff s htype _ _ _ _).2
      (.inr ⟨name, t, hname, ht, .inr ⟨hdata, ?_⟩⟩)
    rw [← hv.sound.typeOf_eq_of_id hn hnid] at hother ⊢
    exact (endpointFault?_eq_some_iff e.type t (fun side => g.typeOf (e.endpoint side)) _).2
      ⟨side, hother, fun hside => (suits_iff hv.sound hplaced.ends t .source).1 (hfirst hside), rfl⟩
  | @cardinality t side k hplaced htyped hall hfirst hm hk hmeets honly =>
    have hsuits := suits_iff hv.sound hplaced.ends t
    obtain ⟨name, hname, ht⟩ := id htyped.declared
    refine (hplaced.addEdge_eq_error_iff hv.sound hid _).2 (.inr ⟨t, ?_, ?_⟩)
    · exact (schemaCheckEdge_eq_ok_iff s _ _ _ _ t).2 ⟨name, hname, ht, htyped.data,
        (hsuits .source).1 (hall .source), (hsuits .target).1 (hall .target)⟩
    · refine (cardinalityFault?_eq_some_iff g t e .null _).2 ⟨side, hm, ?_, fun hside hms => ?_⟩
      · exact (hv.crowdFault?_eq_some_iff htyped hm _).2 ⟨k, hk, hmeets, honly, rfl⟩
      · exact (hv.crowdFault?_eq_none_iff hname .source).2 (hfirst hside hms)

/-- Adding an edge fails with just what it is refused with. -/
theorem addEdge_error_iff_refused (hv : Valid (some s) g) {e : Edge} (hid : isText e.id = true)
    (htype : isText e.type = true) (hends : ∀ side, isText (e.endpoint side) = true)
    (f : Failure) : g.addEdge (some s) e = .error f ↔ Refused s g e f :=
  ⟨hv.refused_of_addEdge hid htype hends, hv.addEdge_of_refused hid htype hends⟩

end Valid

end Graph

end PropertyGraph
