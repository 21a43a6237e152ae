import PropertyGraph.Proofs.Graph.Revision

/-!
# Acceptance

Which updates of a node does a schema accept?  The whole data is checked that the node would have
then; but as what it holds already is just what its type declares, the answer hangs on the changes
alone (`Entity.Acceptable`, `Graph.Valid.exists_updateNode_iff`).  The fields that are changed must
be declared, and so no label is new, and none can be missing (`Schema.conforms_merge_iff`).
-/

namespace PropertyGraph

theorem exists_mapM_eq_ok_iff {α β : Type} (f : α → Result β) (as : List α) :
    (∃ bs, as.mapM f = .ok bs) ↔ ∀ a ∈ as, ∃ b, f a = .ok b := by
  induction as with
  | nil => exact iff_of_true ⟨[], rfl⟩ nofun
  | cons a as ih =>
    rw [List.forall_mem_cons, ← ih]
    simp only [List.mapM_cons, bind_eq_ok_iff]
    constructor
    · rintro ⟨_, b, hb, bs, hbs, -⟩
      exact ⟨⟨b, hb⟩, bs, hbs⟩
    · rintro ⟨⟨b, hb⟩, bs, hbs⟩
      exact ⟨b :: bs, b, hb, bs, hbs, rfl⟩

namespace Schema

variable {declared : Record Kind} {data fs : Fields}

/-- A label is the name of a declared field, and the value is of its kind. -/
def Declares (declared : Record Kind) (p : Value × Value) : Prop :=
  ∃ name kind, p.1 = .text name ∧ Record.get? declared name = some kind ∧ kind.accepts p.2 = true

/-- Data that conforms has a value for each declared field. -/
theorem Conforms.holds (h : Conforms declared data) {name : String} {kind : Kind}
    (hkind : Record.get? declared name = some kind) : data.Holds (.text name) := by
  obtain ⟨v, hv, -⟩ := h.field (name, kind) (Record.mem_of_get? hkind)
  exact Fields.holds_of_get? hv

/-- Where data conforms, no field is declared with two kinds. -/
theorem Conforms.kind_eq (h : Conforms declared data) {p : String × Kind} (hp : p ∈ declared)
    {kind : Kind} (hkind : Record.get? declared p.1 = some kind) : kind = p.2 := by
  obtain ⟨v, hv, haccepts⟩ := h.field p hp
  obtain ⟨w, hw, haccepts'⟩ := h.field (p.1, kind) (Record.mem_of_get? hkind)
  obtain rfl := Option.some.inj (hv.symm.trans hw)
  rw [Kind.accepts_iff] at haccepts haccepts'
  exact Option.some.inj (haccepts'.symm.trans haccepts)

theorem Conforms.labels_merge (h : Conforms declared data) (hfs : ∀ p ∈ fs, Declares declared p) :
    (data.merge fs).labels = data.labels := by
  refine Fields.labels_merge fun p hp => ?_
  obtain ⟨name, kind, hlabel, hkind, -⟩ := hfs p hp
  rw [hlabel]
  exact h.holds hkind

/-- Where data conforms, it still does with fields laid over it exactly if these are declared. -/
theorem conforms_merge_iff (h : Conforms declared data) (ha : fs.Apart) :
    Conforms declared (data.merge fs) ↔ ∀ p ∈ fs, Declares declared p := by
  constructor
  · intro hmerged p hp
    obtain ⟨m, hm, hmp⟩ := Fields.exists_label_merge data hp
    obtain ⟨name, rfl, hhas⟩ := hmerged.known m hm
    have hlabel : p.1 = .text name := by
      rcases hmp with hmp | hmp
      · exact hmp.symm
      · rwa [Value.sameKey_comm, Value.sameKey_text_iff] at hmp
    obtain ⟨kind, hkind⟩ := Option.isSome_iff_exists.1 hhas
    obtain ⟨v, hv, haccepts⟩ := hmerged.field (name, kind) (Record.mem_of_get? hkind)
    have hp : (.text name, p.2) ∈ fs := hlabel ▸ hp
    rw [Fields.get?_merge ha, Fields.get?_of_mem ha hp] at hv
    obtain rfl := Option.some.inj hv
    exact ⟨name, kind, hlabel, hkind, haccepts⟩
  · intro hfs
    refine ⟨fun q hq => ?_, ?_⟩
    · rw [Fields.get?_merge ha]
      rcases hchanged : Fields.get? fs q.1 with _ | v
      · exact h.field q hq
      · obtain ⟨name, kind, hlabel, hkind, haccepts⟩ := hfs _ (Fields.mem_of_get? hchanged)
        obtain rfl := Value.text.inj hlabel
        exact ⟨v, rfl, h.kind_eq hq hkind ▸ haccepts⟩
    · rw [h.labels_merge hfs]
      exact h.known

end Schema

namespace Entity

variable {changes : Record Value}

/-- An update that a node can take whose type declares these fields: it names only fields that are
passed over or may be assigned, the new vector is none or can be read, and the changed data is as
declared. -/
structure Acceptable (declared : Record Kind) (changes : Record Value) : Prop where
  fields : ∀ key ∈ Record.keys changes,
    key ∈ ["id", "type", "data", "created_at", "updated_at", "embedding"]
  vector : ∀ v, Record.get? changes "embedding" = some v → v ≠ .null →
    ∃ xs, v.members = .ok xs ∧ ∀ x ∈ xs, ∃ d, x.toFloat = .ok d
  data : ∀ fs, changedData? changes = some fs → ∀ p ∈ fs, Schema.Declares declared p

theorem exists_toFloats_iff (v : Value) :
    (∃ ds, v.toFloats = .ok ds) ↔ ∃ xs, v.members = .ok xs ∧ ∀ x ∈ xs, ∃ d, x.toFloat = .ok d := by
  simp only [Value.toFloats, bind_eq_ok_iff, ← exists_mapM_eq_ok_iff]
  constructor
  · rintro ⟨ds, xs, hxs, hds⟩
    exact ⟨xs, hxs, ds, hds⟩
  · rintro ⟨xs, hxs, ds, hds⟩
    exact ⟨ds, xs, hxs, hds⟩

/-- Whether there is a new vector does not hang on the old one. -/
theorem exists_assignedVector_iff (changes : Record Value) (old : Option (List Value)) :
    (∃ x, assignedVector changes old = .ok x) ↔
      ∀ v, Record.get? changes "embedding" = some v → v ≠ .null → ∃ ds, v.toFloats = .ok ds := by
  unfold assignedVector
  split
  · rename_i hnone
    exact iff_of_true ⟨old, rfl⟩ fun v hv => nomatch hnone.symm.trans hv
  · rename_i hnull
    refine iff_of_true ⟨none, rfl⟩ fun v hv hne => absurd ?_ hne
    exact (Option.some.inj (hnull.symm.trans hv)).symm
  · rename_i w hne hw
    simp only [bind_eq_ok_iff]
    constructor
    · rintro ⟨_, ds, hds, -⟩ v hv -
      obtain rfl := Option.some.inj (hw.symm.trans hv)
      exact ⟨ds, hds⟩
    · intro h
      obtain ⟨ds, hds⟩ := h w hw hne
      exact ⟨_, ds, hds, rfl⟩

theorem exists_updated_iff (n : Node) (changes : Record Value) :
    (∃ m, n.updated changes = .ok m) ↔
      refused? Node.updatable changes = none ∧
        ∃ x, assignedVector changes n.embedding = .ok x := by
  simp only [Node.updated_eq_ok_iff]
  constructor
  · rintro ⟨_, hallowed, x, hx, -⟩
    exact ⟨hallowed, x, hx⟩
  · rintro ⟨hallowed, x, hx⟩
    exact ⟨_, hallowed, x, hx, rfl⟩

theorem mem_fixed_updatable_iff (key : String) :
    key ∈ fixed ++ Node.updatable ↔
      key ∈ ["id", "type", "data", "created_at", "updated_at", "embedding"] := by
  simp only [fixed, Node.updatable, List.mem_append, List.mem_cons, List.not_mem_nil]
  tauto

theorem acceptable_iff {declared : Record Kind} (n : Node) (changes : Record Value) :
    Acceptable declared changes ↔
      (∃ m, n.updated changes = .ok m) ∧
        ∀ fs, changedData? changes = some fs → ∀ p ∈ fs, Schema.Declares declared p := by
  simp only [exists_updated_iff, refused?_eq_none_iff, mem_fixed_updatable_iff,
    exists_assignedVector_iff, exists_toFloats_iff]
  exact ⟨fun h => ⟨⟨h.fields, h.vector⟩, h.data⟩, fun h => ⟨h.1.1, h.1.2, h.2⟩⟩

theorem conforms_overlay_iff {declared : Record Kind} {data : Fields}
    (h : Schema.Conforms declared data)
    (ha : ∀ fs, changedData? changes = some fs → fs.Apart) :
    Schema.Conforms declared (overlay data changes) ↔
      ∀ fs, changedData? changes = some fs → ∀ p ∈ fs, Schema.Declares declared p := by
  rw [overlay_eq]
  split
  · rename_i fs hfs
    rw [Schema.conforms_merge_iff h (ha fs hfs)]
    simp only [hfs, Option.some.injEq, forall_eq']
  · rename_i hnone
    exact iff_of_true h fun fs hfs => nomatch hnone.symm.trans hfs

/-- An update makes a node of another one: of its data the given fields take their new values, and
what is not given stays. -/
structure Renews (changes : Record Value) (n m : Node) : Prop where
  id : m.id = n.id
  type : m.type = n.type
  labels : m.data.labels = n.data.labels
  data : ∀ name, m.data.get? name =
    ((changedData? changes).bind (·.get? name)).or (n.data.get? name)
  createdAt : m.createdAt = (Record.get? changes "created_at").getD n.createdAt
  updatedAt : m.updatedAt = (Record.get? changes "updated_at").getD n.updatedAt
  vector : assignedVector changes n.embedding = .ok m.embedding

/-- An update that is as declared renews a node whose data conforms. -/
theorem renews_of_updated {declared : Record Kind} {n m : Node}
    (h : Schema.Conforms declared n.data)
    (ha : ∀ fs, changedData? changes = some fs → fs.Apart)
    (hdata : ∀ fs, changedData? changes = some fs → ∀ p ∈ fs, Schema.Declares declared p)
    (hm : n.updated changes = .ok m) : Renews changes n m := by
  obtain ⟨-, x, hx, rfl⟩ := Node.updated_eq_ok_iff.1 hm
  refine ⟨rfl, rfl, ?_, fun name => ?_, rfl, rfl, hx⟩
  · rw [overlay_eq]
    split
    · rename_i fs hfs
      exact h.labels_merge (hdata fs hfs)
    · rfl
  · rw [overlay_eq]
    split
    · rename_i fs hfs
      rw [hfs, Fields.get?_merge (ha fs hfs)]
      rfl
    · rename_i hnone
      rw [hnone]
      rfl

end Entity

namespace Graph

variable {s : Schema} {n : Node} {name : String} {t : NodeType}

theorem nodeFits_iff (htype : n.type = .text name) (ht : s.nodeType? name = some t) :
    NodeFits s n ↔ Schema.Conforms t.fields n.data := by
  constructor
  · rintro ⟨name', t', htype', ht', h⟩
    obtain rfl := Value.text.inj (htype.symm.trans htype')
    obtain rfl := Option.some.inj (ht.symm.trans ht')
    exact h
  · exact fun h => ⟨name, t, htype, ht, h⟩

variable {g : Graph} {changes : Record Value} (hv : Valid (some s) g) (hn : n ∈ g.nodes)
  (htype : n.type = .text name) (ht : s.nodeType? name = some t)
  (ha : ∀ fs, Entity.changedData? changes = some fs → fs.Apart)

include hv hn htype ht ha

/-- An update of a node is accepted exactly if the changes are acceptable for its type, whatever
data it holds. -/
theorem Valid.exists_updateNode_iff :
    (∃ g' m, g.updateNode (some s) n.id (.record changes) = .ok (some (g', m, changes))) ↔
      Entity.Acceptable t.fields changes := by
  have hconforms := (nodeFits_iff htype ht).1 ((hv.conforming s rfl).nodes n hn)
  have hchecked : ∀ m, n.updated changes = .ok m → (checkNode (some s) m = .ok () ↔
      Schema.Conforms t.fields (Entity.overlay n.data changes)) := by
    intro m hm
    obtain ⟨-, x, -, rfl⟩ := Node.updated_eq_ok_iff.1 hm
    rw [checkNode_eq_ok_iff]
    exact nodeFits_iff htype ht
  simp only [hv.updateNode_iff hn rfl]
  rw [Entity.acceptable_iff n, ← Entity.conforms_overlay_iff hconforms ha]
  constructor
  · rintro ⟨_, m, hm, hcheck, -⟩
    exact ⟨⟨m, hm⟩, (hchecked m hm).1 hcheck⟩
  · rintro ⟨⟨m, hm⟩, hmerged⟩
    exact ⟨_, m, hm, (hchecked m hm).2 hmerged, rfl⟩

/-- It renews the node in its place, and leaves the rest of the graph as it is. -/
theorem Valid.renews_of_updateNode {g' : Graph} {m : Node} {before after : List Node}
    (h : g.updateNode (some s) n.id (.record changes) = .ok (some (g', m, changes)))
    (hsplit : g.nodes = before ++ n :: after) :
    Entity.Renews changes n m ∧
      g' = { g with nodes := before ++ m :: after } := by
  have hconforms := (nodeFits_iff htype ht).1 ((hv.conforming s rfl).nodes n hn)
  have hacceptable := (hv.exists_updateNode_iff hn htype ht ha).1 ⟨g', m, h⟩
  obtain ⟨hm, -, rfl⟩ := (hv.updateNode_iff hn rfl).1 h
  refine ⟨Entity.renews_of_updated hconforms ha hacceptable.data hm, ?_⟩
  unfold Graph.replaceNode
  rw [replace_of_split hv.sound.nodeTexts hv.sound.nodeIds hsplit]

end Graph

end PropertyGraph
