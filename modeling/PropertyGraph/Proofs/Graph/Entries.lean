import Mathlib.Data.List.Nodup
import Mathlib.Data.List.Perm.Basic
import PropertyGraph.Graph

/-!
# Entries of an adjacency

An adjacency read as a list of entries: for every link the two nodes that its bundle joins, the key
that it is kept under and the edge that it carries.  Linking an edge under a new key adds its entry
(`entries_link_perm`), unlinking an edge takes away the entries under its identifier
(`entries_unlink`), and dropping a node takes away the entries that have it at an end
(`entries_dropNode`).  All three keep an adjacency *tidy*: no two bundles join the same two nodes,
and no bundle is empty.
-/

namespace PropertyGraph

/-! ### Identifiers that are texts -/

/-- Only a text in points has the key of one. -/
theorem Value.eq_points_of_key? {v : Value} {ps : List Text.Point}
    (h : v.key? = some (.points ps)) : v = .points ps := by
  cases v with
  | points qs => simpa [key?] using h
  | float x =>
    rw [key?] at h
    split at h
    · cases h
    · split at h <;> simp at h
  | tuple xs =>
    rw [key?, Option.map_eq_some_iff] at h
    obtain ⟨ks, -, h⟩ := h
    cases h
  | _ => simp [key?] at h

/-- A text identifies the same thing as itself only. -/
theorem Value.sameKey_iff_eq {b : Value} (hb : Graph.isText b = true) (a : Value) :
    a.sameKey b = true ↔ a = b := by
  cases b with
  | text s => exact sameKey_text_iff a s
  | points ps =>
    have hk : key? (.points ps) = some (.points ps) := by rw [key?]
    constructor
    · intro h
      rw [sameKey, hk] at h
      cases ha : a.key? with
      | none => simp [ha] at h
      | some k =>
        simp only [ha, decide_eq_true_eq] at h
        exact eq_points_of_key? (h ▸ ha)
    · rintro rfl
      exact sameKey_self hk
  | _ => simp [Graph.isText] at hb

theorem Value.ne_null_of_isText {v : Value} (h : Graph.isText v = true) : v ≠ .null := by
  rintro rfl
  cases h

theorem Value.sameKey_iff_eq_left {a : Value} (ha : Graph.isText a = true) (b : Value) :
    a.sameKey b = true ↔ a = b := by
  rw [sameKey_comm, sameKey_iff_eq ha, eq_comm]

theorem Value.sameKey_eq_false_iff {b : Value} (hb : Graph.isText b = true) (a : Value) :
    a.sameKey b = false ↔ a ≠ b := by
  rw [← Bool.not_eq_true, sameKey_iff_eq hb]

/-- A text equals only itself, whether it is plain or in points. -/
theorem Value.eqv_iff_eq {a : Value} (ha : Graph.isText a = true) (b : Value) :
    a.eqv b = true ↔ a = b := by
  cases a with
  | text s => exact (eqv_text_iff s b).trans eq_comm
  | points ps =>
    cases b with
    | points qs => simp [eqv]
    | _ => simp [eqv]
  | _ => simp [Graph.isText] at ha

/-- A text is equal to just what it identifies. -/
theorem Value.eqv_eq_sameKey {a : Value} (ha : Graph.isText a = true) (b : Value) :
    a.eqv b = a.sameKey b := by
  rw [Bool.eq_iff_iff, eqv_iff_eq ha, sameKey_iff_eq_left ha]

/-- Among things with texts for identifiers, each its own, a look-up finds what has the
identifier. -/
theorem find?_sameKey_eq_some_iff {α : Type} {l : List α} {id : α → Value}
    (ht : ∀ x ∈ l, Graph.isText (id x) = true) (hn : (l.map id).Nodup) (v : Value) (x : α) :
    l.find? (fun y => (id y).sameKey v) = some x ↔ x ∈ l ∧ id x = v := by
  constructor
  · intro hf
    have hx := List.mem_of_find?_eq_some hf
    have hkey : (id x).sameKey v = true := List.find?_some (p := fun y => (id y).sameKey v) hf
    exact ⟨hx, (Value.sameKey_iff_eq_left (ht x hx) v).1 hkey⟩
  · rintro ⟨hx, rfl⟩
    cases hf : l.find? (fun y => (id y).sameKey (id x)) with
    | none =>
      have hself := (Value.sameKey_iff_eq (ht x hx) (id x)).2 rfl
      exact absurd hself (List.find?_eq_none.1 hf x hx)
    | some y =>
      have hkey : (id y).sameKey (id x) = true :=
        List.find?_some (p := fun y => (id y).sameKey (id x)) hf
      have hid := (Value.sameKey_iff_eq (ht x hx) (id y)).1 hkey
      rw [List.inj_on_of_nodup_map hn (List.mem_of_find?_eq_some hf) hx hid]

/-! ### Entries -/

/-- A link with the nodes that it joins. -/
structure Entry where
  source : Value
  target : Value
  key : Value
  edge : Edge

/-- The entry that an edge has when it is kept under its own identifier. -/
def Edge.entry (e : Edge) : Entry := ⟨e.source, e.target, e.id, e⟩

/-- The two nodes that a bundle joins. -/
def Bundle.ends (b : Bundle) : Value × Value := (b.source, b.target)

/-- The entries of one bundle. -/
def Bundle.entries (b : Bundle) : List Entry :=
  b.links.map fun l => ⟨b.source, b.target, l.key, l.edge⟩

namespace Adjacency

/-- The entries of all bundles. -/
def entries (a : Adjacency) : List Entry := a.flatMap Bundle.entries

@[simp] theorem entries_cons (b : Bundle) (a : Adjacency) :
    entries (b :: a) = b.entries ++ entries a := rfl

/-- No two bundles join the same two nodes, and no bundle is empty. -/
structure Tidy (a : Adjacency) : Prop where
  apart : (a.map Bundle.ends).Nodup
  filled : ∀ b ∈ a, b.links ≠ []

theorem tidy_nil : Tidy [] := ⟨List.nodup_nil, nofun⟩

end Adjacency

theorem Bundle.joins_iff {b : Bundle} {source target : Value}
    (hs : Graph.isText source = true) (ht : Graph.isText target = true) :
    b.joins source target = true ↔ b.source = source ∧ b.target = target := by
  rw [joins, Bool.and_eq_true, Value.sameKey_iff_eq hs, Value.sameKey_iff_eq ht]

/-! ### Linking -/

theorem Link.keyFor_of_named {key : Value} (h : key ≠ .null) (ls : List Link) :
    keyFor ls key = key := by
  cases key with
  | null => exact absurd rfl h
  | _ => rfl

theorem Link.keyFor_of_isText {key : Value} (h : Graph.isText key = true) (ls : List Link) :
    keyFor ls key = key :=
  keyFor_of_named (Value.ne_null_of_isText h) ls

/-- The link that a key names is taken away by it. -/
theorem Link.remove_of_named {key : Value} (h : key ≠ .null) (ls : List Link) :
    Link.remove ls key = ls.filter fun l => !l.key.sameKey key := by
  cases key with
  | null => exact absurd rfl h
  | _ => rfl

theorem Link.remove_of_isText {key : Value} (h : Graph.isText key = true) (ls : List Link) :
    Link.remove ls key = ls.filter fun l => !l.key.sameKey key :=
  remove_of_named (Value.ne_null_of_isText h) ls

/-- A link with a new key goes to the end. -/
theorem Link.put_of_new {ls : List Link} {l : Link}
    (h : ∀ m ∈ ls, m.key.sameKey l.key = false) : put ls l = ls ++ [l] := by
  have : (ls.any fun m => m.key.sameKey l.key) = false := by simpa using h
  rw [put, this]
  rfl

namespace Adjacency

/-- Which nodes are joined after linking: the same, or two new ones at the end. -/
theorem ends_link {e : Edge} (hs : Graph.isText e.source = true)
    (ht : Graph.isText e.target = true) (key : Value) (a : Adjacency) :
    (link key e a).map Bundle.ends = a.map Bundle.ends ∨
      (e.source, e.target) ∉ a.map Bundle.ends ∧
        (link key e a).map Bundle.ends = a.map Bundle.ends ++ [(e.source, e.target)] := by
  induction a with
  | nil => exact Or.inr ⟨List.not_mem_nil, rfl⟩
  | cons b rest ih =>
    rw [link]
    by_cases hj : b.joins e.source e.target = true
    · rw [if_pos hj]
      exact Or.inl rfl
    · have hb : (e.source, e.target) ≠ b.ends := fun h =>
        hj ((Bundle.joins_iff hs ht).2 ⟨(Prod.mk.inj h).1.symm, (Prod.mk.inj h).2.symm⟩)
      rw [if_neg hj]
      simp only [List.map_cons, List.mem_cons, not_or, List.cons_append, List.cons.injEq, true_and]
      exact ih.imp id fun h => ⟨⟨hb, h.1⟩, h.2⟩

theorem Tidy.link {a : Adjacency} (h : a.Tidy) {e : Edge} (hs : Graph.isText e.source = true)
    (ht : Graph.isText e.target = true) (key : Value) : (link key e a).Tidy := by
  refine ⟨?_, ?_⟩
  · rcases ends_link hs ht key a with hsame | ⟨hnew, happ⟩
    · rw [hsame]
      exact h.apart
    · rw [happ]
      refine List.nodup_append.2 ⟨h.apart, List.nodup_singleton _, ?_⟩
      intro p hp q hq hpq
      exact hnew (List.mem_singleton.1 hq ▸ hpq ▸ hp)
  · have hf := h.filled
    clear h
    induction a with
    | nil => simp [Adjacency.link]
    | cons b rest ih =>
      intro c hc
      rw [Adjacency.link] at hc
      split at hc
      · rcases List.mem_cons.1 hc with rfl | hc
        · rw [Link.put]
          split
          · simpa using hf b List.mem_cons_self
          · simp
        · exact hf c (List.mem_cons_of_mem b hc)
      · rcases List.mem_cons.1 hc with rfl | hc
        · exact hf c List.mem_cons_self
        · exact ih (fun d hd => hf d (List.mem_cons_of_mem b hd)) c hc

/-- Linking an edge under a new key adds one entry. -/
theorem entries_link_perm {e : Edge} (hs : Graph.isText e.source = true)
    (ht : Graph.isText e.target = true) {key : Value} (hk : Graph.isText key = true)
    (a : Adjacency) (hnew : ∀ x ∈ a.entries, x.key ≠ key) :
    (link key e a).entries.Perm (⟨e.source, e.target, key, e⟩ :: a.entries) := by
  induction a with
  | nil => simp [link, Bundle.entries, Link.keyFor_of_isText hk]
  | cons b rest ih =>
    rw [link]
    split
    · rename_i hj
      obtain ⟨h₁, h₂⟩ := (Bundle.joins_iff hs ht).1 hj
      have hput : Link.put b.links ⟨Link.keyFor b.links key, e⟩ = b.links ++ [⟨key, e⟩] := by
        rw [Link.keyFor_of_isText hk]
        refine Link.put_of_new fun m hm => (Value.sameKey_eq_false_iff hk _).2 ?_
        exact hnew ⟨b.source, b.target, m.key, m.edge⟩
          (List.mem_append_left _ (List.mem_map_of_mem hm))
      simp only [entries_cons, Bundle.entries, hput, List.map_append, List.map_cons, List.map_nil,
        h₁, h₂, List.append_assoc, List.singleton_append]
      exact List.perm_middle
    · have hrest := ih fun x hx => hnew x (List.mem_append_right _ hx)
      rw [entries_cons, entries_cons]
      exact (hrest.append_left b.entries).trans List.perm_middle

/-! ### Unlinking -/

/-- Unlinking keeps the order of the bundles. -/
theorem ends_unlinkBy_sublist (remove : List Link → List Link) (e : Edge) (a : Adjacency) :
    ((unlinkBy remove e a).map Bundle.ends).Sublist (a.map Bundle.ends) := by
  induction a with
  | nil => exact List.Sublist.slnil
  | cons b rest ih =>
    rw [unlinkBy]
    split
    · split
      · exact List.sublist_cons_self _ _
      · exact List.Sublist.refl _
    · exact ih.cons_cons _

theorem Tidy.unlink {a : Adjacency} (h : a.Tidy) (e : Edge) : (unlink e a).Tidy := by
  refine ⟨h.apart.sublist (ends_unlinkBy_sublist _ e a), ?_⟩
  have hf := h.filled
  clear h
  induction a with
  | nil => exact fun c hc => absurd hc List.not_mem_nil
  | cons b rest ih =>
    intro c hc
    rw [unlink_cons] at hc
    split at hc
    · split at hc
      · exact hf c (List.mem_cons_of_mem b hc)
      · rename_i hne
        rcases List.mem_cons.1 hc with rfl | hc
        · exact fun h => hne h
        · exact hf c (List.mem_cons_of_mem b hc)
    · rcases List.mem_cons.1 hc with rfl | hc
      · exact hf c List.mem_cons_self
      · exact ih (fun d hd => hf d (List.mem_cons_of_mem b hd)) c hc

/-- What is left of a bundle without the links of one key. -/
theorem entries_filter_links (b : Bundle) (key : Value) :
    Bundle.entries { b with links := b.links.filter fun l => !l.key.sameKey key } =
      b.entries.filter fun x => !x.key.sameKey key := by
  simp only [Bundle.entries, List.filter_map]
  rfl

/-- Unlinking an edge takes away the entries under its identifier, where no other two nodes are
joined under it. -/
theorem entries_unlink {e : Edge} (hs : Graph.isText e.source = true)
    (ht : Graph.isText e.target = true) (hk : Graph.isText e.id = true) {a : Adjacency}
    (hapart : (a.map Bundle.ends).Nodup)
    (honly : ∀ x ∈ a.entries, x.key = e.id → x.source = e.source ∧ x.target = e.target) :
    (unlink e a).entries = a.entries.filter fun x => !x.key.sameKey e.id := by
  induction a with
  | nil => rfl
  | cons b rest ih =>
    obtain ⟨hb, hrest⟩ := List.nodup_cons.1 hapart
    have hsub : ∀ x ∈ entries rest, x.key = e.id → x.source = e.source ∧ x.target = e.target :=
      fun x hx => honly x (List.mem_append_right _ hx)
    rw [unlink_cons, entries_cons, List.filter_append]
    split
    · rename_i hj
      obtain ⟨h₁, h₂⟩ := (Bundle.joins_iff hs ht).1 hj
      -- the bundles behind this one join other nodes, so that they hold no such entry
      have hkeep : (entries rest).filter (fun x => !x.key.sameKey e.id) = entries rest := by
        refine List.filter_eq_self.2 fun x hx => ?_
        rw [Bool.not_eq_true', Value.sameKey_eq_false_iff hk]
        intro hxk
        obtain ⟨c, hc, hxc⟩ := List.mem_flatMap.1 hx
        obtain ⟨l, -, rfl⟩ := List.mem_map.1 hxc
        obtain ⟨hcs, hct⟩ := hsub _ hx hxk
        exact hb (List.mem_map.2
          ⟨c, hc, Prod.ext (hcs.trans h₁.symm) (hct.trans h₂.symm)⟩)
      rw [Link.remove_of_isText hk, hkeep, ← entries_filter_links]
      split
      · rename_i hnil
        rw [hnil]
        rfl
      · rfl
    · rename_i hj
      have hkeep : b.entries.filter (fun x => !x.key.sameKey e.id) = b.entries := by
        refine List.filter_eq_self.2 fun x hx => ?_
        rw [Bool.not_eq_true', Value.sameKey_eq_false_iff hk]
        intro hxk
        have hends := honly x (List.mem_append_left _ hx) hxk
        obtain ⟨l, -, rfl⟩ := List.mem_map.1 hx
        exact hj ((Bundle.joins_iff hs ht).2 hends)
      rw [hkeep, entries_cons, ih hrest hsub]

/-! ### Dropping a node -/

theorem Tidy.dropNode {a : Adjacency} (h : a.Tidy) (id : Value) : (dropNode id a).Tidy :=
  ⟨h.apart.sublist (List.filter_sublist.map _), fun b hb => h.filled b (List.mem_filter.1 hb).1⟩

/-- Dropping a node takes away the entries that have it at an end. -/
theorem entries_dropNode (id : Value) (a : Adjacency) :
    (dropNode id a).entries =
      a.entries.filter fun x => !x.source.sameKey id && !x.target.sameKey id := by
  induction a with
  | nil => rfl
  | cons b rest ih =>
    rw [dropNode] at ih ⊢
    rw [entries_cons, List.filter_append, List.filter_cons, ← ih]
    by_cases hb : (!b.source.sameKey id && !b.target.sameKey id) = true
    · have hall : b.entries.filter (fun x => !x.source.sameKey id && !x.target.sameKey id) =
          b.entries := by
        refine List.filter_eq_self.2 fun x hx => ?_
        obtain ⟨l, -, rfl⟩ := List.mem_map.1 hx
        exact hb
      rw [if_pos hb, entries_cons, hall]
    · have hnone : b.entries.filter (fun x => !x.source.sameKey id && !x.target.sameKey id) =
          [] := by
        refine List.filter_eq_nil_iff.2 fun x hx => ?_
        obtain ⟨l, -, rfl⟩ := List.mem_map.1 hx
        exact hb
      rw [if_neg hb, hnone, List.nil_append]

theorem mem_entries_iff (a : Adjacency) (x : Entry) :
    x ∈ a.entries ↔ ∃ b ∈ a, ∃ l ∈ b.links, x = ⟨b.source, b.target, l.key, l.edge⟩ := by
  simp only [entries, Bundle.entries, List.mem_flatMap, List.mem_map, eq_comm]

end Adjacency

end PropertyGraph
