import PropertyGraph.Proofs.Graph.Step

/-!
# Seniority

The *roster* of a graph lists the entities of one class, with their identifiers and their types, in
order.  A step of a valid graph lets a newcomer join at the end of a roster, or some entities leave,
and changes nothing else; an update does not even show (`Step.follows`).

So when a graph takes step after step, entities keep their types for as long as they last
(`Succession.mem_iff_of_lasts`), and one of them stands before another one exactly when it is
*senior* to it: it was there before the other one joined, and has been there ever since
(`Succession.pair_sublist_iff`).
-/

namespace PropertyGraph

/-! ### Pairs in a list -/

section Pairs

variable {α : Type} {a b : α}

theorem pair_sublist_append_singleton_iff (l : List α) (x : α) :
    [a, b].Sublist (l ++ [x]) ↔ [a, b].Sublist l ∨ a ∈ l ∧ b = x := by
  rw [List.sublist_append_iff]
  constructor
  · rintro ⟨l₁, l₂, hsplit, h₁, h₂⟩
    have hlen := h₂.length_le
    rcases l₁ with _ | ⟨c, _ | ⟨d, rest⟩⟩
    · obtain rfl : l₂ = [a, b] := hsplit.symm
      simp at hlen
    · obtain ⟨rfl, rfl⟩ := List.cons.inj hsplit
      exact .inr ⟨List.singleton_sublist.1 h₁, List.mem_singleton.1 (List.singleton_sublist.1 h₂)⟩
    · obtain ⟨rfl, hrest⟩ := List.cons.inj hsplit
      obtain ⟨rfl, hnil⟩ := List.cons.inj hrest
      obtain ⟨rfl, rfl⟩ := List.append_eq_nil_iff.1 hnil.symm
      exact .inl h₁
  · rintro (h | ⟨ha, rfl⟩)
    · exact ⟨[a, b], [], rfl, h, List.nil_sublist _⟩
    · exact ⟨[a], [b], rfl, List.singleton_sublist.2 ha, List.Sublist.refl _⟩

/-- What is left of a list keeps its order. -/
theorem pair_sublist_of_sublist {l l' : List α} (h : l'.Sublist l) (hn : l.Nodup) (ha : a ∈ l')
    (hb : b ∈ l') (hab : [a, b].Sublist l) : [a, b].Sublist l' := by
  induction h with
  | slnil => exact hab
  | @cons l₁ l₂ x hsub ih =>
    obtain ⟨hx, hn⟩ := List.nodup_cons.1 hn
    cases hab with
    | cons _ hab => exact ih hn ha hb hab
    | cons_cons _ _ => exact absurd (hsub.subset ha) hx
  | @cons_cons l₁ l₂ x hsub ih =>
    obtain ⟨hx, hn⟩ := List.nodup_cons.1 hn
    have hstays : ∀ y ∈ x :: l₁, y ∈ l₂ → y ∈ l₁ := fun y hy hy₂ =>
      (List.mem_cons.1 hy).resolve_left fun heq => hx (heq ▸ hy₂)
    cases hab with
    | cons _ hab =>
      have ha₂ : a ∈ l₂ := hab.subset List.mem_cons_self
      have hb₂ : b ∈ l₂ := hab.subset (List.mem_cons_of_mem a List.mem_cons_self)
      exact (ih hn (hstays a ha ha₂) (hstays b hb hb₂) hab).cons x
    | cons_cons _ hb₂ =>
      have hb₁ : b ∈ l₁ := hstays b hb (List.singleton_sublist.1 hb₂)
      exact (List.singleton_sublist.2 hb₁).cons_cons a

end Pairs

/-! ### Rosters -/

/-- The identifiers of some entities with their types. -/
abbrev Roster := List (Value × Value)

namespace Roster

/-- The identifiers alone. -/
def ids (r : Roster) : List Value := r.map Prod.fst

/-- A roster comes after another one: a newcomer has joined, or some entities have left. -/
inductive Follows (r : Roster) : Roster → Prop
  | joined {p : Value × Value} : p.1 ∉ r.ids → Follows r (r ++ [p])
  | left {r' : Roster} : r'.Sublist r → Follows r r'

theorem ids_append (r : Roster) (p : Value × Value) : ids (r ++ [p]) = r.ids ++ [p.1] :=
  List.map_append

theorem Follows.nodup {r r' : Roster} (h : Follows r r') (hn : r.ids.Nodup) : r'.ids.Nodup := by
  cases h with
  | joined hnew =>
    rw [ids_append, List.nodup_append]
    refine ⟨hn, List.nodup_singleton _, fun x hx y hy hxy => hnew ?_⟩
    exact List.mem_singleton.1 hy ▸ hxy ▸ hx
  | left hsub => exact hn.sublist (hsub.map _)

/-- Who is there before and after has the same type. -/
theorem Follows.mem_iff {r r' : Roster} (h : Follows r r') (hn : r.ids.Nodup) {id : Value}
    (hid : id ∈ r.ids) (hid' : id ∈ r'.ids) (type : Value) : (id, type) ∈ r' ↔ (id, type) ∈ r := by
  cases h with
  | @joined p hnew =>
    rw [List.mem_append, List.mem_singleton]
    refine or_iff_left fun hp => hnew ?_
    rw [← hp]
    exact hid
  | left hsub =>
    refine ⟨fun hmem => hsub.subset hmem, fun hmem => ?_⟩
    obtain ⟨q, hq, rfl⟩ := List.mem_map.1 hid'
    have hsame : q = (q.1, type) := List.inj_on_of_nodup_map hn (hsub.subset hq) hmem rfl
    exact hsame ▸ hq

/-- Rosters that follow one another, from an empty one up to the moment `n`. -/
structure Succession (r : ℕ → Roster) (n : ℕ) : Prop where
  begins : r 0 = []
  follows : ∀ k < n, Follows (r k) (r (k + 1))

/-- An entity is there from one moment to another, all the time. -/
def Lasts (r : ℕ → Roster) (id : Value) (i j : ℕ) : Prop := ∀ k, i ≤ k → k ≤ j → id ∈ (r k).ids

/-- At the moment `j`, one entity has been there ever since a moment when the other one was not. -/
def Senior (r : ℕ → Roster) (j : ℕ) (a b : Value) : Prop :=
  ∃ k ≤ j, Lasts r a k j ∧ b ∉ (r k).ids

section Lasting

variable {r : ℕ → Roster} {a b : Value} {i j : ℕ}

theorem lasts_self (h : a ∈ (r j).ids) : Lasts r a j j := by
  intro k hk hk'
  rwa [Nat.le_antisymm hk' hk]

theorem Lasts.to_le (h : Lasts r a i j) {k : ℕ} (hk : k ≤ j) : Lasts r a i k :=
  fun m him hmk => h m him (Nat.le_trans hmk hk)

theorem lasts_succ_iff (hij : i ≤ j) :
    Lasts r a i (j + 1) ↔ a ∈ (r (j + 1)).ids ∧ Lasts r a i j := by
  constructor
  · exact fun h => ⟨h (j + 1) (Nat.le_succ_of_le hij) (Nat.le_refl _), h.to_le (Nat.le_succ j)⟩
  · rintro ⟨hnext, h⟩ k hik hk
    rcases Nat.lt_or_eq_of_le hk with hk | rfl
    · exact h k hik (Nat.le_of_lt_succ hk)
    · exact hnext

theorem Senior.mem (h : Senior r j a b) : a ∈ (r j).ids := by
  obtain ⟨k, hk, hsince, -⟩ := h
  exact hsince j hk (Nat.le_refl j)

theorem senior_of_not_mem (ha : a ∈ (r j).ids) (hb : b ∉ (r j).ids) : Senior r j a b :=
  ⟨j, Nat.le_refl j, lasts_self ha, hb⟩

/-- Nobody becomes senior to somebody who is there already. -/
theorem senior_succ_iff (hb : b ∈ (r (j + 1)).ids) :
    Senior r (j + 1) a b ↔ a ∈ (r (j + 1)).ids ∧ Senior r j a b := by
  constructor
  · rintro ⟨k, hk, hsince, hnot⟩
    have hkj : k ≤ j := by
      rcases Nat.lt_or_eq_of_le hk with hk | rfl
      · exact Nat.le_of_lt_succ hk
      · exact absurd hb hnot
    obtain ⟨hnext, hsince⟩ := (lasts_succ_iff hkj).1 hsince
    exact ⟨hnext, k, hkj, hsince, hnot⟩
  · rintro ⟨hnext, k, hk, hsince, hnot⟩
    exact ⟨k, Nat.le_succ_of_le hk, (lasts_succ_iff hk).2 ⟨hnext, hsince⟩, hnot⟩

/-- While two entities last, neither becomes senior to the other, nor ceases to be. -/
theorem senior_iff_of_lasts (hij : i ≤ j) (ha : Lasts r a i j) (hb : Lasts r b i j) :
    Senior r j a b ↔ Senior r i a b := by
  induction hij with
  | refl => exact Iff.rfl
  | @step j hij ih =>
    obtain ⟨ha', ha⟩ := (lasts_succ_iff hij).1 ha
    obtain ⟨hb', hb⟩ := (lasts_succ_iff hij).1 hb
    rw [senior_succ_iff hb', and_iff_right ha', ih ha hb]

end Lasting

namespace Succession

variable {r : ℕ → Roster} {n : ℕ} (h : Succession r n) {i j : ℕ}

include h

theorem nodup (hj : j ≤ n) : (r j).ids.Nodup := by
  induction j with
  | zero =>
    rw [h.begins]
    exact List.nodup_nil
  | succ j ih => exact (h.follows j hj).nodup (ih (Nat.le_of_succ_le hj))

/-- Entities keep their types as long as they last. -/
theorem mem_iff_of_lasts (hij : i ≤ j) (hj : j ≤ n) {id : Value} (hid : Lasts r id i j)
    (type : Value) : (id, type) ∈ r j ↔ (id, type) ∈ r i := by
  induction hij with
  | refl => exact Iff.rfl
  | @step j hij ih =>
    have hjn : j ≤ n := Nat.le_of_succ_le hj
    obtain ⟨hnext, hid⟩ := (lasts_succ_iff hij).1 hid
    have hstep := (h.follows j hj).mem_iff (h.nodup hjn) (hid j hij (Nat.le_refl j)) hnext type
    exact hstep.trans (ih hjn hid)

/-- One entity stands before another one exactly when it is senior to it. -/
theorem pair_sublist_iff (hj : j ≤ n) (a b : Value) :
    [a, b].Sublist (r j).ids ↔ b ∈ (r j).ids ∧ Senior r j a b := by
  induction j with
  | zero =>
    rw [h.begins]
    simp [ids]
  | succ j ih =>
    have hjn : j ≤ n := Nat.le_of_succ_le hj
    have hsucc : b ∈ (r (j + 1)).ids ∧ Senior r (j + 1) a b ↔
        b ∈ (r (j + 1)).ids ∧ a ∈ (r (j + 1)).ids ∧ Senior r j a b :=
      and_congr_right fun hb => senior_succ_iff hb
    have hfollows := h.follows j hj
    rw [hsucc]
    generalize r (j + 1) = next at hfollows ⊢
    cases hfollows with
    | @joined p hnew =>
      rw [ids_append, pair_sublist_append_singleton_iff, ih hjn, List.mem_append, List.mem_append,
        List.mem_singleton, List.mem_singleton]
      constructor
      · rintro (⟨hb, hsenior⟩ | ⟨ha, rfl⟩)
        · exact ⟨.inl hb, .inl hsenior.mem, hsenior⟩
        · exact ⟨.inr rfl, .inl ha, senior_of_not_mem ha hnew⟩
      · rintro ⟨hb | rfl, -, hsenior⟩
        · exact .inl ⟨hb, hsenior⟩
        · exact .inr ⟨hsenior.mem, rfl⟩
    | left hsub =>
      have hids : (ids next).Sublist (r j).ids := hsub.map _
      constructor
      · intro hab
        have ha : a ∈ ids next := hab.subset List.mem_cons_self
        have hb : b ∈ ids next := hab.subset (List.mem_cons_of_mem a List.mem_cons_self)
        exact ⟨hb, ha, ((ih hjn).1 (hab.trans hids)).2⟩
      · rintro ⟨hb, ha, hsenior⟩
        exact pair_sublist_of_sublist hids (h.nodup hjn) ha hb
          ((ih hjn).2 ⟨hids.subset hb, hsenior⟩)

/-- Entities keep their order as long as they last. -/
theorem pair_sublist_iff_of_lasts (hij : i ≤ j) (hj : j ≤ n) {a b : Value}
    (ha : Lasts r a i j) (hb : Lasts r b i j) :
    [a, b].Sublist (r j).ids ↔ [a, b].Sublist (r i).ids := by
  rw [h.pair_sublist_iff hj, h.pair_sublist_iff (Nat.le_trans hij hj),
    senior_iff_of_lasts hij ha hb]
  exact and_congr_left fun _ => iff_of_true (hb j hij (Nat.le_refl j)) (hb i (Nat.le_refl i) hij)

end Succession

end Roster

/-! ### The rosters of a graph -/

namespace Graph

/-- The roster of a class of entities. -/
def roster (cls : EntityClass) (g : Graph) : Roster :=
  match cls with
  | .node => g.nodes.map fun n => (n.id, n.type)
  | .edge => g.edges.map fun e => (e.id, e.type)

/-- What a look-up of an identifier finds in a class: an identifier and a type. -/
def known? (cls : EntityClass) (g : Graph) (id : Value) : Option (Value × Value) :=
  match cls with
  | .node => (g.node? id).map fun n => (n.id, n.type)
  | .edge => (g.edge? id).map fun e => (e.id, e.type)

theorem ids_roster_node (g : Graph) : (g.roster .node).ids = g.nodes.map (·.id) := by
  rw [Roster.ids, roster, List.map_map]
  rfl

theorem ids_roster_edge (g : Graph) : (g.roster .edge).ids = g.edges.map (·.id) := by
  rw [Roster.ids, roster, List.map_map]
  rfl

theorem roster_empty (cls : EntityClass) : roster cls empty = [] := by
  cases cls <;> rfl

theorem Sound.known?_eq_some_iff {g : Graph} (hg : g.Sound) (cls : EntityClass) (id : Value)
    (p : Value × Value) : g.known? cls id = some p ↔ p ∈ g.roster cls ∧ p.1 = id := by
  cases cls with
  | node =>
    simp only [known?, roster, Option.map_eq_some_iff, List.mem_map, hg.node?_eq_some_iff]
    constructor
    · rintro ⟨n, ⟨hn, hid⟩, rfl⟩
      exact ⟨⟨n, hn, rfl⟩, hid⟩
    · rintro ⟨⟨n, hn, rfl⟩, hid⟩
      exact ⟨n, ⟨hn, hid⟩, rfl⟩
  | edge =>
    simp only [known?, roster, Option.map_eq_some_iff, List.mem_map, hg.edge?_eq_some_iff]
    constructor
    · rintro ⟨e, ⟨he, hid⟩, rfl⟩
      exact ⟨⟨e, he, rfl⟩, hid⟩
    · rintro ⟨⟨e, he, rfl⟩, hid⟩
      exact ⟨e, ⟨he, hid⟩, rfl⟩

/-- The edges of a node stand as they do among all edges. -/
theorem Sound.pair_sublist_edgesOf_iff {g : Graph} (hg : g.Sound) (v a b : Value) :
    [a, b].Sublist ((g.edgesOf v).map (·.id)) ↔
      a ∈ (g.edgesOf v).map (·.id) ∧ b ∈ (g.edgesOf v).map (·.id) ∧
        [a, b].Sublist (g.roster .edge).ids := by
  have hsub : ((g.edgesOf v).map (·.id)).Sublist (g.edges.map (·.id)) := List.filter_sublist.map _
  rw [ids_roster_edge]
  constructor
  · intro hab
    exact ⟨hab.subset List.mem_cons_self, hab.subset (List.mem_cons_of_mem a List.mem_cons_self),
      hab.trans hsub⟩
  · rintro ⟨ha, hb, hab⟩
    exact pair_sublist_of_sublist hsub hg.edgeIds ha hb hab

/-! ### Steps -/

/-- What replaces the one thing with an identifier does not show in what it has in common with
it. -/
theorem map_replace {α β : Type} {l : List α} {id : α → Value} {part : α → β} {x z : α}
    (ht : ∀ y ∈ l, isText (id y) = true) (hn : (l.map id).Nodup) (hx : x ∈ l)
    (hz : part z = part x) :
    (l.map fun y => if (id y).sameKey (id x) then z else y).map part = l.map part := by
  rw [List.map_map]
  refine List.map_congr_left fun y hy => ?_
  rw [Function.comp_apply]
  split
  · rename_i hkey
    rw [hz, List.inj_on_of_nodup_map hn hy hx ((Value.sameKey_iff_eq_left (ht y hy) _).1 hkey)]
  · rfl

/-- In every roster, a step lets a newcomer join or some entities leave, and does nothing else. -/
theorem Step.follows {schema : Option Schema} {g g' : Graph} {notices : List Notice}
    (h : Step schema g g' notices) (hv : Valid schema g) (cls : EntityClass) :
    (g.roster cls).Follows (g'.roster cls) := by
  have hsame : ∀ {r r' : Roster}, r' = r → r.Follows r' := fun h => .left (h ▸ List.Sublist.refl _)
  cases h with
  | @nodeAdded n _ h =>
    obtain ⟨hnew, -, -, rfl⟩ := addNode_eq_ok_iff.1 h
    cases cls with
    | edge => exact hsame rfl
    | node =>
      have hjoined : n.id ∉ (g.roster .node).ids := by
        rw [ids_roster_node, List.mem_map, ← hv.sound.hasNode_iff, hnew]
        exact Bool.false_ne_true
      have hroster : roster .node { g with nodes := g.nodes ++ [n] } =
          g.roster .node ++ [(n.id, n.type)] := List.map_append
      rw [hroster]
      exact .joined hjoined
  | nodeUpdated h =>
    obtain ⟨n, hn, -, hm, -, rfl⟩ := updateNode_eq_some_iff.1 h
    obtain ⟨hmem, rfl⟩ := (hv.sound.node?_eq_some_iff _ n).1 hn
    obtain ⟨hid, htype⟩ := Node.id_type_of_updated hm
    cases cls with
    | edge => exact hsame rfl
    | node =>
      exact hsame (map_replace hv.sound.nodeTexts hv.sound.nodeIds hmem (Prod.ext hid htype))
  | nodeDeleted h =>
    obtain ⟨-, -, rfl⟩ := deleteNode_eq_some_iff.1 h
    cases cls with
    | node => exact .left (List.filter_sublist.map _)
    | edge => exact .left (List.filter_sublist.map _)
  | @edgeAdded e _ h =>
    obtain ⟨-, hnew, -, rfl⟩ := addEdge_eq_ok_iff.1 h
    cases cls with
    | node => exact hsame rfl
    | edge =>
      have hjoined : e.id ∉ (g.roster .edge).ids := by
        rw [ids_roster_edge, List.mem_map, ← hv.sound.hasEdge_iff, hnew]
        exact Bool.false_ne_true
      have hroster : ∀ adjacency, roster .edge { g with edges := g.edges ++ [e], adjacency } =
          g.roster .edge ++ [(e.id, e.type)] := fun _ => List.map_append
      rw [hroster]
      exact .joined hjoined
  | edgeUpdated h =>
    obtain ⟨-, e, he, -, hf, -, rfl⟩ := updateEdge_eq_some_iff.1 h
    obtain ⟨hmem, rfl⟩ := (hv.sound.edge?_eq_some_iff _ e).1 he
    obtain ⟨hid, htype⟩ := Edge.id_type_of_updated hf
    cases cls with
    | node => exact hsame rfl
    | edge =>
      exact hsame (map_replace hv.sound.edgeTexts hv.sound.edgeIds hmem (Prod.ext hid htype))
  | edgeDeleted h =>
    obtain ⟨e, he, rfl⟩ := edge?_of_deleteEdge h
    cases cls with
    | node => exact hsame rfl
    | edge => exact .left (List.filter_sublist.map _)
  | @heldDeleted place _ _ h =>
    obtain ⟨e, -, -, rfl⟩ := deleteHeld_eq_some_iff.1 h
    cases cls with
    | node =>
      have hnodes := nodes_removeHeld g place e
      exact hsame (congrArg (List.map fun n : Node => (n.id, n.type)) hnodes)
    | edge => exact .left ((edges_removeHeld_sublist g place e).map _)
  | cleared =>
    rw [roster_empty]
    exact .left (List.nil_sublist _)

end Graph

end PropertyGraph
