import Mathlib.Data.List.Basic
import Mathlib.Data.Prod.Lex
import Mathlib.Data.Sym.Sym2
import PropertyGraph.Proofs.Fact.Lines
import PropertyGraph.Proofs.Graph.Entries
import PropertyGraph.Proofs.Value.Equality
import PropertyGraph.SoftLink

/-!
# The listing of soft links

Which links there are between nodes, and in which order.  A link stands at a pair of places: a link
by similarity at the places of its two nodes (`SimilarAt`), a link by reference at the place of its
node and the place of the field there (`RefersAt`).  `Listed` says that a list has one item for each
pair of places where one stands, in lexicographic order, and nothing else.

The score of two vectors is any function here, so that a NaN may come of it.
-/

namespace PropertyGraph

/-! ### Items at places -/

section Places

variable {α β γ : Type} {stands : ℕ × ℕ → α → Prop} {l : List α}

/-- A list has just one item for each pair of places where one stands, in lexicographic order. -/
def Listed (stands : ℕ × ℕ → α → Prop) (l : List α) : Prop :=
  ∃ places : List (ℕ × ℕ), places.Pairwise (fun p q => toLex p < toLex q) ∧
    (∀ p, p ∈ places ↔ ∃ x, stands p x) ∧ List.Forall₂ stands places l

/-- What is found at places that are in order is listed. -/
theorem listed_filterMap {places : List (ℕ × ℕ)}
    (horder : places.Pairwise fun p q => toLex p < toLex q) {item : ℕ × ℕ → Option α}
    (hstands : ∀ p x, stands p x ↔ p ∈ places ∧ item p = some x) :
    Listed stands (places.filterMap item) := by
  have hall : ∀ ps ⊆ places,
      List.Forall₂ stands (ps.filter fun p => (item p).isSome) (ps.filterMap item) := by
    intro ps hps
    induction ps with
    | nil => exact .nil
    | cons p rest ih =>
      rw [List.cons_subset] at hps
      cases h : item p with
      | none => simpa [h] using ih hps.2
      | some x => simpa [h, hstands, hps.1] using ih hps.2
  refine ⟨places.filter fun p => (item p).isSome, horder.filter _, fun p => ?_,
    hall places (List.Subset.refl _)⟩
  simp only [hstands, List.mem_filter, Option.isSome_iff_exists, exists_and_left]

/-- Whatever is related to several things in order is related to one of them. -/
theorem exists_of_forall₂ {R : β → α → Prop} {bs : List β} (h : List.Forall₂ R bs l) {x : α}
    (hx : x ∈ l) : ∃ b ∈ bs, R b x := by
  induction h with
  | nil => cases hx
  | cons hR _ ih =>
    rcases List.mem_cons.1 hx with rfl | hx
    · exact ⟨_, List.mem_cons_self, hR⟩
    · obtain ⟨b, hb, hR⟩ := ih hx
      exact ⟨b, List.mem_cons_of_mem _ hb, hR⟩

/-- A listed item stands somewhere. -/
theorem Listed.exists_stands (h : Listed stands l) {x : α} (hx : x ∈ l) : ∃ p, stands p x := by
  obtain ⟨places, -, -, hall⟩ := h
  obtain ⟨p, -, hp⟩ := exists_of_forall₂ hall hx
  exact ⟨p, hp⟩

/-- What holds of any two items at different places holds throughout a listing. -/
theorem Listed.pairwise (h : Listed stands l) {R : α → α → Prop}
    (hR : ∀ p q x y, p ≠ q → stands p x → stands q y → R x y) : l.Pairwise R := by
  obtain ⟨places, horder, -, hall⟩ := h
  induction hall with
  | nil => exact .nil
  | @cons p x places l hp hrest ih =>
    rw [List.pairwise_cons] at horder
    refine List.pairwise_cons.2 ⟨fun y hy => ?_, ih horder.2⟩
    obtain ⟨q, hq, hy⟩ := exists_of_forall₂ hrest hy
    have hne : p ≠ q := fun h => absurd (h ▸ horder.1 q hq) (lt_irrefl _)
    exact hR p q x y hne hp hy

theorem filterMap_getElem?_range (l : List α) :
    (List.range l.length).filterMap (fun i => l[i]?) = l := by
  induction l with
  | nil => rfl
  | cons x rest ih =>
    rw [List.length_cons, List.range_succ_eq_map, List.filterMap_cons, List.filterMap_map]
    simpa [Function.comp_def] using ih

/-- Places in one row are in order when they are so within the row. -/
theorem order_in_row (i : ℕ) {ks : List ℕ} (hks : ks.Pairwise (· < ·)) :
    (ks.map fun k => (i, k)).Pairwise fun p q => toLex p < toLex q := by
  rw [List.pairwise_map]
  refine hks.imp ?_
  intro k k' hlt
  exact Prod.Lex.toLex_lt_toLex.2 (.inr ⟨rfl, hlt⟩)

section Table

variable {rows : List β} {row : β → List γ}

/-- The places in the rows of a table, row by row. -/
def places (rows : List β) (row : β → List γ) : List (ℕ × ℕ) :=
  rows.zipIdx.flatMap fun r => (List.range (row r.1).length).map fun k => (r.2, k)

theorem places_order : (places rows row).Pairwise fun p q => toLex p < toLex q := by
  have hrows : rows.zipIdx.Pairwise fun r r' => r.2 < r'.2 := by
    rw [← List.pairwise_map (f := Prod.snd) (R := (· < ·)), List.zipIdx_map_snd]
    exact List.pairwise_lt_range'
  refine List.pairwise_flatMap.2
    ⟨fun r _ => order_in_row r.2 List.pairwise_lt_range, hrows.imp ?_⟩
  intro r r' hlt p hp q hq
  obtain ⟨k, -, rfl⟩ := List.mem_map.1 hp
  obtain ⟨k', -, rfl⟩ := List.mem_map.1 hq
  exact Prod.Lex.toLex_lt_toLex.2 (.inl hlt)

theorem mem_places_iff {p : ℕ × ℕ} :
    p ∈ places rows row ↔ ∃ b, rows[p.1]? = some b ∧ p.2 < (row b).length := by
  simp only [places, List.mem_flatMap, List.mem_map, List.mem_range]
  constructor
  · rintro ⟨r, hr, k, hk, rfl⟩
    exact ⟨r.1, List.mem_zipIdx_iff_getElem?.1 hr, hk⟩
  · rintro ⟨b, hb, hk⟩
    exact ⟨(b, p.1), List.mem_zipIdx_iff_getElem?.2 hb, p.2, hk, rfl⟩

/-- To go through the rows is to go through the places. -/
theorem filterMap_places (item : β → γ → Option α) :
    (places rows row).filterMap
        (fun p => rows[p.1]?.bind fun b => (row b)[p.2]?.bind (item b)) =
      rows.flatMap fun b => (row b).filterMap (item b) := by
  conv_rhs => rw [← List.zipIdx_map_fst 0 rows]
  rw [places, List.filterMap_flatMap, List.flatMap_map]
  refine List.flatMap_congr fun r hr => ?_
  have hr : rows[r.2]? = some r.1 := List.mem_zipIdx_iff_getElem?.1 hr
  conv_rhs => rw [← filterMap_getElem?_range (row r.1), List.filterMap_filterMap]
  rw [List.filterMap_map]
  simp [hr]

/-- What is picked in the rows of a table, one after another, is listed. -/
theorem listed_flatMap {item : β → γ → Option α}
    (hstands : ∀ p x, stands p x ↔
      ∃ b c, rows[p.1]? = some b ∧ (row b)[p.2]? = some c ∧ item b c = some x) :
    Listed stands (rows.flatMap fun b => (row b).filterMap (item b)) := by
  rw [← filterMap_places]
  refine listed_filterMap places_order fun p x => ?_
  rw [hstands, mem_places_iff]
  simp only [Option.bind_eq_some_iff]
  constructor
  · rintro ⟨b, c, hb, hc, hx⟩
    exact ⟨⟨b, hb, (List.getElem?_eq_some_iff.1 hc).1⟩, b, hb, c, hc, hx⟩
  · rintro ⟨-, b, hb, c, hc, hx⟩
    exact ⟨b, c, hb, hc, hx⟩

end Table

end Places

namespace SoftLink

section Pairs

variable {α β : Type}

theorem mem_pairs_iff {l : List ℕ} (hl : l.Pairwise (· < ·)) (p : ℕ × ℕ) :
    p ∈ pairs l ↔ p.1 ∈ l ∧ p.2 ∈ l ∧ p.1 < p.2 := by
  induction l with
  | nil => simp [pairs]
  | cons a rest ih =>
    rw [List.pairwise_cons] at hl
    rw [pairs, List.mem_append, ih hl.2, List.mem_map, List.mem_cons, List.mem_cons]
    constructor
    · rintro (⟨b, hb, rfl⟩ | ⟨h, h', hlt⟩)
      · exact ⟨.inl rfl, .inr hb, hl.1 b hb⟩
      · exact ⟨.inr h, .inr h', hlt⟩
    · rintro ⟨h | h, h' | h', hlt⟩
      · omega
      · exact .inl ⟨p.2, h', by rw [← h]⟩
      · have := hl.1 _ h
        omega
      · exact .inr ⟨h, h', hlt⟩

/-- The pairs of a list that is in order are in lexicographic order. -/
theorem pairs_order {l : List ℕ} (hl : l.Pairwise (· < ·)) :
    (pairs l).Pairwise fun p q => toLex p < toLex q := by
  induction l with
  | nil => exact .nil
  | cons a rest ih =>
    rw [List.pairwise_cons] at hl
    rw [pairs, List.pairwise_append]
    refine ⟨order_in_row a hl.2, ih hl.2, ?_⟩
    intro p hp q hq
    obtain ⟨b, -, rfl⟩ := List.mem_map.1 hp
    exact Prod.Lex.toLex_lt_toLex.2 (.inl (hl.1 _ ((mem_pairs_iff hl.2 q).1 hq).1))

/-- What pairs are made of may be picked first. -/
theorem pairs_filterMap (f : α → Option β) (l : List α) :
    pairs (l.filterMap f) =
      (pairs l).filterMap fun p => (f p.1).bind fun x => (f p.2).map fun y => (x, y) := by
  induction l with
  | nil => rfl
  | cons a rest ih =>
    rw [pairs, List.filterMap_append, List.filterMap_map, ← ih]
    cases h : f a with
    | none => simp [h]
    | some x => simp [h, pairs, List.map_filterMap]

/-- What is picked among the pairs of items, each with a later one, is listed. -/
theorem listed_pairs {γ : Type} {items : List α} {item : α × α → Option γ}
    {stands : ℕ × ℕ → γ → Prop}
    (hstands : ∀ p x, stands p x ↔
      p.1 < p.2 ∧ ∃ a b, items[p.1]? = some a ∧ items[p.2]? = some b ∧ item (a, b) = some x) :
    Listed stands ((pairs items).filterMap item) := by
  have hplaces := List.pairwise_lt_range (n := items.length)
  conv_rhs => rw [← filterMap_getElem?_range items, pairs_filterMap, List.filterMap_filterMap]
  refine listed_filterMap (pairs_order hplaces) fun p x => ?_
  rw [hstands, mem_pairs_iff hplaces]
  simp only [Option.bind_eq_some_iff, Option.map_eq_some_iff, List.mem_range]
  constructor
  · rintro ⟨hlt, a, b, ha, hb, hx⟩
    exact ⟨⟨(List.getElem?_eq_some_iff.1 ha).1, (List.getElem?_eq_some_iff.1 hb).1, hlt⟩,
      (a, b), ⟨a, ha, b, hb, rfl⟩, hx⟩
  · rintro ⟨⟨-, -, hlt⟩, -, ⟨a, ha, b, hb, rfl⟩, hx⟩
    exact ⟨hlt, a, b, ha, hb, hx⟩

end Pairs

/-! ### Links by similarity -/

section Similarity

variable {score : Value → Value → Float} {bound : Exact} {nodes : List Node}

/-- A link by similarity stands at the places of two nodes with vectors, the earlier one first,
whose score is above the bound. -/
def SimilarAt (score : Value → Value → Float) (bound : Exact) (nodes : List Node) (p : ℕ × ℕ)
    (l : SoftLink) : Prop :=
  p.1 < p.2 ∧ ∃ a b xs ys, nodes[p.1]? = some a ∧ nodes[p.2]? = some b ∧
    a.embedding = some xs ∧ b.embedding = some ys ∧
    bound.less (.ofFloat (score (.tuple xs) (.tuple ys))) = true ∧
    l = ⟨a.id, b.id, .similarity (score (.tuple xs) (.tuple ys))⟩

/-- The link between two nodes with vectors, if their score is above the bound. -/
def alike? (score : Value → Value → Float) (bound : Exact)
    (p : (Node × Value) × (Node × Value)) : Option SoftLink :=
  if bound.less (.ofFloat (score p.1.2 p.2.2)) then
    some ⟨p.1.1.id, p.2.1.id, .similarity (score p.1.2 p.2.2)⟩
  else none

/-- The links by similarity, where every pair of vectors has a score. -/
def alike (score : Value → Value → Float) (bound : Exact) (nodes : List Node) : List SoftLink :=
  (pairs (nodes.filterMap embedded?)).filterMap (alike? score bound)

theorem bySimilarity_eq {threshold : Value} (h : threshold.number? = some bound)
    (nodes : List Node) :
    bySimilarity (fun a b => .ok (score a b)) threshold nodes = .ok (alike score bound nodes) := by
  have hsimilar : (fun p : (Node × Value) × (Node × Value) =>
      similar? (fun a b => .ok (score a b)) threshold p.1 p.2) =
        fun p => pure (alike? score bound p) := by
    funext p
    simp only [similar?, exceeds, h]
    rfl
  rw [bySimilarity, hsimilar, List.mapM_pure, alike]
  simp [List.filterMap_map, pure, Except.pure, bind, Except.bind]

theorem embedded?_eq_some_iff {n : Node} {e : Node × Value} :
    embedded? n = some e ↔ ∃ xs, n.embedding = some xs ∧ e = (n, .tuple xs) := by
  rw [embedded?, Option.map_eq_some_iff]
  exact exists_congr fun xs => and_congr_right fun _ => eq_comm

theorem alike?_eq_some_iff {p : (Node × Value) × (Node × Value)} {l : SoftLink} :
    alike? score bound p = some l ↔
      bound.less (.ofFloat (score p.1.2 p.2.2)) = true ∧
        l = ⟨p.1.1.id, p.2.1.id, .similarity (score p.1.2 p.2.2)⟩ := by
  rw [alike?, Option.ite_none_right_eq_some, Option.some.injEq, eq_comm (a := l)]

theorem listed_alike (score : Value → Value → Float) (bound : Exact) (nodes : List Node) :
    Listed (SimilarAt score bound nodes) (alike score bound nodes) := by
  rw [alike, pairs_filterMap, List.filterMap_filterMap]
  refine listed_pairs fun p l => and_congr_right fun _ => ?_
  simp only [Option.bind_eq_some_iff, Option.map_eq_some_iff, embedded?_eq_some_iff]
  constructor
  · rintro ⟨a, b, xs, ys, ha, hb, hxs, hys, hless, rfl⟩
    exact ⟨a, b, ha, hb, _, ⟨_, ⟨xs, hxs, rfl⟩, _, ⟨ys, hys, rfl⟩, rfl⟩,
      alike?_eq_some_iff.2 ⟨hless, rfl⟩⟩
  · rintro ⟨a, b, ha, hb, _, ⟨_, ⟨xs, hxs, rfl⟩, _, ⟨ys, hys, rfl⟩, rfl⟩, hl⟩
    obtain ⟨hless, rfl⟩ := alike?_eq_some_iff.1 hl
    exact ⟨a, b, xs, ys, ha, hb, hxs, hys, hless, rfl⟩

/-- A higher bound leaves links out, and changes nothing else. -/
theorem alike_sublist {bound' : Exact} (h : bound.less bound' = true ∨ bound.same bound' = true)
    (nodes : List Node) :
    (alike score bound' nodes).Sublist (alike score bound nodes) := by
  have hkept : ∀ p l, alike? score bound' p = some l → alike? score bound p = some l := by
    intro p l hl
    rw [alike?_eq_some_iff] at hl ⊢
    exact ⟨Exact.less_of_le_of_less h hl.1, hl.2⟩
  rw [alike, alike]
  induction pairs (nodes.filterMap embedded?) with
  | nil => exact .slnil
  | cons p rest ih =>
    rw [List.filterMap_cons, List.filterMap_cons]
    cases hl : alike? score bound' p with
    | some l =>
      rw [hkept p l hl]
      exact ih.cons_cons l
    | none =>
      cases alike? score bound p with
      | some l => exact ih.cons l
      | none => exact ih

end Similarity

/-! ### Links by reference -/

section Reference

variable {nodes : List Node}

/-- A link by reference stands at the place of a node and the place of one of its fields, whose
value is a text that is the identifier of another node. -/
def RefersAt (nodes : List Node) (p : ℕ × ℕ) (l : SoftLink) : Prop :=
  ∃ n label m, nodes[p.1]? = some n ∧ m ∈ nodes ∧ n.data[p.2]? = some (label, m.id) ∧
    Graph.isText m.id = true ∧ m.id ≠ n.id ∧ l = ⟨n.id, m.id, .reference label⟩

theorem refersTo_iff (hids : ∀ n ∈ nodes, Graph.isText n.id = true) (n : Node) (v : Value) :
    refersTo nodes n v = true ↔ ∃ m ∈ nodes, m.id = v ∧ v ≠ n.id := by
  by_cases hv : Graph.isText v = true
  · have hrefers : refersTo nodes n v =
        (nodes.any (fun m => m.id.sameKey v) && !n.id.sameKey v) := by
      cases v <;> first | rfl | cases hv
    rw [hrefers, Bool.and_eq_true, List.any_eq_true, Bool.not_eq_true',
      Value.sameKey_eq_false_iff hv, ne_comm]
    simp only [Value.sameKey_iff_eq hv]
    constructor
    · rintro ⟨⟨m, hm, hid⟩, hne⟩
      exact ⟨m, hm, hid, hne⟩
    · rintro ⟨m, hm, hid, hne⟩
      exact ⟨⟨m, hm, hid⟩, hne⟩
  · have hrefers : refersTo nodes n v = false := by
      cases v <;> first | rfl | exact absurd rfl hv
    rw [hrefers]
    constructor
    · nofun
    · rintro ⟨m, hm, rfl, -⟩
      exact absurd (hids m hm) hv

theorem ofFields_eq (nodes : List Node) (n : Node) :
    ofFields nodes n = n.data.filterMap fun p =>
      if refersTo nodes n p.2 then some ⟨n.id, p.2, .reference p.1⟩ else none := by
  rw [ofFields]
  induction n.data with
  | nil => rfl
  | cons p rest ih =>
    rw [List.filter_cons, List.filterMap_cons]
    cases refersTo nodes n p.2
    · exact ih
    · rw [if_pos rfl, if_pos rfl, List.map_cons, ih]

theorem listed_ofFields (hids : ∀ n ∈ nodes, Graph.isText n.id = true) :
    Listed (RefersAt nodes) (nodes.flatMap (ofFields nodes)) := by
  simp only [funext (ofFields_eq nodes)]
  refine listed_flatMap fun p l => ?_
  simp only [Option.ite_none_right_eq_some, Option.some.injEq, refersTo_iff hids]
  constructor
  · rintro ⟨n, label, m, hn, hm, hfield, hid, hne, rfl⟩
    exact ⟨n, _, hn, hfield, ⟨m, hm, rfl, hne⟩, rfl⟩
  · rintro ⟨n, c, hn, hfield, ⟨m, hm, hid, hne⟩, rfl⟩
    obtain ⟨label, v⟩ := c
    obtain rfl : m.id = v := hid
    exact ⟨n, label, m, hn, hm, hfield, hids m hm, hne, rfl⟩

theorem identifies_of_isText {v : Value} (h : Graph.isText v = true) : v.identifies = true := by
  cases v <;> first | rfl | cases h

theorem byReference_eq (hids : ∀ n ∈ nodes, Graph.isText n.id = true) :
    byReference nodes = .ok (nodes.flatMap (ofFields nodes)) := by
  have hall : (nodes.all fun n => n.id.identifies) = true :=
    List.all_eq_true.2 fun n hn => identifies_of_isText (hids n hn)
  rw [byReference, if_pos hall]

end Reference

/-! ### All links -/

/-- Which soft links there are between nodes, for scores above a bound: those by similarity, and
those by reference. -/
structure Suggested (score : Value → Value → Float) (bound : Exact) (nodes : List Node)
    (similar referring : List SoftLink) : Prop where
  similarity : Listed (SimilarAt score bound nodes) similar
  reference : Listed (RefersAt nodes) referring
  /-- A link joins two nodes. -/
  joins : ∀ l ∈ similar ++ referring,
    ∃ a ∈ nodes, ∃ b ∈ nodes, l.source = a.id ∧ l.target = b.id ∧ a.id ≠ b.id
  /-- Two nodes are linked by similarity once at most, whichever of them is the source. -/
  once : (similar.map fun l => s(l.source, l.target)).Nodup

section All

variable {score : Value → Value → Float} {bound : Exact} {nodes : List Node}

/-- Where identifiers differ, a node is found in one place. -/
theorem place_eq (hids : (nodes.map (·.id)).Nodup) {i j : ℕ} {a b : Node}
    (ha : nodes[i]? = some a) (hb : nodes[j]? = some b) (hab : a.id = b.id) : i = j := by
  have hi : i < (nodes.map (·.id)).length := by
    rw [List.length_map]
    exact (List.getElem?_eq_some_iff.1 ha).1
  refine (List.getElem?_inj hi hids).1 ?_
  rw [List.getElem?_map, List.getElem?_map, ha, hb, Option.map_some, Option.map_some, hab]

theorem suggested (htexts : ∀ n ∈ nodes, Graph.isText n.id = true)
    (hids : (nodes.map (·.id)).Nodup) :
    Suggested score bound nodes (alike score bound nodes) (nodes.flatMap (ofFields nodes)) where
  similarity := listed_alike score bound nodes
  reference := listed_ofFields htexts
  joins := by
    intro l hl
    rcases List.mem_append.1 hl with hl | hl
    · obtain ⟨p, hlt, a, b, xs, ys, ha, hb, -, -, -, rfl⟩ :=
        (listed_alike score bound nodes).exists_stands hl
      refine ⟨a, List.mem_of_getElem? ha, b, List.mem_of_getElem? hb, rfl, rfl, fun hab => ?_⟩
      exact absurd (place_eq hids ha hb hab) (Nat.ne_of_lt hlt)
    · obtain ⟨p, n, label, m, hn, hm, -, -, hne, rfl⟩ := (listed_ofFields htexts).exists_stands hl
      exact ⟨n, List.mem_of_getElem? hn, m, hm, rfl, rfl, hne.symm⟩
  once := by
    refine List.pairwise_map.2 ((listed_alike score bound nodes).pairwise ?_)
    rintro p q l l' hpq ⟨hp, a, b, xs, ys, ha, hb, -, -, -, rfl⟩
      ⟨hq, a', b', xs', ys', ha', hb', -, -, -, rfl⟩ hends
    rcases Sym2.eq_iff.1 hends with ⟨hsource, htarget⟩ | ⟨hcross, hcross'⟩
    · exact hpq (Prod.ext (place_eq hids ha ha' hsource) (place_eq hids hb hb' htarget))
    · -- the earlier node of each link would be the later one of the other
      have h := place_eq hids ha hb' hcross
      have h' := place_eq hids hb ha' hcross'
      omega

theorem linksBy_eq (htexts : ∀ n ∈ nodes, Graph.isText n.id = true) {threshold : Value}
    (h : threshold.number? = some bound) :
    linksBy (fun a b => .ok (score a b)) threshold nodes =
      .ok (alike score bound nodes ++ nodes.flatMap (ofFields nodes)) := by
  rw [linksBy, bySimilarity_eq h, byReference_eq htexts]
  rfl

theorem mem_of_mem_pairs {α : Type} {l : List α} {p : α × α} (hp : p ∈ pairs l) :
    p.1 ∈ l ∧ p.2 ∈ l := by
  induction l with
  | nil => cases hp
  | cons a rest ih =>
    rcases List.mem_append.1 hp with hp | hp
    · obtain ⟨b, hb, rfl⟩ := List.mem_map.1 hp
      exact ⟨List.mem_cons_self, List.mem_cons_of_mem _ hb⟩
    · exact (ih hp).imp (List.mem_cons_of_mem _) (List.mem_cons_of_mem _)

theorem mapM_congr {α β : Type} {l : List α} {f g : α → Result β} (h : ∀ x ∈ l, f x = g x) :
    l.mapM f = l.mapM g := by
  induction l with
  | nil => rfl
  | cons x rest ih =>
    rw [List.forall_mem_cons] at h
    rw [List.mapM_cons, List.mapM_cons, h.1, ih h.2]

/-- Only the scores of vectors of the nodes count. -/
theorem linksBy_congr {score score' : Value → Value → Result Float} {threshold : Value}
    (h : ∀ a ∈ nodes, ∀ b ∈ nodes, ∀ xs ∈ a.embedding, ∀ ys ∈ b.embedding,
      score (.tuple xs) (.tuple ys) = score' (.tuple xs) (.tuple ys)) :
    linksBy score threshold nodes = linksBy score' threshold nodes := by
  have hpairs : ∀ p ∈ pairs (nodes.filterMap embedded?),
      similar? score threshold p.1 p.2 = similar? score' threshold p.1 p.2 := by
    rintro ⟨x, y⟩ hp
    obtain ⟨hx, hy⟩ := mem_of_mem_pairs hp
    obtain ⟨a, ha, hxa⟩ := List.mem_filterMap.1 hx
    obtain ⟨b, hb, hyb⟩ := List.mem_filterMap.1 hy
    obtain ⟨xs, hxs, rfl⟩ := embedded?_eq_some_iff.1 hxa
    obtain ⟨ys, hys, rfl⟩ := embedded?_eq_some_iff.1 hyb
    rw [similar?, similar?, h a ha b hb xs hxs ys hys]
  rw [linksBy, linksBy, bySimilarity, bySimilarity, mapM_congr hpairs]

end All

end SoftLink

end PropertyGraph
