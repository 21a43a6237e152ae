import Mathlib.Data.List.Nodup
import PropertyGraph.Proofs.Graph.Loading

/-!
# Charts

An adjacency holds a list of edges (`Adjacency.Charts`) when each bundle carries, in their order,
just the edges that run between its nodes.  It goes on doing so when an edge is linked behind them
(`Charts.link`), unless an edge without an identifier runs between the same nodes already: the
number that this one is kept under might be the identifier of the new one.

Any of the edges can be unlinked as well (`Charts.unlinkBy`), if what is taken away is its own link.
That is the link that its identifier finds (`Link.remove_of_apart`), or, where no value finds it,
the one that has its place among such links (`Link.removeElusive_append`).  Without an identifier
the last link is taken away, which is the right one where nothing was linked after it.
-/

namespace PropertyGraph

namespace Value

/-- Whatever can be found by itself can identify. -/
theorem identifies_of_sameKey {v : Value} (h : v.sameKey v = true) : v.identifies = true := by
  rcases hkey : v.key? with _ | k
  · simp [sameKey, hkey] at h
  · exact identifies_of_key? hkey

theorem elusive_eq_false_iff {v : Value} : v.elusive = false ↔ v.sameKey v = true := by
  rw [elusive, Bool.not_eq_false']

theorem elusive_null : elusive .null = false := rfl

theorem elusive_int (n : Int) : elusive (.int n) = false := by simp [elusive, sameKey, key?]

theorem key?_of_sameKey_int {v : Value} {n : Int} (h : v.sameKey (.int n) = true) :
    v.key? = some (.number n) := by
  rw [sameKey, show key? (.int n) = some (.number n) by rw [key?]] at h
  rcases hv : v.key? with _ | k
  · simp [hv] at h
  · simpa [hv] using h

end Value

/-! ### Links in a bundle -/

namespace Link

variable {ls ms : List Link} {l : Link}

/-- There is a free number: as many numbers as there are links, and one more, are not all taken. -/
theorem exists_freeNumber (ls : List Link) :
    ∃ n, freeNumber ls = .int n ∧ ∀ l ∈ ls, l.key.sameKey (.int n) = false := by
  set candidates := (List.range (ls.length + 1)).map fun i => Int.ofNat (ls.length + i)
  have hcandidates : (List.range (ls.length + 1)).map (fun i =>
      Value.int (Int.ofNat (ls.length + i))) = candidates.map Value.int := by
    rw [List.map_map]
    rfl
  have hnodup : (candidates.map Key.number).Nodup := by
    rw [List.map_map]
    refine List.nodup_range.map fun i j hij => ?_
    exact Nat.add_left_cancel (Int.ofNat.inj (Key.number.inj hij))
  rw [freeNumber, hcandidates]
  rcases hfound : (candidates.map Value.int).find? fun v => !ls.any fun l => l.key.sameKey v
    with _ | v
  · have htaken : candidates.map Key.number ⊆ ls.filterMap fun l => l.key.key? := by
      intro k hk
      obtain ⟨n, hn, rfl⟩ := List.mem_map.1 hk
      have hany := List.find?_eq_none.1 hfound _ (List.mem_map_of_mem hn)
      rw [Bool.not_eq_true, Bool.not_eq_false', List.any_eq_true] at hany
      obtain ⟨l, hl, hkey⟩ := hany
      exact List.mem_filterMap.2 ⟨l, hl, Value.key?_of_sameKey_int hkey⟩
    have hlength := Nat.le_trans (List.subperm_of_subset hnodup htaken).length_le
      (List.length_filterMap_le _ ls)
    simp only [candidates, List.length_map, List.length_range] at hlength
    omega
  · obtain ⟨n, -, rfl⟩ := List.mem_map.1 (List.mem_of_find?_eq_some hfound)
    refine ⟨n, rfl, fun l hl => ?_⟩
    have hfree := List.find?_some hfound
    rw [Bool.not_eq_true', List.any_eq_false] at hfree
    exact eq_false_of_ne_true (hfree l hl)

/-- The key of a link is the one that its edge was given when it was linked. -/
def Keyed (l : Link) : Prop := ∃ ls, l.key = keyFor ls l.edge.id

theorem Keyed.key_eq (h : l.Keyed) (hnamed : l.edge.id ≠ .null) : l.key = l.edge.id := by
  obtain ⟨ls, hkey⟩ := h
  rw [hkey, keyFor_of_named hnamed]

theorem Keyed.exists_number (h : l.Keyed) (hnull : l.edge.id = .null) : ∃ n, l.key = .int n := by
  obtain ⟨ls, hkey⟩ := h
  obtain ⟨n, hn, -⟩ := exists_freeNumber ls
  rw [hkey, hnull]
  exact ⟨n, hn⟩

theorem Keyed.elusive_eq (h : l.Keyed) : l.key.elusive = l.edge.id.elusive := by
  by_cases hnull : l.edge.id = .null
  · obtain ⟨n, hn⟩ := h.exists_number hnull
    rw [hn, hnull, Value.elusive_int, Value.elusive_null]
  · rw [h.key_eq hnull]

/-! ### Taking a link away -/

theorem remove_sublist (ls : List Link) (key : Value) : (remove ls key).Sublist ls := by
  cases key with
  | null => exact List.dropLast_sublist ls
  | _ => exact List.filter_sublist

theorem removeElusive_cons (n : Nat) (l : Link) (ls : List Link) :
    removeElusive n (l :: ls) = if l.key.elusive then
      match n with
      | 0 => ls
      | n + 1 => l :: removeElusive n ls
    else l :: removeElusive n ls := by
  cases n <;> rfl

theorem removeElusive_sublist (n : Nat) (ls : List Link) : (removeElusive n ls).Sublist ls := by
  induction ls generalizing n with
  | nil => exact .slnil
  | cons l rest ih =>
    rw [removeElusive_cons]
    split
    · cases n with
      | zero => exact List.sublist_cons_self l rest
      | succ n => exact (ih n).cons_cons l
    · exact (ih n).cons_cons l

/-- A link with a key of its own is taken away by it. -/
theorem remove_of_apart (hapart : (ls ++ l :: ms).Pairwise fun l m => l.key.sameKey m.key = false)
    (hself : l.key.sameKey l.key = true) (hnamed : l.key ≠ .null) :
    remove (ls ++ l :: ms) l.key = ls ++ ms := by
  rw [List.pairwise_append, List.pairwise_cons] at hapart
  obtain ⟨-, ⟨hafter, -⟩, hbefore⟩ := hapart
  have hls : ls.filter (fun m => !m.key.sameKey l.key) = ls :=
    List.filter_eq_self.2 fun m hm => by rw [hbefore m hm l List.mem_cons_self, Bool.not_false]
  have hms : ms.filter (fun m => !m.key.sameKey l.key) = ms :=
    List.filter_eq_self.2 fun m hm => by rw [Value.sameKey_comm, hafter m hm, Bool.not_false]
  rw [remove_of_named hnamed, List.filter_append, List.filter_cons, hself, hls, hms]
  rfl

/-- An elusive link is taken away by the number of such links before it. -/
theorem removeElusive_append (ls : List Link) (hl : l.key.elusive = true) :
    removeElusive (ls.countP fun m => m.key.elusive) (ls ++ l :: ms) = ls ++ ms := by
  induction ls with
  | nil => exact if_pos hl
  | cons m rest ih =>
    rw [List.cons_append, List.cons_append, removeElusive_cons, List.countP_cons]
    by_cases hm : m.key.elusive = true
    · rw [if_pos hm, if_pos hm]
      exact congrArg (m :: ·) ih
    · rw [if_neg hm, if_neg hm, Nat.add_zero, ih]

end Link

/-- The edges among some that run where a bundle does. -/
def Bundle.among (b : Bundle) (es : List Edge) : List Edge :=
  es.filter fun e => b.joins e.source e.target

section Among

variable {b : Bundle} {e : Edge}

theorem Bundle.among_append (b : Bundle) (es fs : List Edge) :
    b.among (es ++ fs) = b.among es ++ b.among fs :=
  List.filter_append ..

theorem Bundle.among_cons_of_joins (hj : b.joins e.source e.target = true) (es : List Edge) :
    b.among (e :: es) = e :: b.among es :=
  List.filter_cons_of_pos hj

theorem Bundle.among_cons_of_not_joins (hj : b.joins e.source e.target = false)
    (es : List Edge) : b.among (e :: es) = b.among es :=
  List.filter_cons_of_neg (Bool.not_eq_true _ ▸ hj)

end Among

/-- The link of an edge stands in a bundle between those of the edges before it and those of the
edges after it. -/
structure Bundle.Divided (b : Bundle) (before : List Edge) (e : Edge) (after : List Edge)
    (ls : List Link) (l : Link) (ms : List Link) : Prop where
  links : b.links = ls ++ l :: ms
  edge : l.edge = e
  before : ls.map (·.edge) = b.among before
  after : ms.map (·.edge) = b.among after

/-! ### Separate bundles -/

namespace Adjacency

/-- No two bundles join the same nodes. -/
def Separate (a : Adjacency) : Prop :=
  (a.map Bundle.ends).Pairwise fun p q => (p.1.sameKey q.1 && p.2.sameKey q.2) = false

variable {a : Adjacency} {e : Edge}

theorem separate_cons (b : Bundle) (a : Adjacency) :
    Separate (b :: a) ↔ (∀ c ∈ a, b.joins c.source c.target = false) ∧ a.Separate := by
  unfold Separate
  rw [List.map_cons, List.pairwise_cons, List.forall_mem_map]
  rfl

theorem joins_of_joins_joins {b : Bundle} {u v : Value} (hb : b.joins e.source e.target = true)
    (huv : b.joins u v = true) : e.Joins u v := by
  rw [Bundle.joins, Bool.and_eq_true] at hb huv
  exact ⟨Value.sameKey_trans (Value.sameKey_comm _ _ ▸ hb.1) huv.1,
    Value.sameKey_trans (Value.sameKey_comm _ _ ▸ hb.2) huv.2⟩

theorem joins_iff_of_joins {b : Bundle} (hb : b.joins e.source e.target = true) (f : Edge) :
    b.joins f.source f.target = true ↔ f.Joins e.source e.target := by
  constructor
  · exact fun hf => joins_of_joins_joins hf hb
  · rw [Bundle.joins, Bool.and_eq_true] at hb ⊢
    exact fun hf => ⟨Value.sameKey_trans hb.1 (Value.sameKey_comm _ _ ▸ hf.1),
      Value.sameKey_trans hb.2 (Value.sameKey_comm _ _ ▸ hf.2)⟩

/-- Beside a bundle that joins the ends of an edge, no other one does. -/
theorem not_joins_of_joins {b c : Bundle} (hb : b.joins e.source e.target = true)
    (hbc : b.joins c.source c.target = false) : c.joins e.source e.target = false := by
  rw [← Bool.not_eq_true]
  intro hc
  rw [Bundle.joins, Bool.and_eq_true] at hb hc
  have hsource := Value.sameKey_trans hb.1 (Value.sameKey_comm _ _ ▸ hc.1)
  have htarget := Value.sameKey_trans hb.2 (Value.sameKey_comm _ _ ▸ hc.2)
  rw [Bundle.joins, hsource, htarget] at hbc
  cases hbc

theorem Separate.link (h : a.Separate) (key : Value) (e : Edge) : (link key e a).Separate := by
  obtain ⟨before, b, after, rfl, -, hlink⟩ | ⟨hnone, hlink⟩ := link_cases key e a
  · have hends : (Adjacency.link key e (before ++ b :: after)).map Bundle.ends =
        (before ++ b :: after).map Bundle.ends := by
      rw [hlink]
      simp only [List.map_append, List.map_cons, Bundle.ends]
    rw [Separate, hends]
    exact h
  · rw [Separate, hlink, List.map_append]
    refine List.pairwise_append.2 ⟨h, List.pairwise_singleton _ _, ?_⟩
    rw [List.forall_mem_map]
    exact fun b hb q hq => List.mem_singleton.1 hq ▸ hnone b hb

theorem Separate.unlinkBy (h : a.Separate) (remove : List Link → List Link) (e : Edge) :
    (unlinkBy remove e a).Separate :=
  h.sublist (ends_unlinkBy_sublist remove e a)

section Bundles

variable {b c : Bundle} (hj : b.joins e.source e.target = true)
  (hb : ∀ d ∈ a, b.joins d.source d.target = false)

include hj hb

theorem mem_iff_of_joins :
    c ∈ a ↔ c ∈ b :: a ∧ c.joins e.source e.target = false := by
  rw [List.mem_cons]
  constructor
  · exact fun hc => ⟨.inr hc, not_joins_of_joins hj (hb c hc)⟩
  · rintro ⟨rfl | hc, hnone⟩
    · rw [hj] at hnone
      cases hnone
    · exact hc

theorem exists_mem_cons_of_joins (p : Bundle → Prop) :
    (∃ d ∈ b :: a, d.joins e.source e.target = true ∧ p d) ↔ p b := by
  constructor
  · rintro ⟨d, hd, hjoins, hp⟩
    rcases List.mem_cons.1 hd with rfl | hd
    · exact hp
    · rw [not_joins_of_joins hj (hb d hd)] at hjoins
      cases hjoins
  · exact fun hp => ⟨b, List.mem_cons_self, hj, hp⟩

end Bundles

/-- What is left when links are taken out: the bundles that do not join the ends of the edge, and
what is left of the one that does, unless it is empty then. -/
theorem Separate.mem_unlinkBy_iff (h : a.Separate) (remove : List Link → List Link) (e : Edge)
    (c : Bundle) :
    c ∈ Adjacency.unlinkBy remove e a ↔ c ∈ a ∧ c.joins e.source e.target = false ∨
      ∃ b ∈ a, b.joins e.source e.target = true ∧
        c = { b with links := remove b.links } ∧ c.links ≠ [] := by
  induction a with
  | nil => simp [Adjacency.unlinkBy]
  | cons b rest ih =>
    obtain ⟨hb, hrest⟩ := (separate_cons b rest).1 h
    rw [Adjacency.unlinkBy]
    by_cases hj : b.joins e.source e.target = true
    · rw [if_pos hj, ← mem_iff_of_joins hj hb, exists_mem_cons_of_joins hj hb]
      split
      · rename_i hnil
        refine (or_iff_left ?_).symm
        rintro ⟨rfl, hc⟩
        exact hc hnil
      · rename_i hne
        rw [List.mem_cons, or_comm]
        refine or_congr_right ⟨fun hc => ⟨hc, ?_⟩, fun hc => hc.1⟩
        rw [hc]
        exact hne
    · have hj' := eq_false_of_ne_true hj
      rw [if_neg hj, List.mem_cons, ih hrest, List.mem_cons, or_and_right, or_assoc,
        List.exists_mem_cons_iff, hj']
      simp only [Bool.false_eq_true, false_and, false_or]
      refine or_congr_left ⟨?_, fun hc => hc.1⟩
      rintro rfl
      exact ⟨rfl, hj'⟩

/-- What is there when an edge is linked: the bundles that do not join its ends, and one that does,
with the new link. -/
theorem Separate.mem_link_iff (h : a.Separate) (key : Value) (e : Edge) (c : Bundle) :
    c ∈ Adjacency.link key e a ↔ c ∈ a ∧ c.joins e.source e.target = false ∨
      (∃ b ∈ a, b.joins e.source e.target = true ∧
        c = { b with links := Link.put b.links ⟨Link.keyFor b.links key, e⟩ }) ∨
      (∀ b ∈ a, b.joins e.source e.target = false) ∧
        c = ⟨e.source, e.target, [⟨Link.keyFor [] key, e⟩]⟩ := by
  induction a with
  | nil => simp [Adjacency.link]
  | cons b rest ih =>
    obtain ⟨hb, hrest⟩ := (separate_cons b rest).1 h
    rw [Adjacency.link]
    by_cases hj : b.joins e.source e.target = true
    · rw [if_pos hj, ← mem_iff_of_joins hj hb, exists_mem_cons_of_joins hj hb, List.mem_cons,
        List.forall_mem_cons, hj, or_comm]
      simp only [Bool.true_eq_false, false_and, or_false]
    · have hj' := eq_false_of_ne_true hj
      rw [if_neg hj, List.mem_cons, ih hrest, List.mem_cons, or_and_right, or_assoc,
        List.exists_mem_cons_iff, List.forall_mem_cons, hj']
      simp only [Bool.false_eq_true, false_and, false_or, true_and]
      refine or_congr_left ⟨?_, fun hc => hc.1⟩
      rintro rfl
      exact ⟨rfl, hj'⟩

/-- Nothing but links is taken out of the lists at the nodes. -/
theorem linksAt_unlinkBy_sublist {remove : List Link → List Link}
    (hremove : ∀ ls, (remove ls).Sublist ls) (e : Edge) (a : Adjacency) (side : Side)
    (id : Value) : ((unlinkBy remove e a).linksAt side id).Sublist (a.linksAt side id) := by
  induction a with
  | nil => exact .slnil
  | cons b rest ih =>
    rw [unlinkBy]
    split
    · split
      · rw [linksAt_cons]
        exact List.sublist_append_right _ _
      · rw [linksAt_cons, linksAt_cons]
        have hends : ∀ links, Bundle.endpoint { b with links } side = b.endpoint side := by
          intro links
          cases side <;> rfl
        rw [hends]
        split
        · exact (hremove b.links).append_right _
        · exact .refl _
    · rw [linksAt_cons, linksAt_cons]
      exact ih.append_left _

/-! ### Charts -/

/-- An adjacency holds some edges: each has its link, in their order, in the one bundle that joins
its ends, and there are no other links. -/
structure Charts (a : Adjacency) (es : List Edge) : Prop where
  separate : a.Separate
  filled : ∀ b ∈ a, b.links ≠ []
  edges : ∀ b ∈ a, b.links.map (·.edge) = b.among es
  keyed : ∀ b ∈ a, ∀ l ∈ b.links, l.Keyed
  apart : ∀ b ∈ a, b.links.Pairwise fun l m => l.key.sameKey m.key = false
  connected : ∀ e ∈ es, ∃ b ∈ a, b.joins e.source e.target = true

theorem charts_nil : Charts [] [] := ⟨.nil, nofun, nofun, nofun, nofun, nofun⟩

namespace Charts

variable {es : List Edge} (h : a.Charts es)

include h

/-- Where there are no edges, there are no bundles. -/
theorem eq_nil (hes : es = []) : a = [] := by
  refine List.eq_nil_iff_forall_not_mem.2 fun b hb => h.filled b hb ?_
  rw [← List.map_eq_nil_iff, h.edges b hb, hes]
  rfl

theorem exists_link {b : Bundle} (hb : b ∈ a) (he : e ∈ es)
    (hj : b.joins e.source e.target = true) : ∃ l ∈ b.links, l.edge = e := by
  have hmem : e ∈ b.links.map (·.edge) := h.edges b hb ▸ List.mem_filter.2 ⟨he, hj⟩
  exact List.mem_map.1 hmem

theorem edge_of_link {b : Bundle} (hb : b ∈ a) {l : Link} (hl : l ∈ b.links) :
    l.edge ∈ es ∧ b.joins l.edge.source l.edge.target = true := by
  have hmem : l.edge ∈ b.among es := h.edges b hb ▸ List.mem_map_of_mem hl
  exact List.mem_filter.1 hmem

theorem of_mem_linksAt {side : Side} {id : Value} {l : Link} (hl : l ∈ a.linksAt side id) :
    l.Keyed ∧ l.edge ∈ es ∧ (l.edge.endpoint side).sameKey id = true := by
  obtain ⟨b, hb, hend, hl⟩ := (mem_linksAt_iff a side id l).1 hl
  obtain ⟨he, hj⟩ := h.edge_of_link hb hl
  exact ⟨h.keyed b hb l hl, he, (Bundle.sameKey_endpoint_iff hj side id).1 hend⟩

theorem exists_mem_linksAt (he : e ∈ es) {side : Side} {id : Value}
    (hend : (e.endpoint side).sameKey id = true) : ∃ l ∈ a.linksAt side id, l.edge = e := by
  obtain ⟨b, hb, hj⟩ := h.connected e he
  obtain ⟨l, hl, rfl⟩ := h.exists_link hb he hj
  exact ⟨l, (mem_linksAt_iff a side id l).2
    ⟨b, hb, (Bundle.sameKey_endpoint_iff hj side id).2 hend, hl⟩, rfl⟩

/-- Where no bundle joins the ends of an edge, there is no other edge between them. -/
theorem among_eq_nil {b : Bundle} (hj : b.joins e.source e.target = true)
    (hnone : ∀ c ∈ a, c.joins e.source e.target = false) : b.among es = [] := by
  refine List.filter_eq_nil_iff.2 fun f hf hjf => ?_
  obtain ⟨c, hc, hjc⟩ := h.connected f hf
  have hjoins := Bundle.joins_of_joins hjc (joins_of_joins_joins hjf hj)
  rw [hnone c hc] at hjoins
  cases hjoins

/-! ### Linking one more edge -/

section Link

variable (hnew : ∀ f ∈ es, f.id.sameKey e.id = false)
  (hlast : ∀ f ∈ es, f.id = .null → ¬ e.Joins f.source f.target)

include hnew hlast

/-- In the bundle that it goes into, the key of a new edge is a new one. -/
theorem keyFor_new {b : Bundle} (hb : b ∈ a) (hj : b.joins e.source e.target = true) :
    ∀ l ∈ b.links, l.key.sameKey (Link.keyFor b.links e.id) = false := by
  intro l hl
  by_cases hnull : e.id = .null
  · obtain ⟨n, hn, hfree⟩ := Link.exists_freeNumber b.links
    rw [hnull, show Link.keyFor b.links .null = .int n from hn]
    exact hfree l hl
  · obtain ⟨hf, hjf⟩ := h.edge_of_link hb hl
    have hnamed : l.edge.id ≠ .null := fun hlnull =>
      hlast l.edge hf hlnull (joins_of_joins_joins hj hjf)
    rw [Link.keyFor_of_named hnull, (h.keyed b hb l hl).key_eq hnamed]
    exact hnew l.edge hf

/-- When a new edge is linked, its link is put behind those of the bundle that joins its ends, or
else into a new bundle. -/
theorem forall_mem_link {p : Bundle → Prop}
    (hothers : ∀ b ∈ a, b.joins e.source e.target = false → p b)
    (hput : ∀ b ∈ a, b.joins e.source e.target = true →
      p { b with links := b.links ++ [⟨Link.keyFor b.links e.id, e⟩] })
    (hfirst : (∀ b ∈ a, b.joins e.source e.target = false) →
      p ⟨e.source, e.target, [⟨Link.keyFor [] e.id, e⟩]⟩) :
    ∀ c ∈ Adjacency.link e.id e a, p c := by
  intro c hc
  rcases (h.separate.mem_link_iff e.id e c).1 hc with ⟨hc, hnone⟩ | ⟨b, hb, hj, rfl⟩ | ⟨hnone, rfl⟩
  · exact hothers c hc hnone
  · rw [Link.put_of_new (h.keyFor_new hnew hlast hb hj)]
    exact hput b hb hj
  · exact hfirst hnone

theorem link (hends : e.Joins e.source e.target) :
    (Adjacency.link e.id e a).Charts (es ++ [e]) := by
  have hkeyed : ∀ ls, Link.Keyed ⟨Link.keyFor ls e.id, e⟩ := fun ls => ⟨ls, rfl⟩
  constructor
  case separate => exact h.separate.link e.id e
  case filled =>
    refine h.forall_mem_link hnew hlast (fun b hb _ => h.filled b hb) (fun b _ _ => ?_)
      fun _ => List.cons_ne_nil _ _
    exact List.append_ne_nil_of_right_ne_nil _ (List.cons_ne_nil _ _)
  case edges =>
    refine h.forall_mem_link hnew hlast (fun b hb hnone => ?_) (fun b hb hj => ?_) fun hnone => ?_
    · rw [Bundle.among_append, Bundle.among_cons_of_not_joins hnone, h.edges b hb]
      exact (List.append_nil _).symm
    · show (b.links ++ _).map (·.edge) = b.among (es ++ [e])
      rw [Bundle.among_append, Bundle.among_cons_of_joins hj, List.map_append, h.edges b hb]
      rfl
    · have hj : Bundle.joins ⟨e.source, e.target, [⟨Link.keyFor [] e.id, e⟩]⟩
          e.source e.target = true := Bool.and_eq_true_iff.2 hends
      rw [Bundle.among_append, Bundle.among_cons_of_joins hj, h.among_eq_nil hj hnone]
      rfl
  case keyed =>
    refine h.forall_mem_link hnew hlast (fun b hb _ => h.keyed b hb) (fun b hb _ => ?_)
      fun _ => List.forall_mem_singleton.2 (hkeyed [])
    exact List.forall_mem_append.2
      ⟨h.keyed b hb, List.forall_mem_singleton.2 (hkeyed b.links)⟩
  case apart =>
    refine h.forall_mem_link hnew hlast (fun b hb _ => h.apart b hb) (fun b hb hj => ?_)
      fun _ => List.pairwise_singleton _ _
    exact List.pairwise_append.2 ⟨h.apart b hb, List.pairwise_singleton _ _,
      fun l hl m hm => List.mem_singleton.1 hm ▸ h.keyFor_new hnew hlast hb hj l hl⟩
  case connected =>
    intro f hf
    have hconnects : (Adjacency.link e.id e a).Connects f.source f.target := by
      rw [connects_link_iff]
      rcases List.mem_append.1 hf with hf | hf
      · exact .inl (h.connected f hf)
      · exact .inr (List.mem_singleton.1 hf ▸ hends)
    exact hconnects

end Link

end Charts

/-! ### Unlinking an edge -/

namespace Charts

variable {before after : List Edge} (h : a.Charts (before ++ e :: after))

include h

theorem exists_divided {b : Bundle} (hb : b ∈ a) (hj : b.joins e.source e.target = true) :
    ∃ ls l ms, b.Divided before e after ls l ms := by
  have hlinks := h.edges b hb
  rw [Bundle.among_append, Bundle.among_cons_of_joins hj, List.map_eq_append_iff] at hlinks
  obtain ⟨ls, rest, hsplit, hbefore, hrest⟩ := hlinks
  obtain ⟨l, ms, rfl, hedge, hafter⟩ := List.map_eq_cons_iff.1 hrest
  exact ⟨ls, l, ms, hsplit, hedge, hbefore, hafter⟩

/-- An edge is unlinked by what takes its link out of its bundle. -/
theorem unlinkBy {remove : List Link → List Link}
    (hremove : ∀ b ∈ a, b.joins e.source e.target = true → ∀ ls l ms,
      b.Divided before e after ls l ms → remove b.links = ls ++ ms) :
    (Adjacency.unlinkBy remove e a).Charts (before ++ after) := by
  have hmem := h.separate.mem_unlinkBy_iff remove e
  have hleft : ∀ b ∈ a, b.joins e.source e.target = true →
      (remove b.links).Sublist b.links ∧
        (remove b.links).map (·.edge) = b.among (before ++ after) := by
    intro b hb hj
    obtain ⟨ls, l, ms, hdivided⟩ := h.exists_divided hb hj
    rw [hremove b hb hj ls l ms hdivided, hdivided.links, List.map_append, hdivided.before,
      hdivided.after]
    exact ⟨(List.sublist_cons_self l ms).append_left ls, (b.among_append before after).symm⟩
  constructor
  case separate => exact h.separate.unlinkBy remove e
  case filled =>
    intro c hc
    rcases (hmem c).1 hc with ⟨hc, -⟩ | ⟨b, -, -, -, hc⟩
    · exact h.filled c hc
    · exact hc
  case edges =>
    intro c hc
    rcases (hmem c).1 hc with ⟨hc, hnone⟩ | ⟨b, hb, hj, rfl, -⟩
    · rw [h.edges c hc, Bundle.among_append, Bundle.among_cons_of_not_joins hnone,
        Bundle.among_append]
    · exact (hleft b hb hj).2
  case keyed =>
    intro c hc l hl
    rcases (hmem c).1 hc with ⟨hc, -⟩ | ⟨b, hb, hj, rfl, -⟩
    · exact h.keyed c hc l hl
    · exact h.keyed b hb l ((hleft b hb hj).1.subset hl)
  case apart =>
    intro c hc
    rcases (hmem c).1 hc with ⟨hc, -⟩ | ⟨b, hb, hj, rfl, -⟩
    · exact h.apart c hc
    · exact (h.apart b hb).sublist (hleft b hb hj).1
  case connected =>
    intro f hf
    have hold := ((List.sublist_cons_self e after).append_left before).subset hf
    obtain ⟨b, hb, hjf⟩ := h.connected f hold
    by_cases hj : b.joins e.source e.target = true
    · -- the link of the other edge is still there, so that the bundle is
      have hlink : f ∈ (remove b.links).map (·.edge) :=
        (hleft b hb hj).2 ▸ List.mem_filter.2 ⟨hf, hjf⟩
      have hne : remove b.links ≠ [] := fun hnil => by
        rw [hnil] at hlink
        cases hlink
      exact ⟨_, (hmem _).2 (.inr ⟨b, hb, hj, rfl, hne⟩), hjf⟩
    · exact ⟨b, (hmem b).2 (.inl ⟨hb, eq_false_of_ne_true hj⟩), hjf⟩

/-- An edge whose identifier is found by its like is unlinked by it, also where it has none, if no
edge after it runs between the same nodes. -/
theorem unlink (hself : e.id.sameKey e.id = true)
    (hlast : e.id = .null → ∀ f ∈ after, ¬ f.Joins e.source e.target) :
    (Adjacency.unlink e a).Charts (before ++ after) := by
  refine h.unlinkBy fun b hb hj ls l ms hdivided => ?_
  have hkeyed := h.keyed b hb l (hdivided.links ▸ List.mem_append_right ls List.mem_cons_self)
  have hapart := h.apart b hb
  rw [hdivided.links] at hapart ⊢
  by_cases hnull : e.id = .null
  · have hnone : ms.map (·.edge) = [] := by
      rw [hdivided.after]
      exact List.filter_eq_nil_iff.2 fun f hf hjf =>
        hlast hnull f hf (joins_of_joins_joins hjf hj)
    rw [List.map_eq_nil_iff.1 hnone, hnull, List.append_nil]
    exact List.dropLast_concat
  · have hkey : l.key = e.id := hdivided.edge ▸ hkeyed.key_eq (hdivided.edge ▸ hnull)
    rw [← hkey] at hself hnull ⊢
    exact Link.remove_of_apart hapart hself hnull

/-- An edge with an elusive identifier is unlinked by its place among those edges with such ones
that run between the same nodes. -/
theorem unlink_elusive (helusive : e.id.elusive = true) :
    (Adjacency.unlinkBy (Link.removeElusive (before.countP fun f =>
      f.id.elusive && (f.source.sameKey e.source && f.target.sameKey e.target))) e a).Charts
      (before ++ after) := by
  refine h.unlinkBy fun b hb hj ls l ms hdivided => ?_
  have hkeyed : ∀ m ∈ ls ++ l :: ms, m.Keyed := hdivided.links ▸ h.keyed b hb
  have hl : l.key.elusive = true := by
    rw [(hkeyed l (List.mem_append_right ls List.mem_cons_self)).elusive_eq, hdivided.edge]
    exact helusive
  have hjoins : ∀ f : Edge, (f.source.sameKey e.source && f.target.sameKey e.target) =
      b.joins f.source f.target := fun f => by
    rw [Bool.eq_iff_iff, joins_iff_of_joins hj, Bool.and_eq_true]
    rfl
  have hcount : (before.countP fun f =>
      f.id.elusive && (f.source.sameKey e.source && f.target.sameKey e.target)) =
        ls.countP fun m => m.key.elusive := by
    calc before.countP (fun f =>
          f.id.elusive && (f.source.sameKey e.source && f.target.sameKey e.target))
        = before.countP fun f => f.id.elusive && b.joins f.source f.target :=
          List.countP_congr fun f _ => by rw [hjoins f]
      _ = (b.among before).countP fun f => f.id.elusive := (List.countP_filter ..).symm
      _ = ls.countP fun m => m.edge.id.elusive := by
          rw [← hdivided.before, List.countP_map]
          rfl
      _ = ls.countP fun m => m.key.elusive := List.countP_congr fun m hm => by
          rw [(hkeyed m (List.mem_append_left _ hm)).elusive_eq]
  rw [hcount, hdivided.links]
  exact Link.removeElusive_append ls hl

end Charts

end Adjacency

end PropertyGraph
