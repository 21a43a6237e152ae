import Mathlib.Data.Fin.SuccPred
import Mathlib.Data.List.Perm.Basic
import PropertyGraph.Proofs.Fact.Choices

/-!
# The order of keys

A pattern may be written in another order of keys: `query_perm` matches the solutions of the one
with those of the other, one to one and fact by fact.  What is picked is the same on both sides up
to order (`choices_perm`), and whether picks agree does not depend on their order
(`agreeing_perm_iff`).  Only which of several picks a variable is bound to may change, so that
values which are the same may stand for each other, such as 1 and 1.0.
-/

namespace PropertyGraph

/-! ### Lists that match up to order -/

/-- One list can be rearranged so that what stands at the same place in both is related. -/
def Rearranged {α β : Type} (R : α → β → Prop) (l : List α) (m : List β) : Prop :=
  ∃ l', l.Perm l' ∧ List.Forall₂ R l' m

namespace Rearranged

variable {α β : Type} {R : α → β → Prop}

theorem nil : Rearranged R [] [] := ⟨[], .refl _, .nil⟩

theorem append {l₁ l₂ : List α} {m₁ m₂ : List β} (h₁ : Rearranged R l₁ m₁)
    (h₂ : Rearranged R l₂ m₂) : Rearranged R (l₁ ++ l₂) (m₁ ++ m₂) := by
  obtain ⟨l₁', hperm₁, hrel₁⟩ := h₁
  obtain ⟨l₂', hperm₂, hrel₂⟩ := h₂
  exact ⟨l₁' ++ l₂', hperm₁.append hperm₂, List.rel_append hrel₁ hrel₂⟩

theorem flatMap {γ : Type} {xs : List γ} {f : γ → List α} {g : γ → List β}
    (h : ∀ x ∈ xs, Rearranged R (f x) (g x)) : Rearranged R (xs.flatMap f) (xs.flatMap g) := by
  induction xs with
  | nil => exact nil
  | cons x rest ih =>
    rw [List.forall_mem_cons] at h
    rw [List.flatMap_cons, List.flatMap_cons]
    exact h.1.append (ih h.2)

/-- Matching things stay matched when both are changed in a way that keeps the relation. -/
theorem map {γ δ : Type} {S : γ → δ → Prop} {f : α → γ} {g : β → δ} {l : List α} {m : List β}
    (h : Rearranged R l m) (hfg : ∀ x y, R x y → S (f x) (g y)) :
    Rearranged S (l.map f) (m.map g) := by
  obtain ⟨l', hperm, hrel⟩ := h
  refine ⟨l'.map f, hperm.map f, ?_⟩
  rw [List.forall₂_map_left_iff, List.forall₂_map_right_iff]
  exact hrel.imp fun x y hxy => hfg x y hxy

/-- What is known of the things in the first list may be added to the relation. -/
theorem and_left {P : α → Prop} {l : List α} {m : List β} (h : Rearranged R l m)
    (hP : ∀ x ∈ l, P x) : Rearranged (fun x y => P x ∧ R x y) l m := by
  obtain ⟨l', hperm, hrel⟩ := h
  exact ⟨l', hperm, (List.forall₂_and_left _ _).2 ⟨fun x hx => hP x (hperm.mem_iff.2 hx), hrel⟩⟩

theorem filter {p : α → Bool} {q : β → Bool} {l : List α} {m : List β} (h : Rearranged R l m)
    (hpq : ∀ x y, R x y → (p x = true ↔ q y = true)) :
    Rearranged R (l.filter p) (m.filter q) := by
  obtain ⟨l', hperm, hrel⟩ := h
  exact ⟨l'.filter p, hperm.filter p, List.rel_filter (fun x y hxy => hpq x y hxy) hrel⟩

/-- Two lists with the same images up to order match by their images. -/
theorem of_map_perm {γ : Type} {f : α → γ} {l m : List α} (h : (l.map f).Perm (m.map f)) :
    Rearranged (fun x y => f x = f y) l m := by
  have himages : List.Forall₂ (fun x z => f x = z) l (l.map f) :=
    List.forall₂_map_right_iff.2 (List.forall₂_same.2 fun _ _ => rfl)
  have hcomp : Relation.Comp List.Perm (List.Forall₂ fun x z => f x = z) l (m.map f) := by
    rw [← List.forall₂_comp_perm_eq_perm_comp_forall₂]
    exact ⟨l.map f, himages, h⟩
  obtain ⟨l', hperm, hrel⟩ := hcomp
  exact ⟨l', hperm, List.forall₂_map_right_iff.1 hrel⟩

open Classical in
/-- The places of two lists that match correspond to each other, one to one. -/
theorem exists_equiv {l : List α} {m : List β} (h : Rearranged R l m) :
    ∃ σ : Fin l.length ≃ Fin m.length, ∀ i, R (l.get i) (m.get (σ i)) := by
  obtain ⟨l', hperm, hrel⟩ := h
  let places : Fin l.length ≃ Fin l'.length :=
    ⟨hperm.idxBij, hperm.symm.idxBij, hperm.idxBij_rightInverse_idxBij_symm,
      hperm.idxBij_leftInverse_idxBij_symm⟩
  refine ⟨places.trans (finCongr hrel.length_eq), fun i => ?_⟩
  have hi : l'.get (places i) = l.get i := hperm.getElem_idxBij_eq_getElem i
  rw [← hi]
  exact hrel.get (places i).isLt _

end Rearranged

/-- Two solutions bind the same variables, each to values that are identical or the same. -/
structure Bindings.Alike (s t : Bindings) : Prop where
  names : ∀ name, name ∈ Record.keys s ↔ name ∈ Record.keys t
  values : ∀ name v w, Record.get? s name = some v → Record.get? t name = some w →
    v = w ∨ v.same w = true

namespace Pattern

/-! ### Picks in another order -/

/-- Whether picks agree does not depend on their order. -/
theorem agreeing_perm_iff {ps qs : List Pick} (hproper : ∀ p ∈ ps, p.value.proper = true)
    (h : ps.Perm qs) : Agreeing ps ↔ Agreeing qs := by
  have hforward : ∀ {ps qs : List Pick}, (∀ p ∈ ps, p.value.proper = true) → ps.Perm qs →
      Agreeing ps → Agreeing qs := by
    intro ps qs hproper h hagree
    have hboth : ps.Pairwise fun p q => p.name = q.name →
        p.value.same q.value = true ∧ q.value.same p.value = true := by
      refine List.Pairwise.imp_of_mem (fun hp hq hsame hname => ?_) hagree
      exact ⟨hsame hname, Value.same_symm (hproper _ hp) (hproper _ hq) (hsame hname)⟩
    have hother := (h.pairwise_iff fun hpq hname => (hpq hname.symm).symm).1 hboth
    exact hother.imp fun hpq hname => (hpq hname).1
  exact ⟨hforward hproper h, hforward (fun p hp => hproper p (h.mem_iff.2 hp)) h.symm⟩

theorem mem_keys_bound_iff (ps : List Pick) (name : String) :
    name ∈ Record.keys (bound ps) ↔ ∃ p ∈ ps, p.name = name := by
  rw [← not_iff_not, ← Record.get?_eq_none_iff, get?_bound]
  constructor
  · rintro hnone ⟨p, hp, rfl⟩
    have hsome := isSome_valueOf? hp
    rw [hnone] at hsome
    cases hsome
  · intro hnot
    cases hv : valueOf? ps name with
    | none => rfl
    | some v =>
      obtain ⟨p, hp, hname, -⟩ := exists_of_valueOf? hv
      exact absurd ⟨p, hp, hname⟩ hnot

/-- Picks that agree bind alike in whatever order they are made. -/
theorem alike_bound {ps qs : List Pick} (hproper : ∀ p ∈ ps, p.value.proper = true)
    (hagree : Agreeing ps) (h : ps.Perm qs) : Bindings.Alike (bound ps) (bound qs) := by
  constructor
  · intro name
    rw [mem_keys_bound_iff, mem_keys_bound_iff]
    exact exists_congr fun p => and_congr_left fun _ => h.mem_iff
  · intro name v w hv hw
    rw [get?_bound] at hv hw
    obtain ⟨p, hp, hpname, rfl⟩ := exists_of_valueOf? hv
    obtain ⟨q, hq, hqname, rfl⟩ := exists_of_valueOf? hw
    by_cases hpq : p = q
    · exact .inl (congrArg Pick.value hpq)
    · have hq' := h.mem_iff.2 hq
      exact .inr (hagree.same hproper hp hq' hpq (hpname.trans hqname.symm))

/-! ### Keys in another order -/

theorem met_eq_filterMap (fact : Fact) (pattern : Pattern) :
    met fact pattern = pattern.filterMap fun p =>
      match p.2 with
      | .variable name => (fact.get? p.1).map fun v => (name, v)
      | _ => none := by
  induction pattern with
  | nil => rfl
  | cons p rest ih =>
    obtain ⟨key, term⟩ := p
    rcases term with name | w | t
    · cases hkey : fact.get? key with
      | none => rw [met, hkey, ih, List.filterMap_cons, hkey]; rfl
      | some v => rw [met_variable rest hkey, ih, List.filterMap_cons, hkey]; rfl
    · exact ih
    · exact ih

theorem met_perm {pattern pattern' : Pattern} (h : pattern.Perm pattern') (fact : Fact) :
    (met fact pattern).Perm (met fact pattern') := by
  rw [met_eq_filterMap, met_eq_filterMap]
  exact h.filterMap _

/-- The solutions in one fact match those of the pattern in another order of keys. -/
theorem reference_rearranged {fact : Fact} (hfact : ∀ p ∈ fact, p.2.proper = true)
    {pattern pattern' : Pattern} (h : pattern.Perm pattern') :
    Rearranged Bindings.Alike (pattern.reference fact) (pattern'.reference fact) := by
  unfold reference
  rw [h.all_eq]
  split
  · have hproper : ∀ ps ∈ choices (met fact pattern), ∀ p ∈ ps, p.value.proper = true :=
      fun ps hps => proper_of_mem_choices (fun m hm => proper_of_mem_met hfact hm) hps
    -- choices match when they make the same picks, in whatever order; they then agree alike
    have hchoices : Rearranged (fun ps qs => (∀ p ∈ ps, p.value.proper = true) ∧
        Multiset.ofList ps = Multiset.ofList qs)
          (choices (met fact pattern)) (choices (met fact pattern')) :=
      (Rearranged.of_map_perm (choices_perm (met_perm h fact))).and_left hproper
    have hagreeing := hchoices.filter (p := fun ps => Agreeing ps) (q := fun ps => Agreeing ps)
      fun ps qs hpq => by
        rw [decide_eq_true_iff, decide_eq_true_iff]
        exact agreeing_perm_iff hpq.1 (Multiset.coe_eq_coe.1 hpq.2)
    have hknown := hagreeing.and_left (P := Agreeing) fun ps hps =>
      of_decide_eq_true (List.mem_filter.1 hps).2
    exact hknown.map fun ps qs hpq =>
      alike_bound hpq.2.1 hpq.1 (Multiset.coe_eq_coe.1 hpq.2.2)
  · exact .nil

end Pattern

namespace FactBase

/-- The solutions of a query, each with the place of the fact that it comes from. -/
def located (b : FactBase) (pattern : Pattern) : List (Nat × Bindings) :=
  b.facts.zipIdx.flatMap fun p => (pattern.solutions p.1).map fun s => (p.2, s)

theorem map_snd_located (b : FactBase) (pattern : Pattern) :
    (b.located pattern).map (·.2) = b.query pattern := by
  have hfacts : b.query pattern = (b.facts.zipIdx.map Prod.fst).flatMap pattern.solutions := by
    rw [List.zipIdx_map_fst]
    rfl
  rw [hfacts, List.flatMap_map, located, List.map_flatMap]
  simp [List.map_map, Function.comp_def]

theorem located_rearranged {facts : List Fact} {pattern pattern' : Pattern}
    (h : pattern.Perm pattern') (hfacts : ∀ fact ∈ facts, ∀ p ∈ fact, p.2.proper = true) :
    Rearranged (fun s t => s.1 = t.1 ∧ Bindings.Alike s.2 t.2)
      (located ⟨facts⟩ pattern) (located ⟨facts⟩ pattern') := by
  refine .flatMap fun p hp => ?_
  have hfact := hfacts p.1 (List.fst_mem_of_mem_zipIdx hp)
  rw [Pattern.solutions_eq_reference hfact, Pattern.solutions_eq_reference hfact]
  exact (Pattern.reference_rearranged hfact h).map fun s t hst => ⟨rfl, hst⟩

/-- A query gives the same solutions in whatever order the keys of its pattern are written: each
solution of the one order corresponds to just one of the other, which comes from the same fact and
binds alike. -/
theorem query_perm (facts : List Fact) {pattern pattern' : Pattern} (h : pattern.Perm pattern')
    (hfacts : ∀ fact ∈ facts, ∀ p ∈ fact, p.2.proper = true) :
    (located ⟨facts⟩ pattern).map (·.2) = query ⟨facts⟩ pattern ∧
      (located ⟨facts⟩ pattern').map (·.2) = query ⟨facts⟩ pattern' ∧
      ∃ σ : Fin (located ⟨facts⟩ pattern).length ≃ Fin (located ⟨facts⟩ pattern').length,
        ∀ i, ((located ⟨facts⟩ pattern).get i).1 = ((located ⟨facts⟩ pattern').get (σ i)).1 ∧
          Bindings.Alike ((located ⟨facts⟩ pattern).get i).2
            ((located ⟨facts⟩ pattern').get (σ i)).2 := by
  exact ⟨map_snd_located _ _, map_snd_located _ _, (located_rearranged h hfacts).exists_equiv⟩

/-- Levels that are given once and listed again, a level that is no number among them. -/
def levels : List Fact := [
  [(.text "level", .list [.int 2, .int 2]), (.text "listed", .list [.float 2, .int 3])],
  [(.text "level", .float (0 / 0)), (.text "listed", .list [.float (0 / 0)])],
  [(.text "level", .int 1), (.text "listed", .tuple [.float 1, .bool true, .float 1])]]

/-- The levels that are listed. -/
def relisted : Pattern := [("level", .variable "x"), ("listed", .variable "x")]

/-- Each order has two solutions from the first fact, which bind 2.0 in the one and 2 in the
other, and two from the last. -/
theorem query_relisted_perm :
    relisted.Perm relisted.reverse ∧ (∀ fact ∈ levels, ∀ p ∈ fact, p.2.proper = true) ∧
      (query ⟨levels⟩ relisted).length = 4 ∧
      ((located ⟨levels⟩ relisted).map (·.2) = query ⟨levels⟩ relisted ∧
        (located ⟨levels⟩ relisted.reverse).map (·.2) = query ⟨levels⟩ relisted.reverse ∧
        ∃ σ : Fin (located ⟨levels⟩ relisted).length ≃
            Fin (located ⟨levels⟩ relisted.reverse).length,
          ∀ i, ((located ⟨levels⟩ relisted).get i).1 =
              ((located ⟨levels⟩ relisted.reverse).get (σ i)).1 ∧
            Bindings.Alike ((located ⟨levels⟩ relisted).get i).2
              ((located ⟨levels⟩ relisted.reverse).get (σ i)).2) :=
  have hperm : relisted.Perm relisted.reverse := (List.reverse_perm relisted).symm
  have hproper : ∀ fact ∈ levels, ∀ p ∈ fact, p.2.proper = true := by decide +kernel
  ⟨hperm, hproper, by decide +kernel, query_perm levels hperm hproper⟩

end FactBase

end PropertyGraph
