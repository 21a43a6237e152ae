import Mathlib.Algebra.Order.Group.Unbundled.Int
import Mathlib.Data.List.Basic
import PropertyGraph.Embedding.Vector
import PropertyGraph.Proofs.Number.Order

/-!
# The highest scores

Scores are sorted by rank (`notAfter_iff`), and those of one rank keep their order, so that an index
stands where its rank and then the index itself put it (`ascending_pairwise`).  Turned around, that
list begins with the best indices, however many are taken (`best_take`).

A NaN ranks above all numbers, so that NaNs are taken first; no higher score is passed over by that,
since a NaN is neither higher nor lower than a number.
-/

namespace PropertyGraph.Embedding

/-! ### The order of the indices -/

theorem notAfter_iff (x y : Float) : notAfter x y = true ↔ Rank.ofFloat x ≤ Rank.ofFloat y := by
  cases hy : y.isNaN with
  | true =>
    refine iff_of_true ?_ (Rank.ofFloat_le_of_isNaN x hy)
    rw [notAfter, hy, Bool.true_or]
  | false =>
    cases hx : x.isNaN with
    | true =>
      refine iff_of_false ?_ (Rank.ofFloat_lt_of_isNaN hy hx).not_ge
      rw [notAfter, hx, hy]
      exact Bool.false_ne_true
    | false =>
      rw [notAfter, hx, hy, Bool.false_or, Bool.not_false, Bool.true_and, Bool.not_eq_true',
        decide_eq_false_iff_not, Rank.lt_iff, ← not_lt]
      simp only [hx, hy, true_and]

/-- A numbered entry sorts by its rank and then by its number. -/
theorem zipIdxLE_iff (p q : (Float × ℕ) × ℕ) :
    List.zipIdxLE (fun p q => notAfter p.1 q.1) p q = true ↔
      toLex (Rank.ofFloat p.1.1, p.2) ≤ toLex (Rank.ofFloat q.1.1, q.2) := by
  simp only [List.zipIdxLE, notAfter_iff, Prod.Lex.toLex_le_toLex]
  rcases lt_trichotomy (Rank.ofFloat p.1.1) (Rank.ofFloat q.1.1) with h | h | h
  · simp [h, h.le, h.not_ge]
  · simp [h]
  · simp [h.not_ge, h.not_gt, h.ne']

/-- Numbering the entries of a numbered list once more gives the same numbers. -/
theorem mem_zipIdx_zipIdx {scores : List Float} {p : (Float × ℕ) × ℕ}
    (hp : p ∈ scores.zipIdx.zipIdx) : scores[p.2]? = some p.1.1 ∧ p.1.2 = p.2 := by
  have h := List.mem_zipIdx_iff_getElem?.1 hp
  rw [List.getElem?_zipIdx, Option.map_eq_some_iff] at h
  obtain ⟨x, hx, hpair⟩ := h
  rw [← hpair, Nat.zero_add]
  exact ⟨hx, rfl⟩

/-- In ascending order, an index comes no later than another one: its score ranks lower, or as high
and it is no greater. -/
def NoLater (scores : List Float) (i j : ℕ) : Prop :=
  ∀ x ∈ scores[i]?, ∀ y ∈ scores[j]?, toLex (Rank.ofFloat x, i) ≤ toLex (Rank.ofFloat y, j)

theorem ascending_pairwise (scores : List Float) :
    (ascending scores).Pairwise (NoLater scores) := by
  have hsorted : (scores.zipIdx.zipIdx.mergeSort
      (List.zipIdxLE fun p q => notAfter p.1 q.1)).Pairwise fun p q =>
        List.zipIdxLE (fun p q => notAfter p.1 q.1) p q = true := by
    refine List.pairwise_mergeSort (fun p q r hpq hqr => ?_) (fun p q => ?_) _
    · rw [zipIdxLE_iff] at hpq hqr ⊢
      exact hpq.trans hqr
    · rw [Bool.or_eq_true, zipIdxLE_iff, zipIdxLE_iff]
      exact le_total _ _
  -- the sort is stable: it is the sort of the entries with their numbers
  rw [ascending, ← List.mergeSort_zipIdx, List.map_map, List.pairwise_map]
  refine hsorted.imp_of_mem ?_
  intro p q hp hq hpq x hx y hy
  obtain ⟨hx', hi⟩ := mem_zipIdx_zipIdx (List.mem_mergeSort.1 hp)
  obtain ⟨hy', hj⟩ := mem_zipIdx_zipIdx (List.mem_mergeSort.1 hq)
  simp only [Function.comp_apply, hi, hj] at hx hy ⊢
  obtain rfl : p.1.1 = x := Option.some.inj (hx'.symm.trans hx)
  obtain rfl : q.1.1 = y := Option.some.inj (hy'.symm.trans hy)
  exact (zipIdxLE_iff p q).1 hpq

section Indices

variable {scores : List Float} {i j : ℕ}

theorem NoLater.le (h : NoLater scores i j) (hi : i < scores.length) (hj : j < scores.length) :
    toLex (Rank.ofFloat scores[i], i) ≤ toLex (Rank.ofFloat scores[j], j) :=
  h _ (List.getElem?_eq_getElem hi) _ (List.getElem?_eq_getElem hj)

/-- No score is less than one that comes no later. -/
theorem NoLater.not_lt (h : NoLater scores j i) (hi : i < scores.length) (hj : j < scores.length) :
    ¬ scores[i] < scores[j] := by
  intro hlt
  have hrank := (Rank.lt_iff.1 hlt).2.2
  exact (Prod.Lex.toLex_lt_toLex.2 (.inl hrank)).not_ge (h.le hj hi)

theorem noLater_self (scores : List Float) (i : ℕ) : NoLater scores i i := by
  intro x hx y hy
  rw [Option.some.inj (hx.symm.trans hy)]

/-- Of equal scores, the one at the greater index comes later. -/
theorem NoLater.not_of_beq (hi : i < scores.length) (hj : j < scores.length)
    (heq : (scores[i] == scores[j]) = true) (hij : i < j) : ¬ NoLater scores j i := by
  intro h
  have hrank := (Rank.beq_iff.1 heq).2.2
  exact (Prod.Lex.toLex_lt_toLex.2 (.inr ⟨hrank, hij⟩)).not_ge (h.le hj hi)

/-- A NaN comes later than a number. -/
theorem NoLater.not_of_isNaN (hi : i < scores.length) (hj : j < scores.length)
    (hnum : scores[i].isNaN = false) (hnan : scores[j].isNaN = true) : ¬ NoLater scores j i := by
  intro h
  have hrank := Rank.ofFloat_lt_of_isNaN hnum hnan
  exact (Prod.Lex.toLex_lt_toLex.2 (.inl hrank)).not_ge (h.le hj hi)

end Indices

/-! ### The best indices -/

/-- Some indices of scores are the best ones there are, in descending order. -/
structure Best (scores : List Float) (best : List ℕ) : Prop where
  nodup : best.Nodup
  valid : ∀ i ∈ best, i < scores.length
  /-- No score is less than one that is taken later. -/
  descending : ∀ i j (hi : i < scores.length) (hj : j < scores.length),
    [i, j].Sublist best → ¬ scores[i] < scores[j]
  /-- No score is less than one that is left out. -/
  highest : ∀ i j (hi : i < scores.length) (hj : j < scores.length),
    i ∈ best → j ∉ best → ¬ scores[i] < scores[j]
  /-- Before a score, those that are equal and have a greater index are taken. -/
  ties : ∀ i j (hi : i < scores.length) (hj : j < scores.length),
    (scores[i] == scores[j]) = true → i < j → i ∈ best → [j, i].Sublist best
  /-- Before a number, all NaNs are taken. -/
  nans : ∀ i j (hi : i < scores.length) (hj : j < scores.length),
    scores[i].isNaN = false → scores[j].isNaN = true → i ∈ best → [j, i].Sublist best

section Taken

variable {scores : List Float} {n i j : ℕ}

theorem length_ascending (scores : List Float) : (ascending scores).length = scores.length := by
  rw [(ascending_perm scores).length_eq, List.length_range]

/-- Turned around, the indices are the same ones. -/
theorem reverse_ascending_perm (scores : List Float) :
    (ascending scores).reverse.Perm (List.range scores.length) :=
  (List.reverse_perm _).trans (ascending_perm scores)

/-- What is taken stands in order, and what is left comes no later in ascending order. -/
theorem take_order (scores : List Float) (n : ℕ) :
    ((ascending scores).reverse.take n).Pairwise (fun i j => NoLater scores j i) ∧
      ∀ i ∈ (ascending scores).reverse.take n, ∀ j ∈ (ascending scores).reverse.drop n,
        NoLater scores j i := by
  have hall : (ascending scores).reverse.Pairwise fun i j => NoLater scores j i :=
    List.pairwise_reverse.2 (ascending_pairwise scores)
  rw [← List.take_append_drop n (ascending scores).reverse, List.pairwise_append] at hall
  exact ⟨hall.1, hall.2.2⟩

theorem mem_drop_of_not_mem_take (hj : j < scores.length)
    (hnot : j ∉ (ascending scores).reverse.take n) : j ∈ (ascending scores).reverse.drop n := by
  have hmem := (reverse_ascending_perm scores).mem_iff.2 (List.mem_range.2 hj)
  rw [← List.take_append_drop n (ascending scores).reverse, List.mem_append] at hmem
  exact hmem.resolve_left hnot

/-- One of two members of a list stands before the other. -/
theorem pair_sublist_or {α : Type} {l : List α} {a b : α} (ha : a ∈ l) (hb : b ∈ l) (hab : a ≠ b) :
    [a, b].Sublist l ∨ [b, a].Sublist l := by
  obtain ⟨s, t, rfl⟩ := List.append_of_mem ha
  rcases List.mem_append.1 hb with hb | hb
  · exact .inr ((List.singleton_sublist.2 hb).append (List.singleton_sublist.2 List.mem_cons_self))
  · have hb : b ∈ t := (List.mem_cons.1 hb).resolve_left hab.symm
    exact .inl (((List.singleton_sublist.2 hb).cons_cons a).trans (List.sublist_append_right s _))

/-- Before an index that is taken, those are taken that come later in ascending order. -/
theorem pair_sublist_take (hj : j < scores.length) (hi : i ∈ (ascending scores).reverse.take n)
    (hlater : ¬ NoLater scores j i) : [j, i].Sublist ((ascending scores).reverse.take n) := by
  obtain ⟨htaken, hleft⟩ := take_order scores n
  have hne : j ≠ i := by
    rintro rfl
    exact hlater (noLater_self scores j)
  have hmem : j ∈ (ascending scores).reverse.take n := by
    by_contra hnot
    exact hlater (hleft i hi j (mem_drop_of_not_mem_take hj hnot))
  refine (pair_sublist_or hmem hi hne).resolve_right fun h => hlater ?_
  exact List.pairwise_iff_forall_sublist.1 htaken h

/-- The first of the indices in descending order are the best ones. -/
theorem best_take (scores : List Float) (n : ℕ) :
    Best scores ((ascending scores).reverse.take n) := by
  have hperm := reverse_ascending_perm scores
  obtain ⟨htaken, hleft⟩ := take_order scores n
  constructor
  case nodup => exact (hperm.nodup_iff.2 List.nodup_range).sublist (List.take_sublist n _)
  case valid => exact fun i hi => List.mem_range.1 (hperm.mem_iff.1 (List.mem_of_mem_take hi))
  case descending =>
    intro i j hi hj hij
    exact (List.pairwise_iff_forall_sublist.1 htaken hij).not_lt hi hj
  case highest =>
    intro i j hi hj hmem hnot
    exact (hleft i hmem j (mem_drop_of_not_mem_take hj hnot)).not_lt hi hj
  case ties =>
    intro i j hi hj heq hij hmem
    exact pair_sublist_take hj hmem (NoLater.not_of_beq hi hj heq hij)
  case nans =>
    intro i j hi hj hnum hnan hmem
    exact pair_sublist_take hj hmem (NoLater.not_of_isNaN hi hj hnum hnan)

end Taken

/-! ### As many as are asked for -/

theorem length_topK (scores : List Float) (k : ℤ) :
    ((topK scores k).length : ℤ) =
      if 0 ≤ k then min k scores.length else max (scores.length - |k|) 0 := by
  rw [topK, slice, List.length_take, List.length_reverse, length_ascending, Int.abs_eq_natAbs]
  split <;> omega

/-- Fewer indices are the first ones of more. -/
theorem topK_grows {k k' : ℤ} (hk : 0 ≤ k) (h : k ≤ k') (scores : List Float) :
    topK scores k <+: topK scores k' := by
  rw [topK, topK, slice, slice, if_pos hk, if_pos (hk.trans h)]
  exact List.take_prefix_take_left (Int.toNat_le_toNat h)

/-- The indices that are picked are the best ones: as many as are asked for, where there are so
many, or all but as many as are to be left off; and to ask for more adds to them at the end. -/
theorem topK_best (scores : List Float) (k : ℤ) :
    Best scores (topK scores k) ∧
      ((topK scores k).length : ℤ) =
        (if 0 ≤ k then min k scores.length else max (scores.length - |k|) 0) ∧
      ∀ k', 0 ≤ k → k ≤ k' → topK scores k <+: topK scores k' :=
  ⟨best_take scores _, length_topK scores k, fun _ hk h => topK_grows hk h scores⟩

end PropertyGraph.Embedding
