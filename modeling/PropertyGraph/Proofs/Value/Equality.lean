import Mathlib.Data.List.Perm.Subperm
import PropertyGraph.Value

/-!
# Laws of equality

Equality of values is symmetric and transitive on *proper* values: those whose records and mappings
give no name, and no key, twice.  A NaN equals nothing, not even itself, so that there is no more to
be had.  Each law for a mapping needs both laws for the values in it; they are proven together, by
induction on a bound for the size of the values.
-/

namespace PropertyGraph

/-! ### Numbers -/

namespace Exact

theorem powerOfTwo_pos (e : Int) : 0 < powerOfTwo e := by
  have hpos : 0 < 2 ^ e.toNat := Nat.two_pow_pos _
  simp only [powerOfTwo, Nat.pow_eq, Int.ofNat_eq_natCast]
  omega

theorem powerOfTwo_sub {low mid high : Int} (h : low ≤ mid) (h' : mid ≤ high) :
    powerOfTwo (high - low) = powerOfTwo (high - mid) * powerOfTwo (mid - low) := by
  have hexp : (high - low).toNat = (high - mid).toNat + (mid - low).toNat := by omega
  simp only [powerOfTwo, Nat.pow_eq, Int.ofNat_eq_natCast, hexp, Nat.pow_add, Int.natCast_mul]

theorem scaled_eq {m e low mid : Int} (h : low ≤ mid) (h' : mid ≤ e) :
    scaled m e low = scaled m e mid * powerOfTwo (mid - low) := by
  rw [scaled, scaled, powerOfTwo_sub h h', Int.mul_assoc]

/-- Two finite numbers may be compared over any exponent that is low enough. -/
theorem same_dyadic_iff {m e n f low : Int} (he : low ≤ e) (hf : low ≤ f) :
    same (.dyadic m e) (.dyadic n f) = true ↔ scaled m e low = scaled n f low := by
  have hlow : low ≤ min e f := by omega
  have hsame : same (.dyadic m e) (.dyadic n f) = true ↔
      scaled m e (min e f) = scaled n f (min e f) := by
    simp [same, compare]
  rw [hsame, scaled_eq hlow (Int.min_le_left e f), scaled_eq hlow (Int.min_le_right e f)]
  exact (Int.mul_eq_mul_right_iff (Int.ne_of_gt (powerOfTwo_pos _))).symm

theorem less_dyadic_iff {m e n f low : Int} (he : low ≤ e) (hf : low ≤ f) :
    less (.dyadic m e) (.dyadic n f) = true ↔ scaled m e low < scaled n f low := by
  have hlow : low ≤ min e f := by omega
  have hless : less (.dyadic m e) (.dyadic n f) = true ↔
      scaled m e (min e f) < scaled n f (min e f) := by
    simp [less, compare, Int.compare_eq_lt]
  rw [hless, scaled_eq hlow (Int.min_le_left e f), scaled_eq hlow (Int.min_le_right e f)]
  exact (Int.mul_lt_mul_right (powerOfTwo_pos _)).symm

/-- Only finite numbers, and infinite ones of one sign, are equal. -/
theorem cases_of_same {a b : Exact} (h : a.same b = true) :
    (∃ m e n f, a = .dyadic m e ∧ b = .dyadic n f) ∨
      ∃ negative, a = .infinite negative ∧ b = .infinite negative := by
  cases a with
  | dyadic m e =>
    cases b with
    | dyadic n f => exact .inl ⟨m, e, n, f, rfl, rfl⟩
    | infinite negative => cases negative <;> cases h
    | nan => cases h
  | infinite negative =>
    cases b with
    | dyadic n f => cases negative <;> cases h
    | infinite negative' =>
      cases negative <;> cases negative' <;> first | exact .inr ⟨_, rfl, rfl⟩ | cases h
    | nan => cases h
  | nan => cases h

theorem same_symm {a b : Exact} (h : a.same b = true) : b.same a = true := by
  obtain ⟨m, e, n, f, rfl, rfl⟩ | ⟨negative, rfl, rfl⟩ := cases_of_same h
  · rw [same_dyadic_iff (Int.min_le_left e f) (Int.min_le_right e f)] at h
    exact (same_dyadic_iff (Int.min_le_right e f) (Int.min_le_left e f)).2 h.symm
  · exact h

theorem same_trans {a b c : Exact} (h : a.same b = true) (h' : b.same c = true) :
    a.same c = true := by
  obtain ⟨m, e, n, f, rfl, rfl⟩ | ⟨negative, rfl, rfl⟩ := cases_of_same h
  · obtain ⟨_, _, k, d, hb, rfl⟩ | ⟨negative, hb, -⟩ := cases_of_same h'
    · cases hb
      -- one exponent that is low enough for all three
      have he : min e (min f d) ≤ e := by omega
      have hf : min e (min f d) ≤ f := by omega
      have hd : min e (min f d) ≤ d := by omega
      rw [same_dyadic_iff he hf] at h
      rw [same_dyadic_iff hf hd] at h'
      exact (same_dyadic_iff he hd).2 (h.trans h')
    · cases hb
  · exact h'

/-- What is no higher than a number lies below whatever that one lies below. -/
theorem less_of_le_of_less {a b c : Exact} (h : a.less b = true ∨ a.same b = true)
    (h' : b.less c = true) : a.less c = true := by
  cases b with
  | nan => cases c <;> cases h'
  | infinite negative =>
    cases negative
    · cases c with
      | infinite negative => cases negative <;> cases h'
      | _ => cases h'
    · -- only the lowest number is as low as that
      cases a with
      | infinite negative =>
        cases negative
        · rcases h with h | h <;> cases h
        · exact h'
      | _ => rcases h with h | h <;> cases h
  | dyadic n f =>
    cases a with
    | nan => rcases h with h | h <;> cases h
    | infinite negative =>
      cases negative
      · rcases h with h | h <;> cases h
      · cases c with
        | nan => cases h'
        | infinite negative =>
          cases negative
          · rfl
          · cases h'
        | dyadic k d => rfl
    | dyadic m e =>
      cases c with
      | nan => cases h'
      | infinite negative => exact h'
      | dyadic k d =>
        -- one exponent that is low enough for all three
        have he : min e (min f d) ≤ e := by omega
        have hf : min e (min f d) ≤ f := by omega
        have hd : min e (min f d) ≤ d := by omega
        rw [less_dyadic_iff he hf, same_dyadic_iff he hf] at h
        rw [less_dyadic_iff hf hd] at h'
        rw [less_dyadic_iff he hd]
        omega

end Exact

/-! ### Matching -/

/-- If everything in a list is matched in one that is no longer, and no two things are matched to
one, then everything in the other list is matched as well. -/
theorem exists_of_matched {α β : Type} [Nonempty β] {l : List α} {m : List β} {R : α → β → Prop}
    (hlen : m.length ≤ l.length) (hmatch : ∀ x ∈ l, ∃ y ∈ m, R x y)
    (hapart : l.Pairwise fun x x' => ∀ y ∈ m, R x y → ¬ R x' y) : ∀ y ∈ m, ∃ x ∈ l, R x y := by
  choose! f hf hR using hmatch
  have hnodup : (l.map f).Nodup := by
    refine List.pairwise_map.2 (hapart.imp_of_mem ?_)
    intro x x' hx hx' hxx' heq
    exact hxx' (f x) (hf x hx) (hR x hx) (heq ▸ hR x' hx')
  have hsub : l.map f ⊆ m := by
    intro y hy
    obtain ⟨x, hx, rfl⟩ := List.mem_map.1 hy
    exact hf x hx
  have hperm : (l.map f).Perm m :=
    (List.subperm_of_subset hnodup hsub).perm_of_length_le (by rwa [List.length_map])
  intro y hy
  obtain ⟨x, hx, rfl⟩ := List.mem_map.1 (hperm.symm.subset hy)
  exact ⟨x, hx, hR x hx⟩

namespace Value

/-! ### Numbers as values -/

theorem sameNumber_iff (a b : Value) :
    a.sameNumber b = true ↔ ∃ x y, a.number? = some x ∧ b.number? = some y ∧ x.same y = true := by
  unfold sameNumber
  cases a.number? <;> cases b.number? <;> simp

theorem sameNumber_symm {a b : Value} (h : a.sameNumber b = true) : b.sameNumber a = true := by
  obtain ⟨x, y, hx, hy, hxy⟩ := (sameNumber_iff a b).1 h
  exact (sameNumber_iff b a).2 ⟨y, x, hy, hx, Exact.same_symm hxy⟩

theorem sameNumber_trans {a b c : Value} (h : a.sameNumber b = true) (h' : b.sameNumber c = true) :
    a.sameNumber c = true := by
  obtain ⟨x, y, hx, hy, hxy⟩ := (sameNumber_iff a b).1 h
  obtain ⟨y', z, hy', hz, hyz⟩ := (sameNumber_iff b c).1 h'
  obtain rfl := Option.some.inj (hy.symm.trans hy')
  exact (sameNumber_iff a c).2 ⟨x, z, hx, hz, Exact.same_trans hxy hyz⟩

/-- In what ways two values can be equal. -/
inductive Alike : Value → Value → Prop
  | number {a b : Value} : a.sameNumber b = true → Alike a b
  | atom {a : Value} : a.eqv a = true → Alike a a
  | moment {m n : Moment} : m.key = n.key → Alike (.moment m) (.moment n)
  | list {xs ys : List Value} : eqvItems xs ys = true → Alike (.list xs) (.list ys)
  | tuple {xs ys : List Value} : eqvItems xs ys = true → Alike (.tuple xs) (.tuple ys)
  | record {fs gs : List (String × Value)} :
    fs.length = gs.length → eqvFields fs gs = true → Alike (.record fs) (.record gs)
  | mapping {fs gs : List (Value × Value)} :
    fs.length = gs.length → eqvMapping fs gs = true → Alike (.mapping fs) (.mapping gs)

theorem eqv_of_sameNumber {a b : Value} (h : a.sameNumber b = true) : a.eqv b = true := by
  cases a with
  | bool | int | float => simpa only [eqv] using h
  | _ => simp [sameNumber, number?] at h

theorem Alike.eqv {a b : Value} (h : Alike a b) : a.eqv b = true := by
  cases h with
  | number h => exact eqv_of_sameNumber h
  | atom h => exact h
  | list h | tuple h => simpa only [Value.eqv] using h
  | moment h => simpa only [Value.eqv, decide_eq_true_eq] using h
  | record hlen h | mapping hlen h =>
    simp only [Value.eqv, Bool.and_eq_true, beq_iff_eq]
    exact ⟨hlen, h⟩

theorem alike_of_eqv {a b : Value} (h : a.eqv b = true) : Alike a b := by
  cases a with
  | bool | int | float => exact .number (by simpa only [eqv] using h)
  | null =>
    cases b with
    | null => exact .atom h
    | _ => simp only [eqv, Bool.false_eq_true] at h
  | text s =>
    obtain rfl := (eqv_text_iff s b).1 h
    exact .atom h
  | points ps =>
    cases b with
    | points qs =>
      obtain rfl : ps = qs := by simpa only [eqv, beq_iff_eq] using h
      exact .atom h
    | _ => simp only [eqv, Bool.false_eq_true] at h
  | bytes s =>
    cases b with
    | bytes t =>
      obtain rfl : s = t := by simpa only [eqv, beq_iff_eq] using h
      exact .atom h
    | _ => simp only [eqv, Bool.false_eq_true] at h
  | moment m =>
    cases b with
    | moment n => exact .moment (by simpa only [eqv, decide_eq_true_eq] using h)
    | _ => simp only [eqv, Bool.false_eq_true] at h
  | list xs =>
    cases b with
    | list ys => exact .list (by simpa only [eqv] using h)
    | _ => simp only [eqv, Bool.false_eq_true] at h
  | tuple xs =>
    cases b with
    | tuple ys => exact .tuple (by simpa only [eqv] using h)
    | _ => simp only [eqv, Bool.false_eq_true] at h
  | record fs =>
    cases b with
    | record gs =>
      simp only [eqv, Bool.and_eq_true, beq_iff_eq] at h
      exact .record h.1 h.2
    | _ => simp only [eqv, Bool.false_eq_true] at h
  | mapping fs =>
    cases b with
    | mapping gs =>
      simp only [eqv, Bool.and_eq_true, beq_iff_eq] at h
      exact .mapping h.1 h.2
    | _ => simp only [eqv, Bool.false_eq_true] at h

/-! ### Parts -/

theorem eqvItems_iff (vs ws : List Value) :
    eqvItems vs ws = true ↔ List.Forall₂ (fun v w => v.eqv w = true) vs ws := by
  induction vs generalizing ws with
  | nil => cases ws <;> simp [eqvItems]
  | cons v vs ih => cases ws <;> simp [eqvItems, ih]

theorem eqvFields_iff (fs gs : List (String × Value)) :
    eqvFields fs gs = true ↔ ∀ p ∈ fs, ∃ w, gs.lookup p.1 = some w ∧ p.2.eqv w = true := by
  induction fs with
  | nil => simp [eqvFields]
  | cons p rest ih =>
    rw [eqvFields, Bool.and_eq_true, ih, List.forall_mem_cons]
    refine and_congr_left fun _ => ?_
    cases gs.lookup p.1 <;> simp

theorem eqvMapping_iff (fs gs : List (Value × Value)) :
    eqvMapping fs gs = true ↔
      ∀ p ∈ fs, ∃ q, gs.find? (fun q => p.1.eqv q.1) = some q ∧ p.2.eqv q.2 = true := by
  induction fs with
  | nil => simp [eqvMapping]
  | cons p rest ih =>
    rw [eqvMapping, Bool.and_eq_true, ih, List.forall_mem_cons]
    refine and_congr_left fun _ => ?_
    cases gs.find? fun q => p.1.eqv q.1 <;> simp

/-! ### Proper values -/

mutual

/-- Whether no record in a value repeats a name, and no mapping a key. -/
def proper : Value → Bool
  | .list xs | .tuple xs => properItems xs
  | .record fs => properFields fs
  | .mapping fs => properMapping fs
  | _ => true

/-- Whether all values are proper. -/
def properItems : List Value → Bool
  | [] => true
  | v :: vs => proper v && properItems vs

/-- Whether all values are proper and no name is repeated. -/
def properFields : List (String × Value) → Bool
  | [] => true
  | (k, v) :: rest => !(rest.any fun p => k == p.1) && proper v && properFields rest

/-- Whether all keys and values are proper and no key is repeated. -/
def properMapping : List (Value × Value) → Bool
  | [] => true
  | (k, v) :: rest =>
    !(rest.any fun p => eqv k p.1) && proper k && proper v && properMapping rest

end

theorem properItems_iff (vs : List Value) :
    properItems vs = true ↔ ∀ v ∈ vs, v.proper = true := by
  induction vs with
  | nil => simp [properItems]
  | cons v vs ih => rw [properItems, Bool.and_eq_true, ih, List.forall_mem_cons]

theorem properFields_iff (fs : List (String × Value)) :
    properFields fs = true ↔
      (∀ p ∈ fs, p.2.proper = true) ∧ fs.Pairwise fun p q => p.1 ≠ q.1 := by
  induction fs with
  | nil => simp [properFields]
  | cons p rest ih =>
    rw [properFields, Bool.and_eq_true, Bool.and_eq_true, ih, List.forall_mem_cons,
      List.pairwise_cons]
    simp only [Bool.not_eq_true', List.any_eq_false, beq_iff_eq]
    tauto

theorem properMapping_iff (fs : List (Value × Value)) :
    properMapping fs = true ↔
      (∀ p ∈ fs, p.1.proper = true ∧ p.2.proper = true) ∧
        fs.Pairwise fun p q => ¬ p.1.eqv q.1 = true := by
  induction fs with
  | nil => simp [properMapping]
  | cons p rest ih =>
    rw [properMapping, Bool.and_eq_true, Bool.and_eq_true, Bool.and_eq_true, ih,
      List.forall_mem_cons, List.pairwise_cons]
    simp only [Bool.not_eq_true', List.any_eq_false]
    tauto

/-- The members of a proper value are proper. -/
theorem proper_of_mem_items? {v : Value} (hv : v.proper = true) {items : List Value}
    (h : v.items? = some items) : ∀ item ∈ items, item.proper = true := by
  cases v with
  | list xs | tuple xs =>
    obtain rfl := Option.some.inj h
    exact (properItems_iff xs).1 (by simpa only [proper] using hv)
  | _ => cases h

/-! ### The laws, part by part -/

/-- Equality is symmetric and transitive on some values. -/
structure Lawful (P : Value → Prop) : Prop where
  symm : ∀ {a b}, P a → P b → a.eqv b = true → b.eqv a = true
  trans : ∀ {a b c}, P a → P b → P c → a.eqv b = true → b.eqv c = true → a.eqv c = true

/-- Where no name is repeated, fields are equal to those of their names. -/
theorem eqvFields_iff_of_apart {fs gs : List (String × Value)}
    (hg : gs.Pairwise fun p q => p.1 ≠ q.1) :
    eqvFields fs gs = true ↔ ∀ p ∈ fs, ∃ q ∈ gs, p.1 = q.1 ∧ p.2.eqv q.2 = true := by
  have hlookup : ∀ k w, gs.lookup k = some w ↔ (k, w) ∈ gs := by
    intro k w
    induction gs with
    | nil => simp
    | cons q rest ih =>
      obtain ⟨name, v⟩ := q
      rw [List.pairwise_cons] at hg
      rw [List.lookup_cons, List.mem_cons]
      by_cases hk : k = name
      · have hnot : (k, w) ∉ rest := fun hmem => hg.1 _ hmem hk.symm
        simp [hk ▸ hnot, hk, eq_comm]
      · have hne : (k == name) = false := by simpa using hk
        simp [hne, ih hg.2, hk]
  rw [eqvFields_iff]
  refine forall₂_congr fun p _ => ?_
  constructor
  · rintro ⟨w, hw, heq⟩
    exact ⟨(p.1, w), (hlookup _ _).1 hw, rfl, heq⟩
  · rintro ⟨⟨k, w⟩, hq, rfl, heq⟩
    exact ⟨w, (hlookup _ _).2 hq, heq⟩

namespace Lawful

variable {P : Value → Prop} (hP : Lawful P)

include hP

/-- Where no key is repeated, fields are equal to those of equal keys. -/
theorem eqvMapping_iff_of_apart {fs gs : List (Value × Value)} (hf : ∀ p ∈ fs, P p.1)
    (hg : ∀ q ∈ gs, P q.1) (ha : gs.Pairwise fun p q => ¬ p.1.eqv q.1 = true) :
    eqvMapping fs gs = true ↔
      ∀ p ∈ fs, ∃ q ∈ gs, p.1.eqv q.1 = true ∧ p.2.eqv q.2 = true := by
  have hfind : ∀ {k : Value} {q : Value × Value}, P k → q ∈ gs → k.eqv q.1 = true →
      gs.find? (fun r => k.eqv r.1) = some q := by
    intro k q hk hq hkey
    induction gs with
    | nil => cases hq
    | cons r rest ih =>
      rw [List.pairwise_cons] at ha
      rw [List.forall_mem_cons] at hg
      rw [List.find?_cons]
      rcases List.mem_cons.1 hq with rfl | hq
      · rw [hkey]
      · -- an earlier key that is equal to `k` would be equal to that of `q`
        have hne : ¬ k.eqv r.1 = true := fun hr =>
          ha.1 q hq (hP.trans hg.1 hk (hg.2 q hq) (hP.symm hk hg.1 hr) hkey)
        rw [Bool.not_eq_true] at hne
        rw [hne]
        exact ih hg.2 ha.2 hq
  rw [eqvMapping_iff]
  refine forall₂_congr fun p hp => ?_
  constructor
  · rintro ⟨q, hq, heq⟩
    exact ⟨q, List.mem_of_find?_eq_some hq, by simpa using List.find?_some hq, heq⟩
  · rintro ⟨q, hq, hkey, heq⟩
    exact ⟨q, hfind (hf p hp) hq hkey, heq⟩

theorem items_symm {vs ws : List Value} (hv : ∀ v ∈ vs, P v) (hw : ∀ w ∈ ws, P w)
    (h : eqvItems vs ws = true) : eqvItems ws vs = true := by
  rw [eqvItems_iff] at h ⊢
  induction h with
  | nil => exact .nil
  | cons h _ ih =>
    rw [List.forall_mem_cons] at hv hw
    exact .cons (hP.symm hv.1 hw.1 h) (ih hv.2 hw.2)

theorem items_trans {us vs ws : List Value} (hu : ∀ u ∈ us, P u) (hv : ∀ v ∈ vs, P v)
    (hw : ∀ w ∈ ws, P w) (h : eqvItems us vs = true) (h' : eqvItems vs ws = true) :
    eqvItems us ws = true := by
  rw [eqvItems_iff] at h h' ⊢
  induction h generalizing ws with
  | nil => exact h'
  | cons h _ ih =>
    cases h' with
    | cons h' hrest =>
      rw [List.forall_mem_cons] at hu hv hw
      exact .cons (hP.trans hu.1 hv.1 hw.1 h h') (ih hu.2 hv.2 hw.2 hrest)

theorem fields_symm {fs gs : List (String × Value)} (hf : ∀ p ∈ fs, P p.2)
    (hg : ∀ q ∈ gs, P q.2) (hfa : fs.Pairwise fun p q => p.1 ≠ q.1)
    (hga : gs.Pairwise fun p q => p.1 ≠ q.1) (hlen : fs.length = gs.length)
    (h : eqvFields fs gs = true) : eqvFields gs fs = true := by
  rw [eqvFields_iff_of_apart hga] at h
  rw [eqvFields_iff_of_apart hfa]
  have hapart : fs.Pairwise fun p p' => ∀ q ∈ gs, p.1 = q.1 ∧ p.2.eqv q.2 = true →
      ¬ (p'.1 = q.1 ∧ p'.2.eqv q.2 = true) :=
    hfa.imp fun hne q _ hp hp' => hne (hp.1.trans hp'.1.symm)
  intro q hq
  obtain ⟨p, hp, hname, heq⟩ := exists_of_matched (Nat.le_of_eq hlen.symm) h hapart q hq
  exact ⟨p, hp, hname.symm, hP.symm (hf p hp) (hg q hq) heq⟩

theorem fields_trans {fs gs hs : List (String × Value)} (hf : ∀ p ∈ fs, P p.2)
    (hg : ∀ q ∈ gs, P q.2) (hh : ∀ r ∈ hs, P r.2) (hga : gs.Pairwise fun p q => p.1 ≠ q.1)
    (hha : hs.Pairwise fun p q => p.1 ≠ q.1) (h : eqvFields fs gs = true)
    (h' : eqvFields gs hs = true) : eqvFields fs hs = true := by
  rw [eqvFields_iff_of_apart hga] at h
  rw [eqvFields_iff_of_apart hha] at h' ⊢
  intro p hp
  obtain ⟨q, hq, hname, heq⟩ := h p hp
  obtain ⟨r, hr, hname', heq'⟩ := h' q hq
  exact ⟨r, hr, hname.trans hname', hP.trans (hf p hp) (hg q hq) (hh r hr) heq heq'⟩

theorem mapping_symm {fs gs : List (Value × Value)} (hf : ∀ p ∈ fs, P p.1 ∧ P p.2)
    (hg : ∀ q ∈ gs, P q.1 ∧ P q.2) (hfa : fs.Pairwise fun p q => ¬ p.1.eqv q.1 = true)
    (hga : gs.Pairwise fun p q => ¬ p.1.eqv q.1 = true) (hlen : fs.length = gs.length)
    (h : eqvMapping fs gs = true) : eqvMapping gs fs = true := by
  have hfk := fun p hp => (hf p hp).1
  have hgk := fun q hq => (hg q hq).1
  rw [hP.eqvMapping_iff_of_apart hfk hgk hga] at h
  rw [hP.eqvMapping_iff_of_apart hgk hfk hfa]
  have hapart : fs.Pairwise fun p p' => ∀ q ∈ gs, p.1.eqv q.1 = true ∧ p.2.eqv q.2 = true →
      ¬ (p'.1.eqv q.1 = true ∧ p'.2.eqv q.2 = true) := by
    refine hfa.imp_of_mem ?_
    intro p p' hp hp' hne q hq hpq hpq'
    have hback := hP.symm (hfk p' hp') (hgk q hq) hpq'.1
    exact hne (hP.trans (hfk p hp) (hgk q hq) (hfk p' hp') hpq.1 hback)
  intro q hq
  obtain ⟨p, hp, hkey, heq⟩ := exists_of_matched (Nat.le_of_eq hlen.symm) h hapart q hq
  exact ⟨p, hp, hP.symm (hf p hp).1 (hg q hq).1 hkey, hP.symm (hf p hp).2 (hg q hq).2 heq⟩

theorem mapping_trans {fs gs hs : List (Value × Value)} (hf : ∀ p ∈ fs, P p.1 ∧ P p.2)
    (hg : ∀ q ∈ gs, P q.1 ∧ P q.2) (hh : ∀ r ∈ hs, P r.1 ∧ P r.2)
    (hga : gs.Pairwise fun p q => ¬ p.1.eqv q.1 = true)
    (hha : hs.Pairwise fun p q => ¬ p.1.eqv q.1 = true) (h : eqvMapping fs gs = true)
    (h' : eqvMapping gs hs = true) : eqvMapping fs hs = true := by
  have hfk := fun p hp => (hf p hp).1
  have hgk := fun q hq => (hg q hq).1
  have hhk := fun r hr => (hh r hr).1
  rw [hP.eqvMapping_iff_of_apart hfk hgk hga] at h
  rw [hP.eqvMapping_iff_of_apart hgk hhk hha] at h'
  rw [hP.eqvMapping_iff_of_apart hfk hhk hha]
  intro p hp
  obtain ⟨q, hq, hkey, heq⟩ := h p hp
  obtain ⟨r, hr, hkey', heq'⟩ := h' q hq
  exact ⟨r, hr, hP.trans (hf p hp).1 (hg q hq).1 (hh r hr).1 hkey hkey',
    hP.trans (hf p hp).2 (hg q hq).2 (hh r hr).2 heq heq'⟩

end Lawful

/-! ### The laws -/

/-- A proper value of less than a size. -/
def Below (n : Nat) (v : Value) : Prop := v.proper = true ∧ sizeOf v < n

namespace Below

variable {n : Nat}

theorem items {xs : List Value} (hproper : properItems xs = true) (hsize : sizeOf xs ≤ n) :
    ∀ x ∈ xs, Below n x := by
  intro x hx
  have hmem := List.sizeOf_lt_of_mem hx
  exact ⟨(properItems_iff xs).1 hproper x hx, by omega⟩

theorem list {xs : List Value} (h : Below (n + 1) (.list xs)) : ∀ x ∈ xs, Below n x := by
  have hsize := h.2
  rw [list.sizeOf_spec] at hsize
  exact items (by simpa only [proper] using h.1) (by omega)

theorem tuple {xs : List Value} (h : Below (n + 1) (.tuple xs)) : ∀ x ∈ xs, Below n x := by
  have hsize := h.2
  rw [tuple.sizeOf_spec] at hsize
  exact items (by simpa only [proper] using h.1) (by omega)

theorem record {fs : List (String × Value)} (h : Below (n + 1) (.record fs)) :
    (∀ p ∈ fs, Below n p.2) ∧ fs.Pairwise fun p q => p.1 ≠ q.1 := by
  have hproper : properFields fs = true := by simpa only [proper] using h.1
  obtain ⟨hparts, hapart⟩ := (properFields_iff fs).1 hproper
  refine ⟨fun p hp => ⟨hparts p hp, ?_⟩, hapart⟩
  have hsize := h.2
  have hmem := List.sizeOf_lt_of_mem hp
  rw [record.sizeOf_spec] at hsize
  rw [Prod.mk.sizeOf_spec] at hmem
  omega

theorem mapping {fs : List (Value × Value)} (h : Below (n + 1) (.mapping fs)) :
    (∀ p ∈ fs, Below n p.1 ∧ Below n p.2) ∧ fs.Pairwise fun p q => ¬ p.1.eqv q.1 = true := by
  have hproper : properMapping fs = true := by simpa only [proper] using h.1
  obtain ⟨hparts, hapart⟩ := (properMapping_iff fs).1 hproper
  refine ⟨fun p hp => ?_, hapart⟩
  have hsize := h.2
  have hmem := List.sizeOf_lt_of_mem hp
  rw [mapping.sizeOf_spec] at hsize
  rw [Prod.mk.sizeOf_spec] at hmem
  exact ⟨⟨(hparts p hp).1, by omega⟩, ⟨(hparts p hp).2, by omega⟩⟩

end Below

theorem lawful_below (n : Nat) : Lawful (Below n) := by
  induction n with
  | zero =>
    exact ⟨fun ha => absurd ha.2 (Nat.not_lt_zero _), fun ha => absurd ha.2 (Nat.not_lt_zero _)⟩
  | succ n ih =>
    refine ⟨fun ha hb h => ?_, fun ha hb hc h h' => ?_⟩
    · cases alike_of_eqv h with
      | number hnum => exact eqv_of_sameNumber (sameNumber_symm hnum)
      | atom => exact h
      | moment hkey => exact (Alike.moment hkey.symm).eqv
      | list hparts => exact (Alike.list (ih.items_symm ha.list hb.list hparts)).eqv
      | tuple hparts => exact (Alike.tuple (ih.items_symm ha.tuple hb.tuple hparts)).eqv
      | record hlen hparts =>
        have hback := ih.fields_symm ha.record.1 hb.record.1 ha.record.2 hb.record.2 hlen hparts
        exact (Alike.record hlen.symm hback).eqv
      | mapping hlen hparts =>
        have hback :=
          ih.mapping_symm ha.mapping.1 hb.mapping.1 ha.mapping.2 hb.mapping.2 hlen hparts
        exact (Alike.mapping hlen.symm hback).eqv
    · cases alike_of_eqv h with
      | number hnum =>
        cases alike_of_eqv h' with
        | number hnum' => exact eqv_of_sameNumber (sameNumber_trans hnum hnum')
        | atom => exact h
        | list | tuple | record | mapping | moment => cases sameNumber_symm hnum
      | atom => exact h'
      | moment hkey =>
        cases alike_of_eqv h' with
        | number hnum => cases hnum
        | atom => exact h
        | moment hkey' => exact (Alike.moment (hkey.trans hkey')).eqv
      | list hparts =>
        cases alike_of_eqv h' with
        | number hnum => cases hnum
        | atom => exact h
        | list hparts' =>
          exact (Alike.list (ih.items_trans ha.list hb.list hc.list hparts hparts')).eqv
      | tuple hparts =>
        cases alike_of_eqv h' with
        | number hnum => cases hnum
        | atom => exact h
        | tuple hparts' =>
          exact (Alike.tuple (ih.items_trans ha.tuple hb.tuple hc.tuple hparts hparts')).eqv
      | record hlen hparts =>
        cases alike_of_eqv h' with
        | number hnum => cases hnum
        | atom => exact h
        | record hlen' hparts' =>
          have hthrough := ih.fields_trans ha.record.1 hb.record.1 hc.record.1 hb.record.2
            hc.record.2 hparts hparts'
          exact (Alike.record (hlen.trans hlen') hthrough).eqv
      | mapping hlen hparts =>
        cases alike_of_eqv h' with
        | number hnum => cases hnum
        | atom => exact h
        | mapping hlen' hparts' =>
          have hthrough := ih.mapping_trans ha.mapping.1 hb.mapping.1 hc.mapping.1 hb.mapping.2
            hc.mapping.2 hparts hparts'
          exact (Alike.mapping (hlen.trans hlen') hthrough).eqv

/-- Equality of proper values is symmetric and transitive. -/
theorem lawful_proper : Lawful fun v => v.proper = true where
  symm {a b} ha hb :=
    (lawful_below (sizeOf a + sizeOf b + 1)).symm ⟨ha, by omega⟩ ⟨hb, by omega⟩
  trans {a b c} ha hb hc :=
    (lawful_below (sizeOf a + sizeOf b + sizeOf c + 1)).trans ⟨ha, by omega⟩ ⟨hb, by omega⟩
      ⟨hc, by omega⟩

theorem same_symm {a b : Value} (ha : a.proper = true) (hb : b.proper = true)
    (h : a.same b = true) : b.same a = true := by
  rw [same, Bool.and_eq_true, beq_iff_eq] at h ⊢
  exact ⟨h.1.symm, lawful_proper.symm ha hb h.2⟩

theorem same_trans {a b c : Value} (ha : a.proper = true) (hb : b.proper = true)
    (hc : c.proper = true) (h : a.same b = true) (h' : b.same c = true) : a.same c = true := by
  rw [same, Bool.and_eq_true, beq_iff_eq] at h h' ⊢
  exact ⟨h.1.trans h'.1, lawful_proper.trans ha hb hc h.2 h'.2⟩

end Value

end PropertyGraph
