import Mathlib.Algebra.Order.Ring.Nat
import Mathlib.Data.List.Basic
import PropertyGraph.Instant

/-!
# Numbers with a fixed count of digits

A number below `base ^ width`, written with zeros in front until there are `width` digits, has its
digits in `fixed base width`: the last one is what is left after dividing by the base.  Numbers
written like that are told apart, and they come in the order of their values.
-/

namespace PropertyGraph

/-- Texts with starts of one length are in the order of their starts, and then of the rest. -/
theorem append_lt_append_iff {α : Type} [LT α] {a b : List α} (h : a.length = b.length)
    (r s : List α) : a ++ r < b ++ s ↔ a < b ∨ a = b ∧ r < s := by
  induction a generalizing b with
  | nil =>
    obtain rfl : b = [] := List.eq_nil_of_length_eq_zero h.symm
    simp
  | cons x a ih =>
    cases b with
    | nil => cases h
    | cons y b =>
      rw [List.cons_append, List.cons_append, List.cons_lt_cons_iff, List.cons_lt_cons_iff,
        ih (Nat.succ.inj h), List.cons.injEq]
      tauto

/-- What is in the same order both ways round is equal together. -/
theorem eq_iff_eq_of_lt_iff_lt {α β : Type} [LinearOrder α] [LinearOrder β] {a b : α} {x y : β}
    (h : a < b ↔ x < y) (h' : b < a ↔ y < x) : a = b ↔ x = y := by
  rw [le_antisymm_iff, le_antisymm_iff, ← not_lt, ← not_lt, ← not_lt, ← not_lt, h, h']

namespace Digits

variable {base width m n : ℕ}

theorem toDigits_injective : Function.Injective (Nat.toDigits 10) := by
  intro m n h
  rw [← Nat.ofDigitChars_ten_toDigits (n := m), h, Nat.ofDigitChars_ten_toDigits]

theorem isDigit_of_mem_toDigits {c : Char} (hc : c ∈ Nat.toDigits 10 n) : c.isDigit = true :=
  Nat.isDigit_of_mem_toDigits (by decide) (by decide) hc

/-- An integer is written by its digits, with a sign in front of them where it is negative. -/
theorem toList_toString (n : ℤ) : (toString n).toList =
    if 0 ≤ n then Nat.toDigits 10 n.toNat else '-' :: Nat.toDigits 10 (-n).toNat := by
  rw [Int.toString_eq_repr, Int.repr_eq_if]
  split
  · exact Nat.toList_repr
  · rw [String.toList_append, Nat.toList_repr]
    rfl

theorem sign_cons_ne_toDigits (m n : ℕ) : '-' :: Nat.toDigits 10 m ≠ Nat.toDigits 10 n := fun h =>
  absurd (isDigit_of_mem_toDigits (h ▸ List.mem_cons_self)) (by decide)

theorem toString_injective : Function.Injective (toString : ℤ → String) := by
  intro m n h
  rw [← String.toList_inj, toList_toString, toList_toString] at h
  split at h <;> split at h
  · have := toDigits_injective h
    omega
  · exact absurd h.symm (sign_cons_ne_toDigits _ _)
  · exact absurd h (sign_cons_ne_toDigits _ _)
  · have := toDigits_injective (List.cons.inj h).2
    omega

/-- The digits of a number, as many of them as the width says, the lowest one last. -/
def fixed (base : ℕ) : ℕ → ℕ → List Char
  | 0, _ => []
  | width + 1, n => fixed base width (n / base) ++ [Nat.digitChar (n % base)]

@[simp] theorem length_fixed (base width n : ℕ) : (fixed base width n).length = width := by
  induction width generalizing n with
  | zero => rfl
  | succ width ih => simp [fixed, ih]

theorem fixed_zero (base width : ℕ) : fixed base width 0 = List.replicate width '0' := by
  induction width with
  | zero => rfl
  | succ width ih =>
    rw [fixed, Nat.zero_div, Nat.zero_mod, ih, List.replicate_succ']
    rfl

/-- Zeros in front of a number make up for the digits that it lacks. -/
theorem zeros_append_toDigits (hbase : 1 < base) (hn : n < base ^ width) (hwidth : 0 < width) :
    List.replicate (width - (Nat.toDigits base n).length) '0' ++ Nat.toDigits base n =
      fixed base width n := by
  induction width generalizing n with
  | zero => cases hwidth
  | succ width ih =>
    rw [fixed, Nat.toDigits_eq_if hbase]
    split
    · rename_i hlt
      rw [Nat.div_eq_of_lt hlt, Nat.mod_eq_of_lt hlt, fixed_zero]
      simp
    · rename_i hle
      have hdiv : n / base < base ^ width := by
        rw [Nat.div_lt_iff_lt_mul (by omega), ← Nat.pow_succ]
        exact hn
      have hpos : 0 < n / base := Nat.div_pos (by omega) (by omega)
      have hwidth : 0 < width := by
        rcases Nat.eq_zero_or_pos width with rfl | h
        · rw [Nat.pow_zero] at hdiv
          omega
        · exact h
      rw [← ih hdiv hwidth]
      simp

theorem digitChar_lt_iff (hm : m < 16) (hn : n < 16) :
    Nat.digitChar m < Nat.digitChar n ↔ m < n := by
  have h : ∀ m < 16, ∀ n < 16, (Nat.digitChar m < Nat.digitChar n ↔ m < n) := by decide
  exact h m hm n hn

theorem digitChar_inj (hm : m < 16) (hn : n < 16) : Nat.digitChar m = Nat.digitChar n ↔ m = n := by
  have h : ∀ m < 16, ∀ n < 16, (Nat.digitChar m = Nat.digitChar n ↔ m = n) := by decide
  exact h m hm n hn

/-- Numbers are in the order of their higher parts, and then of what is left. -/
theorem div_mod_lt_iff (hbase : 0 < base) (m n : ℕ) :
    m / base < n / base ∨ m / base = n / base ∧ m % base < n % base ↔ m < n := by
  have hm := Nat.div_add_mod m base
  have hn := Nat.div_add_mod n base
  have hm' := Nat.mod_lt m hbase
  have hn' := Nat.mod_lt n hbase
  rcases Nat.lt_trichotomy (m / base) (n / base) with hlt | heq | hgt
  · have hmul := Nat.mul_le_mul_left base (Nat.succ_le_of_lt hlt)
    rw [Nat.mul_succ] at hmul
    omega
  · rw [heq] at hm ⊢
    omega
  · have hmul := Nat.mul_le_mul_left base (Nat.succ_le_of_lt hgt)
    rw [Nat.mul_succ] at hmul
    omega

section Below

variable (hbase : 0 < base) (hbase' : base ≤ 16)

include hbase hbase'

theorem mod_lt_sixteen (k : ℕ) : k % base < 16 := (Nat.mod_lt k hbase).trans_le hbase'

/-- Numbers below a power of the base are told apart by their digits. -/
theorem fixed_inj (hm : m < base ^ width) (hn : n < base ^ width) :
    fixed base width m = fixed base width n ↔ m = n := by
  refine ⟨fun h => ?_, fun h => h ▸ rfl⟩
  induction width generalizing m n with
  | zero =>
    rw [Nat.pow_zero] at hm hn
    omega
  | succ width ih =>
    obtain ⟨hhigh, hlow⟩ := List.append_inj h (by simp)
    have hdiv : m / base = n / base :=
      ih ((Nat.div_lt_iff_lt_mul hbase).2 hm) ((Nat.div_lt_iff_lt_mul hbase).2 hn) hhigh
    have hmod : m % base = n % base :=
      (digitChar_inj (mod_lt_sixteen hbase hbase' m) (mod_lt_sixteen hbase hbase' n)).1
        (List.cons.inj hlow).1
    rw [← Nat.div_add_mod m base, ← Nat.div_add_mod n base, hdiv, hmod]

/-- Numbers below a power of the base are in the order of their digits. -/
theorem fixed_lt_iff (hm : m < base ^ width) (hn : n < base ^ width) :
    fixed base width m < fixed base width n ↔ m < n := by
  induction width generalizing m n with
  | zero =>
    rw [Nat.pow_zero] at hm hn
    simp only [fixed, List.not_lt_nil, false_iff]
    omega
  | succ width ih =>
    have hm' := (Nat.div_lt_iff_lt_mul hbase).2 hm
    have hn' := (Nat.div_lt_iff_lt_mul hbase).2 hn
    rw [fixed, fixed, append_lt_append_iff (by simp), ih hm' hn', fixed_inj hbase hbase' hm' hn',
      List.cons_lt_cons_iff, digitChar_lt_iff (mod_lt_sixteen hbase hbase' m)
        (mod_lt_sixteen hbase hbase' n), ← div_mod_lt_iff hbase m n]
    simp

end Below

end Digits

end PropertyGraph
