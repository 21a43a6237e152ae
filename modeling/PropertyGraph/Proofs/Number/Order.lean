import Mathlib.Algebra.Order.Ring.Int
import Mathlib.Data.Prod.Lex
import Mathlib.Order.Compare

/-!
# The order of doubles

Doubles are in no linear order: a NaN is neither below nor above anything, and the two zeros are one
number.  Their ranks are in one.  A double is less than another one if neither is a NaN and it has
the lower rank (`Rank.lt_iff`), and equal to it if neither is a NaN and they have the same rank
(`Rank.beq_iff`).  All NaNs have one rank, above that of every number.
-/

namespace PropertyGraph

open Float.Model (UnpackedFloat)

/-- A place in the order of doubles: the side of zero, and then an exponent and a significand. -/
abbrev Rank := ℤ ×ₗ ℤ ×ₗ ℤ

namespace Rank

/-- The rank of a number by its parts.  Below zero, a number with larger parts is less. -/
def ofParts : UnpackedFloat → Rank
  | .infinity .negative => toLex (-2, toLex (0, 0))
  | .finite .negative m e _ => toLex (-1, toLex (-e, -m))
  | .zero _ => toLex (0, toLex (0, 0))
  | .finite .positive m e _ => toLex (1, toLex (e, m))
  | .infinity .positive => toLex (2, toLex (0, 0))
  | .notANumber => toLex (3, toLex (0, 0))

/-- The rank of a double. -/
def ofFloat (x : Float) : Rank := ofParts x.toModel.unpack

/-! ### Ranks of parts -/

section Parts

variable {u v : UnpackedFloat}

theorem compare_toLex (a b c a' b' c' : ℤ) :
    compare (toLex (a, toLex (b, c))) (toLex (a', toLex (b', c'))) =
      (compare a a').then ((compare b b').then (compare c c')) := by
  simp only [Prod.Lex.compare_def, compareLex, compareOn, ofLex_toLex]

theorem compare_neg (a b : ℤ) : compare (-a) (-b) = (compare a b).swap := by
  rw [← Std.OrientedOrd.eq_swap, Int.compare_eq_ite_lt, Int.compare_eq_ite_lt]
  simp only [Int.neg_lt_neg_iff]

theorem compare_natCast (m n : ℕ) : compare (m : ℤ) n = compare m n := by
  rw [Int.compare_eq_ite_lt, Nat.compare_eq_ite_lt]
  simp only [Int.ofNat_lt]

/-- Numbers compare as their ranks do. -/
theorem compare_ofParts (hu : u.isNaN = false) (hv : v.isNaN = false) :
    u.compare v = some (compare (ofParts u) (ofParts v)) := by
  rcases u with (_ | _) | _ | (_ | _) | ⟨_ | _, m, e, _⟩ <;>
    rcases v with (_ | _) | _ | (_ | _) | ⟨_ | _, n, f, _⟩ <;>
    first | contradiction | rfl | skip
  -- two finite numbers on the same side of zero are left
  case finite.negative.finite.negative =>
    change _ = some (compare (toLex ((-1 : ℤ), toLex (-e, -(m : ℤ)))) (toLex (-1, toLex (-f, -n))))
    rw [compare_toLex, compare_neg e f, compare_neg m n, compare_natCast, ← Ordering.swap_then]
    rfl
  case finite.positive.finite.positive =>
    change _ = some (compare (toLex ((1 : ℤ), toLex (e, (m : ℤ)))) (toLex (1, toLex (f, n))))
    rw [compare_toLex, compare_natCast]
    rfl

theorem eq_notANumber (hu : u.isNaN = true) : u = .notANumber := by
  cases u with
  | notANumber => rfl
  | _ => cases hu

theorem compare_eq_none (h : u.isNaN = true ∨ v.isNaN = true) : u.compare v = none := by
  rcases h with h | h
  · rw [eq_notANumber h]
    rfl
  · rw [eq_notANumber h]
    cases u <;> rfl

theorem compare_eq_some_iff {o : Ordering} :
    u.compare v = some o ↔
      u.isNaN = false ∧ v.isNaN = false ∧ compare (ofParts u) (ofParts v) = o := by
  cases hu : u.isNaN with
  | true => simp [compare_eq_none (.inl hu)]
  | false =>
    cases hv : v.isNaN with
    | true => simp [compare_eq_none (.inr hv)]
    | false => simp [compare_ofParts hu hv]

theorem ofParts_lt_of_isNaN (hu : u.isNaN = false) (hv : v.isNaN = true) :
    ofParts u < ofParts v := by
  rw [eq_notANumber hv]
  rcases u with (_ | _) | _ | (_ | _) | ⟨_ | _, m, e, _⟩ <;>
    first | contradiction | exact Prod.Lex.left _ _ (by decide)

end Parts

/-! ### Ranks of doubles -/

section Doubles

variable {x y : Float}

theorem lt_iff : x < y ↔ x.isNaN = false ∧ y.isNaN = false ∧ ofFloat x < ofFloat y := by
  have hless : x < y ↔ x.toModel.unpack.compare y.toModel.unpack = some .lt := by
    change decide (x.toModel < y.toModel) = true ↔ _
    rw [decide_eq_true_iff]
    exact beq_iff_eq
  rw [hless, compare_eq_some_iff, compare_lt_iff_lt]
  rfl

theorem beq_iff : (x == y) = true ↔
    x.isNaN = false ∧ y.isNaN = false ∧ ofFloat x = ofFloat y := by
  have hsame : (x == y) = true ↔ x.toModel.unpack.compare y.toModel.unpack = some .eq := by
    change (x.toModel.unpack.compare y.toModel.unpack == some .eq) = true ↔ _
    exact beq_iff_eq
  rw [hsame, compare_eq_some_iff, compare_eq_iff_eq]
  rfl

theorem ofFloat_lt_of_isNaN (hx : x.isNaN = false) (hy : y.isNaN = true) :
    ofFloat x < ofFloat y :=
  ofParts_lt_of_isNaN hx hy

theorem ofFloat_le_of_isNaN (x : Float) (hy : y.isNaN = true) : ofFloat x ≤ ofFloat y := by
  cases hx : x.isNaN with
  | true => rw [ofFloat, ofFloat, eq_notANumber hx, eq_notANumber hy]
  | false => exact (ofFloat_lt_of_isNaN hx hy).le

end Doubles

end Rank

end PropertyGraph
