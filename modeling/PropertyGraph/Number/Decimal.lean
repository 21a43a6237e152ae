/-!
# Decimal digits of a double

A positive double is given as `num / den`.  `Decimal.shortest` finds the decimal with the fewest
digits that lies in a given interval around the number, and among those with that many digits the
nearest one.  It tests, for one digit, two digits and so on up to seventeen, the two points of the
decimal grid that enclose the number; everything is exact arithmetic on naturals.
`Decimal.roundedQuotient` rounds a quotient to the nearest natural, a half to the even neighbour.
-/

namespace PropertyGraph

/-- The decimal number `digits * 10 ^ exponent`. -/
structure Decimal where
  digits : Nat
  exponent : Int
deriving DecidableEq, Repr

/-- A positive number `num / den` with the half-distances to its neighbours, in the same unit. -/
structure Neighbourhood where
  num : Nat
  den : Nat
  /-- What may be taken off `num` before the lower neighbour is nearer. -/
  below : Nat
  /-- What may be added to `num` before the upper neighbour is nearer. -/
  above : Nat
  /-- Whether the end points belong to the neighbourhood. -/
  closed : Bool

namespace Decimal

/-- The quotient of two naturals rounded to the nearest natural, a half to the even one. -/
def roundedQuotient (num den : Nat) : Nat :=
  let q := num / den
  let twice := 2 * (num % den)
  if twice < den then q
  else if den < twice then q + 1
  else if q % 2 = 0 then q else q + 1

/-- The largest `p` with `10 ^ p ≤ num / den`, searched upward from an estimate. -/
def magnitudeFrom (num den : Nat) : Nat → Int → Int
  | 0, p => p
  | fuel + 1, p =>
    let q := p + 1
    let reached :=
      if 0 ≤ q then Nat.pow 10 q.toNat * den ≤ num else den ≤ num * Nat.pow 10 (-q).toNat
    if reached then magnitudeFrom num den fuel q else p

/-- The exponent of the leading decimal digit of `num / den`. -/
def magnitude (num den : Nat) : Int :=
  let bits : Int := Int.ofNat num.log2 - Int.ofNat den.log2 - 1
  magnitudeFrom num den 3 ((bits * 30103) / 100000 - 1)

/-- Whether `d * 10 ^ k` lies in the neighbourhood. -/
def within (v : Neighbourhood) (d : Nat) (k : Int) : Bool :=
  let point := if 0 ≤ k then d * Nat.pow 10 k.toNat * v.den else d * v.den
  let scale := if 0 ≤ k then 1 else Nat.pow 10 (-k).toNat
  let low := (v.num - v.below) * scale
  let high := (v.num + v.above) * scale
  if v.closed then low ≤ point && point ≤ high else low < point && point < high

/-- The nearer of the two grid points `d` and `d + 1` at scale `10 ^ k`, the even one on a tie. -/
def nearer (v : Neighbourhood) (d : Nat) (k : Int) : Nat :=
  let point := if 0 ≤ k then Nat.pow 10 k.toNat * v.den else v.den
  let target := if 0 ≤ k then v.num else v.num * Nat.pow 10 (-k).toNat
  let left := target - d * point
  let right := (d + 1) * point - target
  if left < right then d
  else if right < left then d + 1
  else if d % 2 = 0 then d else d + 1

/-- The point of the grid with `n` digits that lies in the neighbourhood, if there is one. -/
def onGrid? (v : Neighbourhood) (top : Int) (n : Nat) : Option Decimal :=
  let k := top - Int.ofNat n + 1
  let d :=
    if 0 ≤ k then v.num / (Nat.pow 10 k.toNat * v.den) else v.num * Nat.pow 10 (-k).toNat / v.den
  match within v d k, within v (d + 1) k with
  | true, true => some ⟨nearer v d k, k⟩
  | true, false => some ⟨d, k⟩
  | false, true => some ⟨d + 1, k⟩
  | false, false => none

/-- The decimal with the fewest digits in the neighbourhood; seventeen digits always suffice for
a double. -/
def shortest (v : Neighbourhood) : Decimal :=
  let top := magnitude v.num v.den
  let grids := (List.range 17).filterMap fun n => onGrid? v top (n + 1)
  grids.headD ⟨roundedQuotient v.num v.den, 0⟩

/-- The digits of a natural in base ten, most significant first. -/
def digitsText (n : Nat) : List Char := (Nat.toDigits 10 n)

/-! ### Rounding a quotient -/

/-- A quotient that is whole rounds to itself. -/
theorem roundedQuotient_mul (n : Nat) {den : Nat} (h : 0 < den) :
    roundedQuotient (n * den) den = n := by
  simp [roundedQuotient, Nat.mul_div_cancel _ h, h]

/-- The rounded quotient is at most half a unit away. -/
theorem roundedQuotient_within (num : Nat) {den : Nat} (h : 0 < den) :
    2 * num ≤ (2 * roundedQuotient num den + 1) * den ∧
      2 * (roundedQuotient num den * den) ≤ 2 * num + den := by
  have hd := Nat.div_add_mod num den
  have hm := Nat.mod_lt num h
  have e₀ : num / den * den = den * (num / den) := Nat.mul_comm ..
  have e₁ : (2 * (num / den) + 1) * den = 2 * (den * (num / den)) + den := by
    rw [Nat.add_mul, Nat.one_mul, Nat.mul_assoc, e₀]
  have e₂ : (2 * (num / den + 1) + 1) * den = 2 * (den * (num / den)) + 3 * den := by
    rw [show 2 * (num / den + 1) + 1 = 2 * (num / den) + 3 by omega, Nat.add_mul, Nat.mul_assoc, e₀]
  have e₃ : (num / den + 1) * den = den * (num / den) + den := by
    rw [Nat.add_mul, Nat.one_mul, e₀]
  simp only [roundedQuotient]
  repeat' split
  all_goals simp only [e₀, e₁, e₂, e₃]
  all_goals omega

end Decimal

end PropertyGraph
