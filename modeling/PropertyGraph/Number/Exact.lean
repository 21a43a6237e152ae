/-!
# Exact values of numbers

A finite double is an integer times a power of two.  `Exact.ofFloat` reads that pair off the bit
pattern, and `Exact.compare` orders integers and doubles by their true values, without rounding
either side.  A NaN compares with nothing, and the two zeros are equal.
-/

namespace PropertyGraph

/-- The exact value of a number. -/
inductive Exact where
  /-- The value `m * 2 ^ e`. -/
  | dyadic (m : Int) (e : Int)
  | infinite (negative : Bool)
  | nan
deriving DecidableEq, Repr

namespace Exact

/-- An integer is its own exact value. -/
def ofInt (n : Int) : Exact := .dyadic n 0

/-- The sign, the significand and the exponent of a finite double. -/
def decode (x : Float) : Bool × Nat × Int :=
  let bits := x.toBits.toNat
  let fraction : Nat := bits % Nat.pow 2 52
  let exponent : Nat := bits / Nat.pow 2 52 % Nat.pow 2 11
  let negative := bits / Nat.pow 2 63 == 1
  if exponent = 0 then (negative, fraction, -1074)
  else (negative, fraction + Nat.pow 2 52, Int.ofNat exponent - 1075)

/-- The exact value of a double. -/
def ofFloat (x : Float) : Exact :=
  if x.isNaN then .nan
  else
    let (negative, m, e) := decode x
    if x.isFinite then .dyadic (if negative then -m else m) e
    else .infinite negative

/-- The power of two with a natural exponent; a negative exponent counts as zero. -/
def powerOfTwo (e : Int) : Int := Int.ofNat (Nat.pow 2 e.toNat)

/-- The integer that `m * 2 ^ e` is over the common exponent `low`. -/
def scaled (m e low : Int) : Int := m * powerOfTwo (e - low)

/-- The order of two exact values. -/
def compare : Exact → Exact → Option Ordering
  | .nan, _ | _, .nan => none
  | .infinite a, .infinite b =>
    some (if a = b then .eq else if a then .lt else .gt)
  | .infinite a, .dyadic _ _ => some (if a then .lt else .gt)
  | .dyadic _ _, .infinite b => some (if b then .gt else .lt)
  | .dyadic m e, .dyadic n f =>
    let low := min e f
    some (Ord.compare (scaled m e low) (scaled n f low))

/-- Whether two exact values are equal. -/
def same (a b : Exact) : Bool := compare a b == some .eq

/-- Whether the first exact value lies below the second. -/
def less (a b : Exact) : Bool := compare a b == some .lt

/-- The part of an exact value before the point, when it is finite. -/
def truncate? : Exact → Option Int
  | .dyadic m e => some (if 0 ≤ e then m * powerOfTwo e else Int.tdiv m (powerOfTwo (-e)))
  | _ => none

/-- The integer that an exact value is, if it is one. -/
def integer? : Exact → Option Int
  | .dyadic m e =>
    if 0 ≤ e then some (m * powerOfTwo e)
    else if m % powerOfTwo (-e) = 0 then some (m / powerOfTwo (-e)) else none
  | _ => none

/-! ### Integers keep their order -/

@[simp] theorem powerOfTwo_zero : powerOfTwo 0 = 1 := rfl

@[simp] theorem compare_ofInt (m n : Int) :
    compare (ofInt m) (ofInt n) = some (Ord.compare m n) := by
  simp [compare, ofInt, scaled]

@[simp] theorem same_ofInt (m n : Int) : same (ofInt m) (ofInt n) = decide (m = n) := by
  by_cases h : m = n
  · subst h; simp [same]
  · simp [same, h]

@[simp] theorem integer?_ofInt (n : Int) : integer? (ofInt n) = some n := by
  simp [integer?, ofInt]

/-- Nothing equals a NaN. -/
theorem same_nan (a : Exact) : same a .nan = false := by
  cases a <;> rfl

end Exact

end PropertyGraph
