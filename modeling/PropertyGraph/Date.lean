/-!
# Dates

The Gregorian calendar from the year 1 on.  Days are numbered from the first of January of the
year 1, which is day 0; `Date.ofDayNumber` finds the date of a number, and
`Date.dayNumber_ofDayNumber` says that it finds a date with that number.
-/

namespace PropertyGraph

/-- A day of the calendar. -/
structure Date where
  year : Nat
  month : Nat
  day : Nat
deriving DecidableEq, Repr

namespace Date

/-- Whether a year has a day more. -/
def isLeap (year : Nat) : Bool := year % 4 = 0 ∧ (year % 100 ≠ 0 ∨ year % 400 = 0)

/-- How many days each month has. -/
def monthLengths (leap : Bool) : List Nat :=
  [31, if leap then 29 else 28, 31, 30, 31, 30, 31, 31, 30, 31, 30, 31]

/-- How many days a month has. -/
def monthLength (year month : Nat) : Nat := (monthLengths (isLeap year)).getD (month - 1) 0

/-- How many days some months have together. -/
def total (lengths : List Nat) : Nat := lengths.foldr (· + ·) 0

/-- How many days lie before a year. -/
def daysBeforeYear (year : Nat) : Nat :=
  let past := year - 1
  365 * past + past / 4 - past / 100 + past / 400

/-- The number of a date. -/
def dayNumber (d : Date) : Nat :=
  daysBeforeYear d.year + total ((monthLengths (isLeap d.year)).take (d.month - 1)) + (d.day - 1)

/-- The year that a day lies in: whole cycles of 400, 100, 4 and 1 years come first, and the last
day of a leap year still belongs to the fourth year of its cycle. -/
def yearOf (n : Nat) : Nat :=
  let inCycle := n % 146097
  let centuries := min 3 (inCycle / 36524)
  let inCentury := inCycle - centuries * 36524
  let inFour := inCentury % 1461
  400 * (n / 146097) + 100 * centuries + 4 * (inCentury / 1461) + min 3 (inFour / 365) + 1

/-- How many whole stretches of the given lengths lie before a day, and what is left. -/
def locate : List Nat → Nat → Nat × Nat
  | [], n => (0, n)
  | length :: rest, n =>
    if n < length then (0, n)
    else
      let (passed, left) := locate rest (n - length)
      (passed + 1, left)

/-- The date of a number. -/
def ofDayNumber (n : Nat) : Date :=
  let year := yearOf n
  let (passed, left) := locate (monthLengths (isLeap year)) (n - daysBeforeYear year)
  ⟨year, passed + 1, left + 1⟩

/-- Whether a date exists. -/
structure Valid (d : Date) : Prop where
  year : 1 ≤ d.year
  month : 1 ≤ d.month ∧ d.month ≤ 12
  day : 1 ≤ d.day ∧ d.day ≤ monthLength d.year d.month

/-! ### The days of a year -/

theorem total_monthLengths (leap : Bool) :
    total (monthLengths leap) = if leap then 366 else 365 := by
  cases leap <;> decide

theorem isLeap_iff (year : Nat) :
    isLeap year = true ↔ year % 4 = 0 ∧ (year % 100 ≠ 0 ∨ year % 400 = 0) := by
  simp [isLeap]

/-- A quotient grows by one exactly at the multiples of the divisor. -/
theorem succ_div_eq (p d : Nat) : (p + 1) / d = p / d + if (p + 1) % d = 0 then 1 else 0 := by
  rw [Nat.succ_div]
  simp only [Nat.dvd_iff_mod_eq_zero]

/-- A year has as many days as its months. -/
theorem daysBeforeYear_succ (p : Nat) :
    daysBeforeYear (p + 2) = daysBeforeYear (p + 1) + total (monthLengths (isLeap (p + 1))) := by
  have h₁ : p / 100 ≤ p := Nat.div_le_self ..
  have e : p + 2 - 1 = p + 1 := rfl
  rw [total_monthLengths]
  simp only [daysBeforeYear, Nat.add_sub_cancel, isLeap_iff, e, succ_div_eq p]
  by_cases h₄ : (p + 1) % 4 = 0
  · by_cases h₁₀₀ : (p + 1) % 100 = 0
    · by_cases h₄₀₀ : (p + 1) % 400 = 0
      · rw [if_pos h₄, if_pos h₁₀₀, if_pos h₄₀₀, if_pos ⟨h₄, .inr h₄₀₀⟩]
        omega
      · rw [if_pos h₄, if_pos h₁₀₀, if_neg h₄₀₀, if_neg (by simp [h₁₀₀, h₄₀₀])]
        omega
    · rw [if_pos h₄, if_neg h₁₀₀, if_neg (by omega), if_pos ⟨h₄, .inl h₁₀₀⟩]
      omega
  · rw [if_neg h₄, if_neg (by omega), if_neg (by omega), if_neg (by simp [h₄])]
    omega

/-- The days before a year that is given by the cycles before it. -/
theorem daysBeforeYear_cycles (a : Nat) {c q k : Nat} (hc : c ≤ 3) (hq : q ≤ 24) (hk : k ≤ 3) :
    daysBeforeYear (400 * a + 100 * c + 4 * q + k + 1) =
      146097 * a + 36524 * c + 1461 * q + 365 * k := by
  have e₁ : (400 * a + 100 * c + 4 * q + k) / 4 = 100 * a + 25 * c + q := by omega
  have e₂ : (400 * a + 100 * c + 4 * q + k) / 100 = 4 * a + c := by omega
  have e₃ : (400 * a + 100 * c + 4 * q + k) / 400 = a := by omega
  simp only [daysBeforeYear, Nat.add_sub_cancel, e₁, e₂, e₃]
  omega

theorem exists_century {r : Nat} (h : r < 146097) :
    ∃ c s, c = min 3 (r / 36524) ∧ s = r - c * 36524 ∧ r = 36524 * c + s ∧ c ≤ 3 ∧ s ≤ 36524 ∧
      (s = 36524 → c = 3) :=
  ⟨_, _, rfl, rfl, by omega, by omega, by omega, by omega⟩

theorem exists_four_years {s : Nat} (h : s ≤ 36524) :
    ∃ q u, q = s / 1461 ∧ u = s % 1461 ∧ s = 1461 * q + u ∧ q ≤ 24 ∧ u ≤ 1460 ∧
      (q = 24 → u = 1460 → s = 36524) :=
  ⟨_, _, rfl, rfl, by omega, by omega, by omega, by omega⟩

theorem exists_year {u : Nat} (h : u ≤ 1460) :
    ∃ k t, k = min 3 (u / 365) ∧ u = 365 * k + t ∧ k ≤ 3 ∧ t ≤ 365 ∧
      (t = 365 → k = 3 ∧ u = 1460) :=
  ⟨_, u - 365 * min 3 (u / 365), rfl, by omega, by omega, by omega, by omega⟩

/-- A year that closes a cycle of four is a leap year, unless it closes a century that is not the
last of its cycle. -/
theorem isLeap_of_cycles {a c q : Nat} (hq : q ≤ 24) (h : q = 24 → c = 3) :
    isLeap (400 * a + 100 * c + 4 * q + 3 + 1) = true := by
  rw [isLeap_iff]
  refine ⟨by omega, ?_⟩
  by_cases hq' : q = 24
  · right; have := h hq'; omega
  · left; omega

/-- A day lies in its year. -/
theorem yearOf_bounds (n : Nat) :
    daysBeforeYear (yearOf n) ≤ n ∧ n < daysBeforeYear (yearOf n + 1) := by
  obtain ⟨c, s, hc, hs, hr, hc', hs', hlast⟩ :=
    exists_century (Nat.mod_lt n (show 0 < 146097 by decide))
  obtain ⟨q, u, hq, hu, hsu, hq', hu', hlast'⟩ := exists_four_years hs'
  obtain ⟨k, t, hk, hut, hk', ht, hday⟩ := exists_year hu'
  have hy : yearOf n = 400 * (n / 146097) + 100 * c + 4 * q + k + 1 := by
    simp only [yearOf, hk, hu, hq, hs, hc]
  have hn := Nat.div_add_mod n 146097
  rw [hy, daysBeforeYear_succ, total_monthLengths, daysBeforeYear_cycles _ hc' hq' hk']
  generalize n / 146097 = a at *
  clear hy hk hu hq hs hc
  refine ⟨by omega, ?_⟩
  by_cases h : t = 365
  · obtain ⟨rfl, hu''⟩ := hday h
    rw [if_pos (isLeap_of_cycles hq' fun hq'' => hlast (hlast' hq'' hu''))]
    omega
  · split <;> omega

theorem one_le_yearOf (n : Nat) : 1 ≤ yearOf n := by
  simp [yearOf]

/-! ### The date of a number -/

@[simp] theorem total_nil : total [] = 0 := rfl

@[simp] theorem total_cons (length : Nat) (rest : List Nat) :
    total (length :: rest) = length + total rest := rfl

theorem locate_spans (lengths : List Nat) (n : Nat) :
    total (lengths.take (locate lengths n).1) + (locate lengths n).2 = n ∧
      (n < total lengths → (locate lengths n).1 < lengths.length ∧
        (locate lengths n).2 < lengths.getD (locate lengths n).1 0) := by
  induction lengths generalizing n with
  | nil => simp [locate]
  | cons length rest ih =>
    by_cases h : n < length
    · simp [locate, h]
    · obtain ⟨h₁, h₂⟩ := ih (n - length)
      simp only [locate, h, if_false, List.take_succ_cons, total_cons, List.length_cons,
        List.getD_cons_succ]
      refine ⟨by omega, fun hn => ?_⟩
      obtain ⟨h₃, h₄⟩ := h₂ (by omega)
      exact ⟨by omega, h₄⟩

/-- The date of a number has that number. -/
theorem dayNumber_ofDayNumber (n : Nat) : (ofDayNumber n).dayNumber = n := by
  have h₁ := (yearOf_bounds n).1
  have h₂ := (locate_spans (monthLengths (isLeap (yearOf n))) (n - daysBeforeYear (yearOf n))).1
  simp only [ofDayNumber, dayNumber, Nat.add_sub_cancel]
  omega

/-- The date of a number exists. -/
theorem valid_ofDayNumber (n : Nat) : (ofDayNumber n).Valid := by
  have h₁ := yearOf_bounds n
  have h₂ := (locate_spans (monthLengths (isLeap (yearOf n))) (n - daysBeforeYear (yearOf n))).2
  obtain ⟨p, hp⟩ : ∃ p, yearOf n = p + 1 := ⟨yearOf n - 1, by have := one_le_yearOf n; omega⟩
  have h₆ := daysBeforeYear_succ p
  rw [show p + 2 = yearOf n + 1 by omega, ← hp] at h₆
  rw [h₆] at h₁
  obtain ⟨h₃, h₄⟩ := h₂ (by omega)
  have h₅ : (monthLengths (isLeap (yearOf n))).length = 12 := rfl
  exact ⟨one_le_yearOf n, ⟨by simp [ofDayNumber], by simp only [ofDayNumber]; omega⟩,
    ⟨by simp [ofDayNumber], by
      simp only [monthLength, ofDayNumber, Nat.add_sub_cancel]; omega⟩⟩

end Date

end PropertyGraph
