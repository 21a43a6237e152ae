import Mathlib.Data.Int.Order.Basic
import Mathlib.Data.List.Lex
import PropertyGraph.Proofs.Number.Digits

/-!
# Readings and instants

Later dates have higher numbers (`Date.dayNumber_lt_iff`), so that days and dates are the same thing
in the same order.  The same holds of the times of a day.  A clock that is not ahead therefore
shows later instants by later readings (`Instant.micros_lt_iff`), and an instant has a reading in
the years 1 to 9999, which is its only one, just when it lies in the calendar
(`Instant.exists_shows_iff`).
-/

namespace PropertyGraph

namespace Date

/-- The parts of a date, the longest one first. -/
def parts (d : Date) : List ℕ := [d.year, d.month, d.day]

theorem parts_injective : Function.Injective parts := by
  rintro ⟨y, m, d⟩ ⟨y', m', d'⟩ h
  simpa [parts] using h

/-! ### Dates in order -/

theorem total_take_succ (lengths : List ℕ) (i : ℕ) :
    total (lengths.take (i + 1)) = total (lengths.take i) + lengths.getD i 0 := by
  induction lengths generalizing i with
  | nil => simp
  | cons length rest ih =>
    cases i with
    | zero => simp
    | succ i => simp [ih i, Nat.add_assoc]

theorem total_take_mono (lengths : List ℕ) {i j : ℕ} (h : i ≤ j) :
    total (lengths.take i) ≤ total (lengths.take j) := by
  induction h with
  | refl => exact Nat.le_refl _
  | @step j _ ih =>
    rw [Nat.succ_eq_add_one, total_take_succ]
    omega

theorem daysBeforeYear_mono {p q : ℕ} (h : p ≤ q) :
    daysBeforeYear (p + 1) ≤ daysBeforeYear (q + 1) := by
  induction h with
  | refl => exact Nat.le_refl _
  | @step q _ ih =>
    rw [Nat.succ_eq_add_one, daysBeforeYear_succ]
    omega

theorem monthLength_le (year month : ℕ) : monthLength year month ≤ 31 := by
  have hall : ∀ leap, ∀ length ∈ monthLengths leap, length ≤ 31 := by decide
  rw [monthLength, List.getD_eq_getElem?_getD]
  cases h : (monthLengths (isLeap year))[month - 1]? with
  | none => exact Nat.zero_le _
  | some length => exact hall _ _ (List.mem_of_getElem? h)

section Valid

variable {d d' : Date} (hd : d.Valid)

include hd

/-- A day comes before the days of later months. -/
theorem lt_of_month_lt {month : ℕ} (h : d.month < month) :
    total ((monthLengths (isLeap d.year)).take (d.month - 1)) + (d.day - 1) <
      total ((monthLengths (isLeap d.year)).take (month - 1)) := by
  have hmonth := hd.month
  have hday := hd.day
  rw [monthLength] at hday
  have hsucc := total_take_succ (monthLengths (isLeap d.year)) (d.month - 1)
  have hmono := total_take_mono (monthLengths (isLeap d.year))
    (show d.month - 1 + 1 ≤ month - 1 by omega)
  omega

/-- A day comes before the days of later years. -/
theorem dayNumber_lt_of_year_lt {year : ℕ} (h : d.year < year) :
    d.dayNumber < daysBeforeYear year := by
  obtain ⟨p, hp⟩ := Nat.exists_eq_add_of_le' hd.year
  obtain ⟨q, rfl⟩ := Nat.exists_eq_add_of_le' (Nat.one_le_of_lt h)
  -- the months of its year are twelve
  have hlast := lt_of_month_lt hd (show d.month < 13 from Nat.lt_succ_of_le hd.month.2)
  have hall : (monthLengths (isLeap d.year)).take (13 - 1) = monthLengths (isLeap d.year) := rfl
  have hsucc := daysBeforeYear_succ p
  have hmono : daysBeforeYear (p + 2) ≤ daysBeforeYear (q + 1) := daysBeforeYear_mono (by omega)
  rw [hall, hp] at hlast
  rw [dayNumber, hp]
  omega

theorem dayNumber_lt (h : d.parts < d'.parts) : d.dayNumber < d'.dayNumber := by
  simp only [parts, List.cons_lt_cons_iff, List.not_lt_nil, and_false, or_false] at h
  rcases h with hyear | ⟨hyear, hmonth | ⟨hmonth, hday⟩⟩
  · have hbefore := dayNumber_lt_of_year_lt hd hyear
    rw [dayNumber] at hbefore ⊢
    rw [dayNumber]
    omega
  · have hbefore := lt_of_month_lt hd hmonth
    rw [dayNumber, dayNumber, ← hyear]
    omega
  · have hfirst := hd.day.1
    rw [dayNumber, dayNumber, ← hyear, ← hmonth]
    omega

/-- Days are numbered in the order of their dates. -/
theorem dayNumber_lt_iff (hd' : d'.Valid) : d.dayNumber < d'.dayNumber ↔ d.parts < d'.parts := by
  refine ⟨fun h => ?_, dayNumber_lt hd⟩
  rcases lt_trichotomy d.parts d'.parts with hlt | heq | hgt
  · exact hlt
  · rw [parts_injective heq] at h
    exact absurd h (lt_irrefl _)
  · exact absurd h (dayNumber_lt hd' hgt).not_gt

theorem dayNumber_inj (hd' : d'.Valid) : d.dayNumber = d'.dayNumber ↔ d = d' := by
  rw [eq_iff_eq_of_lt_iff_lt (dayNumber_lt_iff hd hd') (dayNumber_lt_iff hd' hd),
    parts_injective.eq_iff]

end Valid

end Date

/-! ### Readings -/

namespace Reading

/-- The parts of the time of a reading, the longest one first. -/
def timeParts (u : Reading) : List ℕ := [u.time.hour, u.time.minute, u.time.second, u.time.micro]

/-- All parts of a reading. -/
def parts (u : Reading) : List ℕ := u.date.parts ++ u.timeParts

theorem parts_injective : Function.Injective parts := by
  rintro ⟨d, h, m, s, us⟩ ⟨d', h', m', s', us'⟩ heq
  obtain ⟨hdate, htime⟩ := List.append_inj heq rfl
  obtain rfl := Date.parts_injective hdate
  simpa [timeParts] using htime

/-- A clock can show this, with a year that has four digits at most. -/
structure Valid (u : Reading) : Prop where
  date : u.date.Valid
  year : u.date.year ≤ 9999
  hour : u.time.hour < 24
  minute : u.time.minute < 60
  second : u.time.second < 60
  micro : u.time.micro < 1000000

theorem badDatePart?_eq_none_iff (d : Date) :
    badDatePart? d.year d.month d.day = none ↔ d.Valid ∧ d.year ≤ 9999 := by
  unfold badDatePart?
  rw [Int.toNat_natCast, Int.toNat_natCast]
  split_ifs
  · refine iff_of_false nofun fun h => ?_
    have := h.1.year
    omega
  · refine iff_of_false nofun fun h => ?_
    have := h.1.month
    omega
  · refine iff_of_false nofun fun h => ?_
    have := h.1.day
    omega
  · exact iff_of_true rfl ⟨⟨by omega, by omega, by omega⟩, by omega⟩

theorem badTimePart?_eq_none_iff (t : TimeOfDay) :
    badTimePart? t.hour t.minute t.second t.micro = none ↔
      t.hour < 24 ∧ t.minute < 60 ∧ t.second < 60 ∧ t.micro < 1000000 := by
  unfold badTimePart?
  split_ifs <;> first | exact iff_of_false nofun (by omega) | exact iff_of_true rfl (by omega)

/-- A reading can be shown just when nothing is wrong with any part. -/
theorem valid_iff_no_badPart (u : Reading) :
    u.Valid ↔ (badDatePart? u.date.year u.date.month u.date.day).or
      (badTimePart? u.time.hour u.time.minute u.time.second u.time.micro) = none := by
  rw [Option.or_eq_none_iff, badDatePart?_eq_none_iff, badTimePart?_eq_none_iff]
  exact ⟨fun h => ⟨⟨h.date, h.year⟩, h.hour, h.minute, h.second, h.micro⟩,
    fun h => ⟨h.1.1, h.1.2, h.2.1, h.2.2.1, h.2.2.2.1, h.2.2.2.2⟩⟩

theorem Valid.all_isSmall {u : Reading} (h : u.Valid) :
    ([(u.date.year : ℤ), u.date.month, u.date.day, u.time.hour, u.time.minute, u.time.second,
      u.time.micro]).all isSmall = true := by
  have := h.date.day.2.trans (Date.monthLength_le _ _)
  have := h.date.month
  have := h.year
  have := h.hour
  have := h.minute
  have := h.second
  have := h.micro
  simp only [List.all_eq_true, List.forall_mem_cons, isSmall, Bool.and_eq_true, decide_eq_true_eq]
  refine ⟨?_, ?_, ?_, ?_, ?_, ?_, ?_, nofun⟩ <;> omega

/-- These are the readings that can be given part by part. -/
theorem valid_iff (u : Reading) :
    u.Valid ↔ ofParts u.date.year u.date.month u.date.day u.time.hour u.time.minute u.time.second
      u.time.micro = .ok u := by
  rw [ofParts]
  constructor
  · intro h
    rw [if_pos h.all_isSmall, (valid_iff_no_badPart u).1 h]
    rfl
  · intro h
    split at h
    · split at h
      · cases h
      · rename_i hnone
        exact (valid_iff_no_badPart u).2 hnone
    · cases h

end Reading

namespace Instant

open Reading

/-- How far into its day a reading is. -/
def timeMicros (u : Reading) : ℕ :=
  ((u.time.hour * 60 + u.time.minute) * 60 + u.time.second) * 1000000 + u.time.micro

theorem micros_ofReading (u : Reading) :
    (ofReading u 0).micros = ((u.date.dayNumber * dayLength + timeMicros u : ℕ) : ℤ) := by
  simp [ofReading, Reading.micros, timeMicros]

theorem timeMicros_lt {u : Reading} (hu : u.Valid) : timeMicros u < dayLength := by
  have := hu.hour
  have := hu.minute
  have := hu.second
  have := hu.micro
  rw [timeMicros, dayLength]
  omega

theorem timeMicros_lt_iff {u u' : Reading} (hu : u.Valid) (hu' : u'.Valid) :
    timeMicros u < timeMicros u' ↔ u.timeParts < u'.timeParts := by
  have := hu.minute
  have := hu.second
  have := hu.micro
  have := hu'.minute
  have := hu'.second
  have := hu'.micro
  simp only [timeParts, List.cons_lt_cons_iff, List.not_lt_nil, and_false, or_false, timeMicros]
  omega

theorem micros_lt_iff {u u' : Reading} (hu : u.Valid) (hu' : u'.Valid) :
    (ofReading u 0).micros < (ofReading u' 0).micros ↔ u.parts < u'.parts := by
  have htime := timeMicros_lt hu
  have htime' := timeMicros_lt hu'
  rw [parts, parts, append_lt_append_iff (show u.date.parts.length = u'.date.parts.length from rfl),
    ← Date.dayNumber_lt_iff hu.date hu'.date, Date.parts_injective.eq_iff,
    ← Date.dayNumber_inj hu.date hu'.date, ← timeMicros_lt_iff hu hu', micros_ofReading,
    micros_ofReading, Int.ofNat_lt]
  rw [dayLength] at *
  omega

/-! ### What a clock shows -/

/-- A clock that is not ahead shows this in the years 1 to 9999. -/
structure Shows (u : Reading) (t : Instant) : Prop where
  valid : u.Valid
  instant : ofReading u 0 = t

theorem Shows.unique {u u' : Reading} {t : Instant} (h : Shows u t) (h' : Shows u' t) : u = u' := by
  rw [← parts_injective.eq_iff, ← eq_iff_eq_of_lt_iff_lt (micros_lt_iff h.valid h'.valid)
    (micros_lt_iff h'.valid h.valid), h.instant, h'.instant]

theorem year_readingOf_le {n : ℕ} (h : n < calendarEnd) : (readingOf n).date.year ≤ 9999 := by
  by_contra hyear
  obtain ⟨q, hq⟩ := Nat.exists_eq_add_of_le' (show 1 ≤ (readingOf n).date.year by omega)
  have hmono : Date.daysBeforeYear 10000 ≤ Date.daysBeforeYear (q + 1) :=
    Date.daysBeforeYear_mono (by omega)
  have hday : (readingOf n).date.dayNumber = n / dayLength := Date.dayNumber_ofDayNumber _
  rw [Date.dayNumber, hq] at hday
  have hbefore : n / dayLength < Date.daysBeforeYear 10000 :=
    (Nat.div_lt_iff_lt_mul (by decide)).2 h
  omega

theorem shows_readingOf {n : ℕ} (h : n < calendarEnd) : Shows (readingOf n) ⟨n⟩ where
  valid := {
    date := Date.valid_ofDayNumber _
    year := year_readingOf_le h
    hour := by simp only [readingOf, dayLength]; omega
    minute := Nat.mod_lt _ (by decide)
    second := Nat.mod_lt _ (by decide)
    micro := Nat.mod_lt _ (by decide) }
  instant := ofReading_readingOf n

theorem Shows.in_calendar {u : Reading} {t : Instant} (h : Shows u t) :
    0 ≤ t.micros ∧ t.micros < calendarEnd := by
  have hday : u.date.dayNumber < Date.daysBeforeYear 10000 :=
    Date.dayNumber_lt_of_year_lt h.valid.date (Nat.lt_succ_of_le h.valid.year)
  have htime := timeMicros_lt h.valid
  have hmul := Nat.mul_le_mul_right dayLength (Nat.succ_le_of_lt hday)
  rw [Nat.succ_mul] at hmul
  rw [← h.instant, micros_ofReading, calendarEnd]
  refine ⟨Int.natCast_nonneg _, Int.ofNat_lt.2 ?_⟩
  omega

/-- An instant is shown at all just when it lies in the calendar. -/
theorem exists_shows_iff (t : Instant) :
    (∃ u, Shows u t) ↔ 0 ≤ t.micros ∧ t.micros < calendarEnd := by
  refine ⟨fun ⟨u, hu⟩ => hu.in_calendar, fun ⟨hpos, hlt⟩ => ⟨readingOf t.micros.toNat, ?_⟩⟩
  have hshows := shows_readingOf (n := t.micros.toNat) (by omega)
  rwa [Int.toNat_of_nonneg hpos] at hshows

end Instant

end PropertyGraph
