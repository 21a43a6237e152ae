import PropertyGraph.Failure

/-!
# Instants

An instant is counted in microseconds from the start of the year 1.  Its text gives date and time
to the millisecond, what is left of it being dropped; only the years 1 to 9999 have one, and the
year is written without leading zeros.
-/

namespace PropertyGraph

/-- A moment, in microseconds from the start of the year 1. -/
structure Instant where
  micros : Int
deriving DecidableEq, Repr

namespace Reading

/-- Whether a number can be a part of a reading at all. -/
def isSmall (n : Int) : Bool := -0x80000000 ≤ n && n < 0x80000000

/-- The reading of seven parts, each of which must be in its range. -/
def ofParts (year month day hour minute second micro : Int) : Result Reading :=
  if [year, month, day, hour, minute, second, micro].all isSmall then
    match (badDatePart? year month day).or (badTimePart? hour minute second micro) with
    | some p => .error (.badPart p)
    | none =>
      .ok ⟨⟨year.toNat, month.toNat, day.toNat⟩,
        ⟨hour.toNat, minute.toNat, second.toNat, micro.toNat⟩⟩
  else .error .tooLarge

/-- The reading of three to seven parts; those that are left out are zero. -/
def ofList (parts : List Int) : Result Reading :=
  let part (i : Nat) : Int := (parts[i]?).getD 0
  if (parts.take 7).all isSmall then
    if 3 ≤ parts.length ∧ parts.length ≤ 7 then
      ofParts (part 0) (part 1) (part 2) (part 3) (part 4) (part 5) (part 6)
    else .error (.misfit .wrongCount)
  else .error .tooLarge

end Reading

/-- Checks that a clock can be so many seconds ahead: less than a day, in both directions. -/
def checkOffset (seconds : Int) : Result Unit :=
  if 999999999 < (seconds / 86400).natAbs then .error .tooLarge
  else if 86400 ≤ seconds.natAbs then .error (.badOffset seconds)
  else .ok ()

namespace Instant

/-- The first moment after the calendar. -/
def calendarEnd : Nat := Date.daysBeforeYear 10000 * dayLength

/-- The moment at which a clock shows a reading that is `offset` seconds ahead. -/
def ofReading (r : Reading) (offset : Int) : Instant :=
  ⟨Int.ofNat r.micros - offset * 1000000⟩

/-- What a clock shows `n` microseconds after the start of the year 1. -/
def readingOf (n : Nat) : Reading :=
  let time := n % dayLength
  { date := Date.ofDayNumber (n / dayLength)
    time :=
      { hour := time / 3600000000
        minute := time / 60000000 % 60
        second := time / 1000000 % 60
        micro := time % 1000000 } }

/-- A number with at least `width` digits. -/
def padded (width n : Nat) : String :=
  let digits := Nat.toDigits 10 n
  String.ofList (List.replicate (width - digits.length) '0' ++ digits)

/-- A reading to the millisecond. -/
def readingText (r : Reading) : String :=
  toString r.date.year ++ "-" ++ padded 2 r.date.month ++ "-" ++ padded 2 r.date.day ++ "T" ++
    padded 2 r.time.hour ++ ":" ++ padded 2 r.time.minute ++ ":" ++ padded 2 r.time.second ++
    "." ++ padded 3 (r.time.micro / 1000) ++ "Z"

/-- The text of a moment, if it lies in the calendar. -/
def text (t : Instant) : Result String :=
  if 0 ≤ t.micros ∧ t.micros < calendarEnd then .ok (readingText (readingOf t.micros.toNat))
  else .error .outsideCalendar

/-- A moment has a text exactly when it lies in the calendar. -/
theorem text_isOk_iff (t : Instant) :
    (∃ s, t.text = .ok s) ↔ 0 ≤ t.micros ∧ t.micros < calendarEnd := by
  unfold text
  split <;> simp_all

/-- The reading of a moment shows that moment. -/
theorem ofReading_readingOf (n : Nat) : ofReading (readingOf n) 0 = ⟨n⟩ := by
  simp only [ofReading, Reading.micros, readingOf, Date.dayNumber_ofDayNumber, dayLength,
    Instant.mk.injEq]
  have e₁ : n % 86400000000 / 60000000 = n % 86400000000 / 1000000 / 60 := by
    rw [Nat.div_div_eq_div_mul]
  have e₂ : n % 86400000000 / 3600000000 = n % 86400000000 / 60000000 / 60 := by
    rw [Nat.div_div_eq_div_mul]
  simp only [Int.ofNat_eq_natCast]
  omega

end Instant

/-! ### The clock and the identifiers of new entities -/

/-- What a clock shows at the start of the year 2024. -/
def newYear : Reading := ⟨⟨2024, 1, 1⟩, 0, 0, 0, 0⟩

/-- The `n`-th moment that the clock gives: a millisecond after the one before. -/
def clockMoment (n : Nat) : Instant := ⟨(Instant.ofReading newYear 0).micros + 1000 * n⟩

/-- The text of the `n`-th moment that the clock gives. -/
def clockText (n : Nat) : Result String := (clockMoment n).text

/-- The `n`-th fresh identifier. -/
def freshId (n : Nat) : String :=
  "00000000-0000-0000-0000-" ++ String.ofList (Text.hexDigits 12 n)

end PropertyGraph
