import Mathlib.Data.List.Forall2
import Mathlib.Data.String.Basic
import PropertyGraph.Proofs.Fact.Legibility
import PropertyGraph.Proofs.Instant.Calendar

/-!
# The text of an instant

The text gives the parts of what a clock that is not ahead shows, each but the year with a fixed
count of digits.  So the millisecond of an instant can be told from its text, and where the years
have four digits, texts are in the order of the instants (`Instant.text_ofReading`).
-/

namespace PropertyGraph

/-! ### Marked numbers -/

namespace Digits

/-- Numbers with the counts of digits that they are given and a mark after each. -/
def marked (shape : List (ℕ × Char)) (ns : List ℕ) : List Char :=
  (shape.zip ns).flatMap fun p => fixed 10 p.1.1 p.2 ++ [p.1.2]

/-- Numbers that have no more digits than they are given. -/
def Fits (shape : List (ℕ × Char)) (ns : List ℕ) : Prop :=
  List.Forall₂ (fun p n => n < 10 ^ p.1) shape ns

variable {shape : List (ℕ × Char)} {ms ns : List ℕ}

theorem marked_cons (p : ℕ × Char) (shape : List (ℕ × Char)) (n : ℕ) (ns : List ℕ) :
    marked (p :: shape) (n :: ns) = fixed 10 p.1 n ++ p.2 :: marked shape ns := by
  simp [marked]

theorem marked_inj (hm : Fits shape ms) (hn : Fits shape ns) :
    marked shape ms = marked shape ns ↔ ms = ns := by
  refine ⟨fun h => ?_, fun h => h ▸ rfl⟩
  induction hm generalizing ns with
  | nil => cases hn; rfl
  | cons hlt _ ih =>
    cases hn with
    | cons hlt' hn =>
      rw [marked_cons, marked_cons] at h
      obtain ⟨hfirst, hrest⟩ := List.append_inj h (by simp)
      rw [(fixed_inj (by decide) (by decide) hlt hlt').1 hfirst, ih hn (List.cons.inj hrest).2]

/-- Texts of one shape are in the order of their numbers. -/
theorem marked_lt_iff (hm : Fits shape ms) (hn : Fits shape ns) :
    marked shape ms < marked shape ns ↔ ms < ns := by
  induction hm generalizing ns with
  | nil => cases hn; simp [marked]
  | cons hlt _ ih =>
    cases hn with
    | cons hlt' hn =>
      rw [marked_cons, marked_cons, append_lt_append_iff (by simp), List.cons_lt_cons_iff,
        List.cons_lt_cons_iff, ih hn, fixed_lt_iff (by decide) (by decide) hlt hlt',
        fixed_inj (by decide) (by decide) hlt hlt']
      simp

end Digits

open Digits

/-! ### Readings to the millisecond -/

namespace Reading

/-- A reading without what is less than a millisecond. -/
def truncated (u : Reading) : Reading :=
  { u with time := { u.time with micro := u.time.micro / 1000 * 1000 } }

/-- What follows the year in the text of a reading. -/
def textParts (u : Reading) : List ℕ :=
  [u.date.month, u.date.day, u.time.hour, u.time.minute, u.time.second, u.time.micro / 1000]

/-- How what follows the year is written. -/
def textShape : List (ℕ × Char) := [(2, '-'), (2, 'T'), (2, ':'), (2, ':'), (2, '.'), (3, 'Z')]

theorem fits_textParts {u : Reading} (hu : u.Valid) : Fits textShape u.textParts := by
  have := hu.date.day.2.trans (Date.monthLength_le _ _)
  have := hu.date.month
  have := hu.hour
  have := hu.minute
  have := hu.second
  have := hu.micro
  refine .cons ?_ (.cons ?_ (.cons ?_ (.cons ?_ (.cons ?_ (.cons ?_ .nil)))))
  all_goals dsimp only; omega

theorem valid_truncated {u : Reading} (hu : u.Valid) : u.truncated.Valid where
  date := hu.date
  year := hu.year
  hour := hu.hour
  minute := hu.minute
  second := hu.second
  micro := (Nat.div_mul_le_self _ _).trans_lt hu.micro

theorem parts_truncated_lt_iff (u u' : Reading) :
    u.truncated.parts < u'.truncated.parts ↔
      u.date.year :: u.textParts < u'.date.year :: u'.textParts := by
  simp only [parts, Date.parts, timeParts, truncated, textParts, List.cons_append, List.nil_append,
    List.cons_lt_cons_iff, List.not_lt_nil, and_false, or_false]
  omega

end Reading

namespace Instant

open Reading

theorem toList_padded {width n : ℕ} (hwidth : 0 < width) (hn : n < 10 ^ width) :
    (padded width n).toList = fixed 10 width n := by
  rw [padded, String.toList_ofList, zeros_append_toDigits (by decide) hn hwidth]

theorem toList_readingText {u : Reading} (hu : u.Valid) :
    (readingText u).toList =
      Nat.toDigits 10 u.date.year ++ '-' :: marked textShape u.textParts := by
  have hyear : (toString u.date.year).toList = Nat.toDigits 10 u.date.year := Nat.toList_repr
  have hfits : ∀ p ∈ textShape.zip u.textParts, (padded p.1.1 p.2).toList = fixed 10 p.1.1 p.2 := by
    rintro ⟨⟨width, mark⟩, n⟩ hp
    have hlt : n < 10 ^ width := (List.forall₂_iff_zip.1 (fits_textParts hu)).2 hp
    refine toList_padded ?_ hlt
    have hwidths : ∀ q ∈ textShape, 0 < q.1 := by decide
    exact hwidths _ (List.of_mem_zip hp).1
  simp only [textShape, textParts, List.zip_cons_cons, List.zip_nil_right,
    List.forall_mem_cons] at hfits
  obtain ⟨hmonth, hday, hhour, hminute, hsecond, hmilli, -⟩ := hfits
  simp only [readingText, String.toList_append, hyear, hmonth, hday, hhour, hminute, hsecond,
    hmilli, textShape, textParts, marked]
  simp

/-- A text tells the millisecond. -/
theorem readingText_inj {u u' : Reading} (hu : u.Valid) (hu' : u'.Valid) :
    readingText u = readingText u' ↔
      u.date.year :: u.textParts = u'.date.year :: u'.textParts := by
  rw [← String.toList_inj, toList_readingText hu, toList_readingText hu', List.cons.injEq]
  constructor
  · intro h
    have hdigits : ∀ n, ∀ c ∈ Nat.toDigits 10 n, ¬ c = '-' := by
      rintro n c hc rfl
      exact absurd (isDigit_of_mem_toDigits hc) (by decide)
    obtain ⟨hyear, hrest⟩ := legible_upTo (· = '-') (hdigits u.date.year) (hdigits u'.date.year)
      ⟨_, rfl, rfl⟩ ⟨_, rfl, rfl⟩ h
    refine ⟨?_, (marked_inj (fits_textParts hu) (fits_textParts hu')).1 (List.cons.inj hrest).2⟩
    exact toDigits_injective hyear
  · rintro ⟨hyear, hparts⟩
    rw [hyear, hparts]

/-- Texts with years of four digits are in the order of what they say. -/
theorem readingText_lt_iff {u u' : Reading} (hu : u.Valid) (hu' : u'.Valid)
    (hyear : 1000 ≤ u.date.year) (hyear' : 1000 ≤ u'.date.year) :
    readingText u < readingText u' ↔
      u.date.year :: u.textParts < u'.date.year :: u'.textParts := by
  have hfour : ∀ {v : Reading}, v.Valid → 1000 ≤ v.date.year →
      (readingText v).toList = marked ((4, '-') :: textShape) (v.date.year :: v.textParts) := by
    intro v hv hle
    have hlt : v.date.year < 10 ^ 4 := Nat.lt_succ_of_le hv.year
    have hlength : ¬ (Nat.toDigits 10 v.date.year).length ≤ 3 := by
      rw [Nat.length_toDigits_le_iff (by decide) (by decide)]
      omega
    rw [toList_readingText hv, marked_cons, ← zeros_append_toDigits (by decide) hlt (by decide),
      Nat.sub_eq_zero_of_le (by omega)]
    rfl
  have hfits : ∀ {v : Reading}, v.Valid →
      Fits ((4, '-') :: textShape) (v.date.year :: v.textParts) := fun hv =>
    .cons (Nat.lt_succ_of_le hv.year) (fits_textParts hv)
  rw [String.lt_iff_toList_lt, hfour hu hyear, hfour hu' hyear',
    marked_lt_iff (hfits hu) (hfits hu')]

/-! ### Instants to the millisecond -/

theorem ofReading_truncated {u : Reading} {t : Instant} (h : Shows u t) :
    ofReading u.truncated 0 = ⟨t.micros / 1000 * 1000⟩ := by
  have hmicros := micros_ofReading u
  have htruncated := micros_ofReading u.truncated
  rw [h.instant] at hmicros
  rw [Instant.mk.injEq, htruncated, hmicros]
  simp only [timeMicros, truncated, dayLength]
  omega

/-- What is shown is in the order of the milliseconds. -/
theorem milli_lt_iff {u u' : Reading} {t t' : Instant} (h : Shows u t) (h' : Shows u' t') :
    u.date.year :: u.textParts < u'.date.year :: u'.textParts ↔
      t.micros / 1000 < t'.micros / 1000 := by
  rw [← parts_truncated_lt_iff,
    ← micros_lt_iff (valid_truncated h.valid) (valid_truncated h'.valid), ofReading_truncated h,
    ofReading_truncated h']
  dsimp only
  omega

theorem text_of_shows {u : Reading} {t : Instant} (h : Shows u t) :
    t.text = .ok (readingText u) := by
  have hcalendar := h.in_calendar
  have hshows := shows_readingOf (n := t.micros.toNat) (by omega)
  rw [Int.toNat_of_nonneg hcalendar.1] at hshows
  rw [text, if_pos hcalendar, h.unique hshows]

theorem text_eq_error_iff (t : Instant) :
    t.text = .error .outsideCalendar ↔ ¬ ∃ u, Shows u t := by
  rw [exists_shows_iff, text]
  split
  · rename_i h
    exact iff_of_false nofun (absurd h)
  · rename_i h
    exact iff_of_true rfl h

/-- Whatever a clock shows and however far it is ahead: the instant has no text just when no clock
that is not ahead shows it in the years 1 to 9999; and what such a clock shows is its text, which is
that of the instant without what is less than a millisecond.  Two instants have one text just when
they lie in one millisecond, and texts with years of four digits are in the order of the
milliseconds. -/
theorem text_ofReading (r r' : Reading) (offset offset' : ℤ) :
    let t := ofReading r offset
    let t' := ofReading r' offset'
    (t.text = .error .outsideCalendar ↔ ¬ ∃ u, Shows u t) ∧
      (∀ u, Shows u t → t.text = .ok (readingText u) ∧
        Shows u.truncated ⟨t.micros / 1000 * 1000⟩ ∧ readingText u.truncated = readingText u) ∧
      ∀ u u', Shows u t → Shows u' t' →
        (t.text = t'.text ↔ t.micros / 1000 = t'.micros / 1000) ∧
        (1000 ≤ u.date.year → 1000 ≤ u'.date.year →
          (readingText u < readingText u' ↔ t.micros / 1000 < t'.micros / 1000)) := by
  intro t t'
  refine ⟨text_eq_error_iff t, fun u h => ⟨text_of_shows h, ?_, ?_⟩, fun u u' h h' => ⟨?_, ?_⟩⟩
  · exact ⟨valid_truncated h.valid, ofReading_truncated h⟩
  · rw [readingText_inj (valid_truncated h.valid) h.valid]
    simp [textParts, truncated]
  · rw [text_of_shows h, text_of_shows h', Except.ok.injEq, readingText_inj h.valid h'.valid]
    exact eq_iff_eq_of_lt_iff_lt (milli_lt_iff h h') (milli_lt_iff h' h)
  · intro hyear hyear'
    rw [readingText_lt_iff h.valid h'.valid hyear hyear', milli_lt_iff h h']

/-- Half an hour after a leap day, by a clock that is an hour behind and by one that is an hour
ahead. -/
theorem text_after_leap_day :
    let t := ofReading ⟨⟨2024, 2, 29⟩, 23, 30, 0, 1500⟩ (-3600)
    let t' := ofReading ⟨⟨2024, 3, 1⟩, 1, 30, 0, 1999⟩ 3600
    t ≠ t' ∧ t.text = t'.text ∧ t.text = .ok "2024-03-01T00:30:00.001Z" := by
  intro t t'
  have h : Shows ⟨⟨2024, 3, 1⟩, 0, 30, 0, 1500⟩ t := ⟨(valid_iff _).2 rfl, by decide⟩
  have h' : Shows ⟨⟨2024, 3, 1⟩, 0, 30, 0, 1999⟩ t' := ⟨(valid_iff _).2 rfl, by decide⟩
  obtain ⟨-, htext, hsame⟩ := text_ofReading ⟨⟨2024, 2, 29⟩, 23, 30, 0, 1500⟩
    ⟨⟨2024, 3, 1⟩, 1, 30, 0, 1999⟩ (-3600) 3600
  refine ⟨by decide, ((hsame _ _ h h').1).2 (by decide), (htext _ h).1.trans ?_⟩
  exact congrArg Except.ok (by decide)

end Instant

end PropertyGraph
