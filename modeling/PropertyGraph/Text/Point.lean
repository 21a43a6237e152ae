/-!
# Points

A text of UTF-16 units may hold one half of a pair without the other.  What stands at one place of
such a text is a point: a character, or a half that stands alone.  A list of points is a text of
characters exactly when no half is among them (`characters?_eq_some_iff`).
-/

namespace PropertyGraph.Text

/-- What stands at one place of a text. -/
inductive Point where
  | char (c : Char)
  /-- Half of a pair that stands alone, by its UTF-16 unit. -/
  | half (unit : Nat)
deriving DecidableEq, Repr

/-- Whether a UTF-16 unit is half of a pair. -/
def isHalf (n : Nat) : Bool := 0xd800 ≤ n && n < 0xe000

/-- The number of a point, by which texts are ordered. -/
def Point.number : Point → Nat
  | .char c => c.toNat
  | .half unit => unit

/-- The characters of a text in which no half stands alone. -/
def characters? : List Point → Option (List Char)
  | [] => some []
  | .char c :: rest => (characters? rest).map (c :: ·)
  | .half _ :: _ => none

theorem characters?_eq_some_iff {ps : List Point} {cs : List Char} :
    characters? ps = some cs ↔ ps = cs.map .char := by
  induction ps generalizing cs with
  | nil => cases cs <;> simp [characters?]
  | cons p rest ih =>
    cases p with
    | half unit => cases cs <;> simp [characters?]
    | char c =>
      rw [characters?, Option.map_eq_some_iff]
      constructor
      · rintro ⟨ds, hd, rfl⟩
        rw [ih.1 hd, List.map_cons]
      · intro h
        cases cs with
        | nil => simp at h
        | cons d ds =>
          simp only [List.map_cons, List.cons.injEq, Point.char.injEq] at h
          exact ⟨ds, ih.2 h.2, by rw [h.1]⟩

end PropertyGraph.Text
