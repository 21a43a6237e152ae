/-!
# Misreadings

Why a text cannot be read.  A text that has not the form which is asked for is one fault; an
integer in base ten with more digits than are read is another.  Of several faults the one counts
that comes first in the text, so that readers stop at it.
-/

namespace PropertyGraph

/-- Why a text cannot be read. -/
inductive Misreading where
  | malformed
  /-- An integer has this many digits. -/
  | tooManyDigits (count : Nat)
deriving DecidableEq, Repr

/-- What reading gives. -/
abbrev Attempt (α : Type) := Except Misreading α

namespace Misreading

/-- What there is, where nothing means that the text has another form. -/
def orMalformed : Option α → Attempt α
  | some a => .ok a
  | none => .error .malformed

/-- The fault that a text has another form. -/
def refuse : Attempt α := .error .malformed

@[simp] theorem orMalformed_eq_ok_iff (a? : Option α) (a : α) :
    orMalformed a? = .ok a ↔ a? = some a := by
  cases a? <;> simp [orMalformed]

end Misreading

end PropertyGraph
