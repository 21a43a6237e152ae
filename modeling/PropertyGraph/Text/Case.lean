import PropertyGraph.Text.CaseTable

/-!
# Capital and small letters

The capitals and the small letters of a text, in every script.  A letter may have several capitals,
and the dotted capital i becomes two characters when it is made small.  The small form of a sigma
depends on its place: there is one for the end of a word.  A text of ASCII letters is changed
letter by letter (`capitals_of_ascii`, `smalls_of_ascii`).
-/

namespace PropertyGraph.Text

/-- The counterpart of the code point `n`, if it belongs to a run. -/
def CaseRun.counterpart? (r : CaseRun) (n : Nat) : Option Nat :=
  if r.first ≤ n ∧ n ≤ r.last ∧ (n - r.first) % r.step = 0 then some (n + r.shift).toNat else none

/-- The counterpart of a character in some runs, or else the character. -/
def counterpart (runs : List CaseRun) (c : Char) : Char :=
  match runs.findSome? (·.counterpart? c.toNat) with
  | some n => Char.ofNat n
  | none => c

/-- The capitals of a character. -/
def capitals (c : Char) : List Char :=
  if c.toNat < 128 then [c.toUpper]
  else match capitalGroups.lookup c.toNat with
    | some ns => ns.map Char.ofNat
    | none => [counterpart capitalRuns c]

/-- The capital i with a dot, whose small form keeps the dot as a character of its own. -/
def dottedCapitalI : Char := Char.ofNat 0x130

/-- The small letters of a character, wherever it stands. -/
def smalls (c : Char) : List Char :=
  if c.toNat < 128 then [c.toLower]
  else if c == dottedCapitalI then ['i', Char.ofNat 0x307]
  else [counterpart smallRuns c]

/-- Whether a code point has a property, given the code points at which that changes. -/
def switchedOn (switches : List Nat) (n : Nat) : Bool :=
  (switches.takeWhile (· ≤ n)).length % 2 = 1

/-- Whether a letter comes next, after characters that are passed over. -/
def letterNext (cs : List Char) : Bool :=
  match cs.dropWhile fun c => switchedOn passedOverSwitches c.toNat with
  | c :: _ => switchedOn casedSwitches c.toNat
  | [] => false

/-- The capital sigma. -/
def capitalSigma : Char := Char.ofNat 0x3a3

/-- The small sigma that ends a word. -/
def finalSigma : Char := Char.ofNat 0x3c2

/-- The small letters of a text that follows `before`, which is given backwards. -/
def lowerAfter (before : List Char) : List Char → List Char
  | [] => []
  | c :: rest =>
    let small :=
      if c == capitalSigma && letterNext before && !letterNext rest then [finalSigma] else smalls c
    small ++ lowerAfter (c :: before) rest

/-- A text in capitals. -/
def upper (s : String) : String := String.ofList (s.toList.flatMap capitals)

/-- A text in small letters. -/
def lower (s : String) : String := String.ofList (lowerAfter [] s.toList)

theorem capitals_of_ascii {c : Char} (h : c.toNat < 128) : capitals c = [c.toUpper] := by
  simp [capitals, h]

theorem smalls_of_ascii {c : Char} (h : c.toNat < 128) : smalls c = [c.toLower] := by
  simp [smalls, h]

end PropertyGraph.Text
