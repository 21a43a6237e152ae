import PropertyGraph.Misreading
import PropertyGraph.Text.Class

/-!
# Numerals

Reading a number from text.  Blanks around it do not count, digits of any script are digits, and a
single underscore may stand between two digits.  An integer is a sign and digits; a double is a
sign and either digits with an optional point and exponent, or one of the words for infinity and
for a value that is not a number, and is rounded to the nearest one.  An integer of more than
`Numeral.maxDigits` digits is not read.
-/

namespace PropertyGraph.Numeral

/-- Whether a character is an ASCII digit. -/
def isDigit (c : Char) : Bool := '0' ≤ c && c ≤ '9'

/-- The natural that a list of ASCII digits writes in base ten. -/
def natOf (cs : List Char) : Nat := cs.foldl (fun n c => 10 * n + (c.toNat - 48)) 0

/-- The text of a number: digits and blanks of other scripts in ASCII, no blanks at the ends. -/
def normalized (cs : List Char) : List Char :=
  Text.stripBy Text.isNumberBlank (cs.map Text.asciiNumeral)

/-- Drops the underscores, each of which must stand between two digits; `previous` is the
character before. -/
def joinedFrom? (previous : Char) : List Char → Option (List Char)
  | [] => if previous == '_' then none else some []
  | c :: rest =>
    if c == '_' then
      if isDigit previous then joinedFrom? c rest else none
    else if previous == '_' && !isDigit c then none
    else (joinedFrom? c rest).map (c :: ·)

/-- Drops the underscores, each of which must stand between two digits. -/
def joined? (cs : List Char) : Option (List Char) := joinedFrom? ' ' cs

/-- An optional sign, and whether it is a minus. -/
def sign : List Char → Bool × List Char
  | '-' :: rest => (true, rest)
  | '+' :: rest => (false, rest)
  | cs => (false, cs)

/-- Negates a double when asked to. -/
def signed (negative : Bool) (x : Float) : Float := if negative then -x else x

/-- The double nearest to `m * 10 ^ e`. -/
def scientific (m : Nat) (e : Int) : Float := Float.ofScientific m (decide (e < 0)) e.natAbs

/-- The exponent that ends a number: none at all, or the letter, a sign and digits. -/
def exponent? : List Char → Option Int
  | [] => some 0
  | c :: rest =>
    if c == 'e' || c == 'E' then
      let (negative, digits) := sign rest
      if digits.isEmpty || !digits.all isDigit then none
      else some (if negative then -(natOf digits : Int) else natOf digits)
    else none

/-- Digits with an optional point, then an optional exponent. -/
def unsigned? (cs : List Char) : Option Float :=
  let whole := cs.takeWhile isDigit
  let rest := cs.dropWhile isDigit
  let (places, rest) := match rest with
    | '.' :: more => (more.takeWhile isDigit, more.dropWhile isDigit)
    | other => ([], other)
  let digits := whole ++ places
  if digits.isEmpty then none
  else (exponent? rest).map fun e => scientific (natOf digits) (e - places.length)

/-- The double infinity. -/
def infinity : Float := 1.0 / 0.0

/-- The double that is not a number. -/
def notANumber : Float := 0.0 / 0.0

/-- Reads a double. -/
def readFloat? (s : String) : Option Float := do
  let (negative, cs) := sign (← joined? (normalized s.toList))
  let word := String.ofList (cs.map Char.toLower)
  if word = "inf" ∨ word = "infinity" then some (signed negative infinity)
  else if word = "nan" then some notANumber
  else (unsigned? cs).map (signed negative)

/-- How many digits an integer in base ten may have. -/
def maxDigits : Nat := 4300

/-- The integer that a sign and digits write. -/
def ofDigits (negative : Bool) (digits : List Char) : Attempt Int :=
  if maxDigits < digits.length then .error (.tooManyDigits digits.length)
  else .ok (if negative then -(natOf digits : Int) else natOf digits)

/-- Reads an integer; that it has too many digits shows before what stands behind them. -/
def readInt (s : String) : Attempt Int := do
  let (negative, cs) := sign (normalized s.toList)
  let written := cs.takeWhile fun c => isDigit c || c == '_'
  let digits ← Misreading.orMalformed (joined? written)
  let n ← ofDigits negative digits
  if digits.isEmpty || written.length < cs.length then Misreading.refuse else .ok n

end PropertyGraph.Numeral
