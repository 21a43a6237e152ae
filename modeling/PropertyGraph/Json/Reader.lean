import PropertyGraph.Number.Numeral
import PropertyGraph.Text.Quoted
import PropertyGraph.Value.Fields

/-!
# Reading JSON text

A text is one value with blanks around it.  The words for infinity and for a value that is not a
number count as numbers; a number with a point or an exponent is a double and any other an integer.
Of a name that a record repeats the last value stands, in the place of the first.  An escape may
write one half of a pair of UTF-16 units alone, so that a text is read as points.  Every reader
takes characters off the front of a list and gives back the rest.
-/

namespace PropertyGraph.Json

/-- Drops blanks. -/
def skipBlanks (cs : List Char) : List Char :=
  cs.dropWhile fun c => c == ' ' || c == '\t' || c == '\n' || c == '\r'

/-- Takes a word off the front. -/
def dropWord? : List Char → List Char → Option (List Char)
  | [], cs => some cs
  | w :: ws, c :: cs => if w == c then dropWord? ws cs else none
  | _ :: _, [] => none

/-! ### Texts -/

/-- The value of a digit in base sixteen. -/
def hexValue? (c : Char) : Option Nat :=
  if '0' ≤ c && c ≤ '9' then some (c.toNat - 48)
  else if 'a' ≤ c && c ≤ 'f' then some (c.toNat - 87)
  else if 'A' ≤ c && c ≤ 'F' then some (c.toNat - 55)
  else none

/-- Four digits in base sixteen. -/
def hex4? : List Char → Option (Nat × List Char)
  | a :: b :: c :: d :: rest => do
    some (4096 * (← hexValue? a) + 256 * (← hexValue? b) + 16 * (← hexValue? c) + (← hexValue? d),
      rest)
  | _ => none

/-- The character that an escaping letter stands for. -/
def escapedBy? (c : Char) : Option Char :=
  if c == Text.doubleQuote || c == '\\' || c == '/' then some c
  else if c == 'n' then some '\n'
  else if c == 'r' then some '\r'
  else if c == 't' then some '\t'
  else if c == 'f' then some '\x0c'
  else if c == 'b' then some '\x08'
  else none

/-- The low half of a pair of UTF-16 units, where one is written next. -/
def lowUnit? : List Char → Option (Nat × List Char)
  | '\\' :: 'u' :: rest => do
    let (n, rest) ← hex4? rest
    if 0xdc00 ≤ n ∧ n < 0xe000 then some (n, rest) else none
  | _ => none

/-- What the UTF-16 unit `n` stands for: one half of a pair, which the other half may follow, or a
character. -/
def unitPoint (n : Nat) (rest : List Char) : Text.Point × List Char :=
  if Text.isHalf n then
    match lowUnit? rest with
    | some (low, after) =>
      if n < 0xdc00 then
        (.char (Char.ofNat (0x10000 + (n - 0xd800) * 0x400 + (low - 0xdc00))), after)
      else (.half n, rest)
    | none => (.half n, rest)
  else (.char (Char.ofNat n), rest)

/-- What is written up to the closing quote, and the rest; a backslash keeps the next character from
closing the text. -/
def upToQuote? : List Char → Option (List Char × List Char)
  | [] => none
  | '\\' :: c :: rest => (upToQuote? rest).map fun p => ('\\' :: c :: p.1, p.2)
  | c :: rest =>
    if c == Text.doubleQuote then some ([], rest)
    else (upToQuote? rest).map fun p => (c :: p.1, p.2)

/-- The points that are written; `fuel` bounds how many characters there are. -/
def points? : Nat → List Char → Option (List Text.Point)
  | _, [] => some []
  | 0, _ :: _ => none
  | fuel + 1, c :: rest =>
    if c == '\\' then
      match rest with
      | 'u' :: more => do
        let (n, more) ← hex4? more
        let (p, more) := unitPoint n more
        return p :: (← points? fuel more)
      | e :: more => do
        let c ← escapedBy? e
        return .char c :: (← points? fuel more)
      | [] => none
    else if c.toNat < 32 then none
    else do return .char c :: (← points? fuel rest)

/-- A text whose opening quote has been read. -/
def string? (cs : List Char) : Option (Value × List Char) := do
  let (written, rest) ← upToQuote? cs
  return (Value.ofPoints (← points? written.length written), rest)

/-! ### Numbers -/

/-- The digits of an integer: a zero alone, or digits that start with no zero. -/
def wholeDigits? (cs : List Char) : Option (List Char × List Char) :=
  match cs with
  | '0' :: rest => some (['0'], rest)
  | _ =>
    let digits := cs.takeWhile Numeral.isDigit
    if digits.isEmpty then none else some (digits, cs.dropWhile Numeral.isDigit)

/-- The digits after a point, where a point and a digit come next. -/
def places (cs : List Char) : List Char × List Char :=
  match cs with
  | '.' :: rest =>
    let digits := rest.takeWhile Numeral.isDigit
    if digits.isEmpty then ([], cs) else (digits, rest.dropWhile Numeral.isDigit)
  | _ => ([], cs)

/-- The exponent, where a letter for it, a sign and a digit come next. -/
def exponent (cs : List Char) : Option Int × List Char :=
  match cs with
  | c :: rest =>
    let (negative, rest) := Numeral.sign rest
    let digits := rest.takeWhile Numeral.isDigit
    if (c == 'e' || c == 'E') && !digits.isEmpty then
      let n : Int := Numeral.natOf digits
      (some (if negative then -n else n), rest.dropWhile Numeral.isDigit)
    else (none, cs)
  | [] => (none, cs)

/-- A number after its sign. -/
def unsigned (negative : Bool) (cs : List Char) : Attempt (Value × List Char) := do
  let (whole, rest) ← Misreading.orMalformed (wholeDigits? cs)
  let (fraction, rest) := places rest
  let (power, rest) := exponent rest
  if fraction.isEmpty && power.isNone then
    return (.int (← Numeral.ofDigits negative whole), rest)
  else
    let x := Numeral.scientific (Numeral.natOf (whole ++ fraction))
      (power.getD 0 - fraction.length)
    return (.float (Numeral.signed negative x), rest)

/-- The words that are values, with what they stand for. -/
def words : List (String × Value) := [
  ("null", .null), ("true", .bool true), ("false", .bool false),
  ("NaN", .float Numeral.notANumber), ("Infinity", .float Numeral.infinity),
  ("-Infinity", .float (-Numeral.infinity))]

/-- A word or a number. -/
def scalar (cs : List Char) : Attempt (Value × List Char) :=
  match words.findSome? fun w => (dropWord? w.1.toList cs).map fun rest => (w.2, rest) with
  | some found => .ok found
  | none => match cs with
    | '-' :: rest => unsigned true rest
    | _ => unsigned false cs

/-! ### Values -/

/-- A name and the colon after it. -/
def name? : List Char → Option (Value × List Char)
  | c :: rest => do
    if c == Text.doubleQuote then
      let (key, rest) ← string? rest
      match skipBlanks rest with
      | ':' :: rest => some (key, skipBlanks rest)
      | _ => none
    else none
  | [] => none

mutual

/-- A value; `fuel` bounds how many characters may be looked at. -/
def value : Nat → List Char → Attempt (Value × List Char)
  | 0, _ | _ + 1, [] => Misreading.refuse
  | fuel + 1, c :: rest =>
    if c == Text.doubleQuote then Misreading.orMalformed (string? rest)
    else if c == '[' then
      match skipBlanks rest with
      | ']' :: more => .ok (.list [], more)
      | more => do
        let (vs, more) ← items fuel more
        return (.list vs, more)
    else if c == '\x7b' then
      match skipBlanks rest with
      | '\x7d' :: more => .ok (.record [], more)
      | more => do
        let (ps, more) ← fields fuel more
        return (Value.ofPairs ps, more)
    else scalar (c :: rest)

/-- The items of a list, one at least, and the closing bracket. -/
def items : Nat → List Char → Attempt (List Value × List Char)
  | 0, _ => Misreading.refuse
  | fuel + 1, cs => do
    let (v, rest) ← value fuel cs
    match skipBlanks rest with
    | ',' :: rest =>
      let (vs, rest) ← items fuel (skipBlanks rest)
      return (v :: vs, rest)
    | ']' :: rest => return ([v], rest)
    | _ => Misreading.refuse

/-- The fields of a record, one at least, and the closing brace. -/
def fields : Nat → List Char → Attempt (List (Value × Value) × List Char)
  | 0, _ => Misreading.refuse
  | fuel + 1, cs => do
    let (key, rest) ← Misreading.orMalformed (name? cs)
    let (v, rest) ← value fuel rest
    match skipBlanks rest with
    | ',' :: rest =>
      let (ps, rest) ← fields fuel (skipBlanks rest)
      return ((key, v) :: ps, rest)
    | '\x7d' :: rest => return ([(key, v)], rest)
    | _ => Misreading.refuse

end

/-- The value that a text writes. -/
def read (s : String) : Attempt Value := do
  let cs := skipBlanks s.toList
  let (v, rest) ← value (2 * cs.length + 2) cs
  if (skipBlanks rest).isEmpty then return v else Misreading.refuse

end PropertyGraph.Json
