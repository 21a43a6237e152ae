import PropertyGraph.Json.Reader

/-!
# TOML values without parts

Texts in their four spellings, truth values, integers in four bases, doubles and moments.  Every
reader takes characters off the front of a list and gives back the rest.
-/

namespace PropertyGraph.Toml

/-- Whether a character is a space or a tab. -/
def isSpace (c : Char) : Bool := c == ' ' || c == '\t'

/-- Whether a character is a space, a tab or a line break. -/
def isSpaceOrBreak (c : Char) : Bool := isSpace c || c == '\n'

/-- Whether a character may stand nowhere, except as a line break. -/
def isControl (c : Char) : Bool := (c.toNat < 32 && c != '\t') || c.toNat == 127

/-- Drops a comment, up to the end of its line. -/
def skipComment? : List Char → Option (List Char)
  | '#' :: rest =>
    if (rest.takeWhile (· != '\n')).any isControl then none else some (rest.dropWhile (· != '\n'))
  | cs => some cs

/-- Drops spaces, line breaks and comments; `fuel` bounds the number of comments. -/
def skipLines? : Nat → List Char → Option (List Char)
  | 0, _ => none
  | fuel + 1, cs =>
    match cs.dropWhile isSpaceOrBreak with
    | '#' :: rest => (skipComment? ('#' :: rest)).bind (skipLines? fuel)
    | other => some other

/-! ### Texts -/

/-- The character with a number, if there is one. -/
def scalar? (n : Nat) : Option Char := if n.isValidChar then some (Char.ofNat n) else none

/-- The character that an escaping letter stands for. -/
def escapedBy? (c : Char) : Option Char :=
  if c == Text.doubleQuote || c == '\\' then some c
  else if c == 'b' then some '\x08'
  else if c == 't' then some '\t'
  else if c == 'n' then some '\n'
  else if c == 'f' then some '\x0c'
  else if c == 'r' then some '\r'
  else none

/-- What follows a backslash that is not followed by white space. -/
def escape? : List Char → Option (Char × List Char)
  | 'u' :: rest => do
    let (n, rest) ← Json.hex4? rest
    return (← scalar? n, rest)
  | 'U' :: rest => do
    let (high, rest) ← Json.hex4? rest
    let (low, rest) ← Json.hex4? rest
    return (← scalar? (0x10000 * high + low), rest)
  | c :: rest => (escapedBy? c).map fun e => (e, rest)
  | [] => none

/-- Drops the white space after a backslash that ends a line. -/
def continued? (cs : List Char) : Option (List Char) :=
  match cs.dropWhile isSpace with
  | [] => some []
  | '\n' :: rest => some (rest.dropWhile isSpaceOrBreak)
  | _ => none

/-- Whether the closing quotes of a text come next. -/
def closes (quote : Char) (lines : Bool) (cs : List Char) : Bool :=
  if lines then [quote, quote, quote].isPrefixOf cs else [quote].isPrefixOf cs

/-- The characters of a text up to its closing quotes, which are left; `lines` says whether it may
go on over several lines, and `fuel` bounds the number of characters. -/
def characters? (quote : Char) (lines : Bool) : Nat → List Char → Option (List Char × List Char)
  | 0, _ | _ + 1, [] => none
  | fuel + 1, c :: rest =>
    if closes quote lines (c :: rest) then some ([], c :: rest)
    else if c == '\\' && quote == Text.doubleQuote then
      match rest with
      | e :: _ =>
        if lines && isSpaceOrBreak e then
          (continued? rest).bind (characters? quote lines fuel)
        else do
          let (d, rest) ← escape? rest
          let (cs, rest) ← characters? quote lines fuel rest
          return (d :: cs, rest)
      | [] => none
    else if isControl c && !(lines && c == '\n') then none
    else do
      let (cs, rest) ← characters? quote lines fuel rest
      return (c :: cs, rest)

/-- A text on one line, after its opening quote. -/
def line? (quote : Char) (cs : List Char) : Option (String × List Char) := do
  let (s, rest) ← characters? quote false (cs.length + 1) cs
  return (String.ofList s, rest.drop 1)

/-- A text over several lines, after its opening quotes; up to two quotes before the closing ones
belong to it. -/
def lines? (quote : Char) (cs : List Char) : Option (String × List Char) := do
  let cs := match cs with
    | '\n' :: rest => rest
    | other => other
  let (s, rest) ← characters? quote true (cs.length + 1) cs
  let rest := rest.drop 3
  let extra := (rest.take 2).takeWhile (· == quote)
  return (String.ofList (s ++ extra), rest.drop extra.length)

/-- A text. -/
def text? : List Char → Option (String × List Char)
  | q :: rest =>
    if q == Text.doubleQuote || q == Text.singleQuote then
      if [q, q].isPrefixOf rest then lines? q (rest.drop 2) else line? q rest
    else none
  | [] => none

/-! ### Numbers -/

/-- The digits that go on a number, an underscore being allowed before each. -/
def moreDigits (p : Char → Bool) : List Char → List Char × List Char
  | '_' :: d :: rest =>
    if p d then
      let (ds, rest) := moreDigits p rest
      (d :: ds, rest)
    else ([], '_' :: d :: rest)
  | c :: rest =>
    if p c then
      let (ds, rest) := moreDigits p rest
      (c :: ds, rest)
    else ([], c :: rest)
  | [] => ([], [])

/-- One digit or more. -/
def digits? (p : Char → Bool) : List Char → Option (List Char × List Char)
  | c :: rest =>
    if p c then
      let (ds, rest) := moreDigits p rest
      some (c :: ds, rest)
    else none
  | [] => none

/-- The letters that announce a base. -/
def bases : List (Char × Nat) := [('x', 16), ('b', 2), ('o', 8)]

/-- The value of a digit in a base. -/
def digitIn? (base : Nat) (c : Char) : Option Nat :=
  (Json.hexValue? c).bind fun n => if n < base then some n else none

/-- An integer in base two, eight or sixteen. -/
def based? : List Char → Option (Value × List Char)
  | '0' :: letter :: rest => do
    let base ← bases.lookup letter
    let (ds, rest) ← digits? (fun c => (digitIn? base c).isSome) rest
    let n := ds.foldl (fun n c => base * n + (digitIn? base c).getD 0) 0
    return (.int n, rest)
  | _ => none

/-- The digits before the point: a zero alone, or digits that start with no zero. -/
def whole? : List Char → Option (List Char × List Char)
  | '0' :: rest => some (['0'], rest)
  | cs => digits? Numeral.isDigit cs

/-- The digits after a point, where a point and a digit come next. -/
def places (cs : List Char) : List Char × List Char :=
  match cs with
  | '.' :: rest => (digits? Numeral.isDigit rest).getD ([], cs)
  | _ => ([], cs)

/-- The exponent, where a letter for it, a sign and a digit come next. -/
def exponent (cs : List Char) : Option Int × List Char :=
  match cs with
  | c :: rest =>
    let (negative, rest) := Numeral.sign rest
    match digits? Numeral.isDigit rest with
    | some (ds, rest) =>
      if c == 'e' || c == 'E' then
        let n : Int := Numeral.natOf ds
        (some (if negative then -n else n), rest)
      else (none, cs)
    | none => (none, cs)
  | [] => (none, cs)

/-- A number in base ten, if one comes next. -/
def decimal? (cs : List Char) : Option (Attempt (Value × List Char)) := do
  let (negative, rest) := Numeral.sign cs
  let (whole, rest) ← whole? rest
  let (fraction, rest) := places rest
  let (power, rest) := exponent rest
  if fraction.isEmpty && power.isNone then
    some ((Numeral.ofDigits negative whole).map fun n => (.int n, rest))
  else
    let x := Numeral.scientific (Numeral.natOf (whole ++ fraction)) (power.getD 0 - fraction.length)
    some (.ok (.float (Numeral.signed negative x), rest))

/-- A double that is infinite or not a number. -/
def special? (cs : List Char) : Option (Value × List Char) :=
  let (negative, rest) := Numeral.sign cs
  match Json.dropWord? "inf".toList rest, Json.dropWord? "nan".toList rest with
  | some rest, _ => some (.float (Numeral.signed negative Numeral.infinity), rest)
  | _, some rest => some (.float Numeral.notANumber, rest)
  | none, none => none

/-- A truth value. -/
def truth? (cs : List Char) : Option (Value × List Char) :=
  match Json.dropWord? "true".toList cs, Json.dropWord? "false".toList cs with
  | some rest, _ => some (.bool true, rest)
  | _, some rest => some (.bool false, rest)
  | none, none => none

/-! ### Moments -/

/-- A number of two digits in a range. -/
def twoDigits? (low high : Nat) : List Char → Option (Nat × List Char)
  | a :: b :: rest =>
    let n := Numeral.natOf [a, b]
    if Numeral.isDigit a && Numeral.isDigit b && low ≤ n && n ≤ high then some (n, rest) else none
  | _ => none

/-- Drops a character that must come next. -/
def drop? (c : Char) : List Char → Option (List Char)
  | d :: rest => if d == c then some rest else none
  | [] => none

/-- A date, which need not exist. -/
def date? (cs : List Char) : Option (Date × List Char) := do
  let (century, rest) ← twoDigits? 0 99 cs
  let (year, rest) ← twoDigits? 0 99 rest
  let (month, rest) ← twoDigits? 1 12 (← drop? '-' rest)
  let (day, rest) ← twoDigits? 1 31 (← drop? '-' rest)
  return (⟨100 * century + year, month, day⟩, rest)

/-- The microseconds, where a point and a digit come next; digits after the sixth do not count. -/
def micros (cs : List Char) : Nat × List Char :=
  match cs with
  | '.' :: rest =>
    let digits := rest.takeWhile Numeral.isDigit
    if digits.isEmpty then (0, cs)
    else (Numeral.natOf ((digits ++ List.replicate 6 '0').take 6), rest.dropWhile Numeral.isDigit)
  | _ => (0, cs)

/-- A time of day. -/
def timeOfDay? (cs : List Char) : Option (TimeOfDay × List Char) := do
  let (hour, rest) ← twoDigits? 0 23 cs
  let (minute, rest) ← twoDigits? 0 59 (← drop? ':' rest)
  let (second, rest) ← twoDigits? 0 59 (← drop? ':' rest)
  let (micro, rest) := micros rest
  return (⟨hour, minute, second, micro⟩, rest)

/-- A time of day after the letter or the space that parts it from the date. -/
def clock? : List Char → Option (TimeOfDay × List Char)
  | c :: rest => if c == 'T' || c == 't' || c == ' ' then timeOfDay? rest else none
  | [] => none

/-- How many seconds some hours and minutes have. -/
def hoursAndMinutes? (cs : List Char) : Option (Int × List Char) := do
  let (hours, rest) ← twoDigits? 0 23 cs
  let (minutes, rest) ← twoDigits? 0 59 (← drop? ':' rest)
  return (3600 * hours + 60 * minutes, rest)

/-- How far ahead the clock is, where that is written next. -/
def zone (cs : List Char) : Option Int × List Char :=
  match cs with
  | c :: rest =>
    if c == 'Z' || c == 'z' then (some 0, rest)
    else match hoursAndMinutes? rest with
      | some (n, rest) =>
        if c == '+' then (some n, rest) else if c == '-' then (some (-n), rest) else (none, cs)
      | none => (none, cs)
  | [] => (none, cs)

/-- Whether a date exists. -/
def isOnCalendar (d : Date) : Bool := (Reading.badDatePart? d.year d.month d.day).isNone

/-- A moment, if one comes next; its date must exist. -/
def moment? (cs : List Char) : Option (Attempt (Value × List Char)) :=
  match date? cs with
  | some (d, rest) =>
    if isOnCalendar d then
      match clock? rest with
      | some (t, rest) =>
        let (offset, rest) := zone rest
        some (.ok (.moment (.reading ⟨d, t⟩ offset), rest))
      | none => some (.ok (.moment (.day d), rest))
    else some Misreading.refuse
  | none => (timeOfDay? cs).map fun p => .ok (.moment (.time p.1), p.2)

/-- A value without parts. -/
def scalar (cs : List Char) : Attempt (Value × List Char) :=
  let found : Option (Attempt (Value × List Char)) :=
    ((text? cs).map fun p => .ok (.text p.1, p.2)) <|> (truth? cs).map .ok <|> moment? cs <|>
      (based? cs).map .ok <|> decimal? cs <|> (special? cs).map .ok
  found.getD Misreading.refuse

end PropertyGraph.Toml
