import PropertyGraph.Number.Exact
import PropertyGraph.Number.Decimal

/-!
# The text of a double

Two ways of writing a double.  `FloatText.shortest` writes the fewest digits that read back as the
same double, positionally where the leading digit stands between `10 ^ -4` and `10 ^ 15` and with
an exponent elsewhere.  `FloatText.fixed` writes a given number of places, a half going to the even
digit, and gives zero no sign.
-/

namespace PropertyGraph

/-- What a style of writing doubles decides for itself. -/
structure FloatStyle where
  /-- The least exponent of a leading digit that is written positionally. -/
  least : Int
  /-- The first exponent of a leading digit that is no longer written positionally. -/
  most : Int
  infinity : String
  nan : String

namespace FloatText

/-- The style of values in messages and statements. -/
def plain : FloatStyle := ⟨-4, 16, "inf", "nan"⟩

/-- The style of values in JSON text. -/
def json : FloatStyle := ⟨-4, 16, "Infinity", "NaN"⟩

/-- The reals that round to the double `m * 2 ^ e`. -/
def neighbourhood (m : Nat) (e : Int) : Neighbourhood :=
  let unit := Nat.pow 2 (e - 2).toNat
  { num := 4 * m * unit
    den := Nat.pow 2 (2 - e).toNat
    below := if m = Nat.pow 2 52 ∧ -1074 < e then unit else 2 * unit
    above := 2 * unit
    closed := m % 2 = 0 }

/-- An exponent with its sign and at least two digits. -/
def exponentText (n : Int) : List Char :=
  let digits := Decimal.digitsText n.natAbs
  (if n < 0 then '-' else '+') :: (if digits.length < 2 then '0' :: digits else digits)

/-- The digits `cs` with the point after `point` of them. -/
def positional (cs : List Char) (point : Int) : List Char :=
  if point ≤ 0 then '0' :: '.' :: (List.replicate (-point).toNat '0' ++ cs)
  else
    let n := point.toNat
    if cs.length ≤ n then cs ++ List.replicate (n - cs.length) '0' ++ ['.', '0']
    else cs.take n ++ '.' :: cs.drop n

/-- The digits `cs` with a point after the first and the exponent `n`. -/
def scientific (cs : List Char) (n : Int) : List Char :=
  match cs with
  | [] => []
  | [c] => c :: 'e' :: exponentText n
  | c :: rest => c :: '.' :: (rest ++ 'e' :: exponentText n)

/-- A decimal laid out in a style. -/
def layOut (style : FloatStyle) (d : Decimal) : List Char :=
  let cs := Decimal.digitsText d.digits
  let point := Int.ofNat cs.length + d.exponent
  let cs := (cs.reverse.dropWhile (· == '0')).reverse
  if style.least ≤ point - 1 ∧ point - 1 < style.most then positional cs point
  else scientific cs (point - 1)

/-- The shortest text that reads back as the double. -/
def shortest (style : FloatStyle) (x : Float) : String :=
  if x.isNaN then style.nan
  else
    let (negative, m, e) := Exact.decode x
    let sign := if negative then ['-'] else []
    if !x.isFinite then String.ofList sign ++ style.infinity
    else if m = 0 then String.ofList (sign ++ ['0', '.', '0'])
    else String.ofList (sign ++ layOut style (Decimal.shortest (neighbourhood m e)))

/-- The digits of `n` hundredths, thousandths and so on: `places` of them after the point. -/
def pointed (n places : Nat) : List Char :=
  let digits := Decimal.digitsText n
  let cs := List.replicate (places + 1 - digits.length) '0' ++ digits
  cs.take (cs.length - places) ++ '.' :: cs.drop (cs.length - places)

/-- The double with a fixed number of places. -/
def fixed (places : Nat) (x : Float) : String :=
  if x.isNaN then plain.nan
  else
    let (negative, m, e) := Exact.decode x
    if !x.isFinite then (if negative then "-" else "") ++ plain.infinity
    else
      let num := m * Nat.pow 2 e.toNat * Nat.pow 10 places
      let n := Decimal.roundedQuotient num (Nat.pow 2 (-e).toNat)
      String.ofList ((if negative && n != 0 then ['-'] else []) ++ pointed n places)

/-! ### Lengths -/

/-- A text with a fixed number of places has that many characters after its point. -/
theorem length_pointed (n places : Nat) :
    places + 2 ≤ (pointed n places).length := by
  simp only [pointed, List.length_append, List.length_cons, List.length_take, List.length_drop,
    List.length_replicate]
  omega

end FloatText

end PropertyGraph
