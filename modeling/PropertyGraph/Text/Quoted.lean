import PropertyGraph.Text.Point
import PropertyGraph.Text.Printable

/-!
# Quoted text

How a text or a byte string appears inside a message: between quotes, with the quote, the
backslash and whatever is not printable written as an escape.  The quote is the single one, unless
the text holds a single quote and no double one.  Half of a pair is not printable.
-/

namespace PropertyGraph.Text

/-- The single quote. -/
def singleQuote : Char := '\x27'

/-- The double quote. -/
def doubleQuote : Char := '\x22'

/-- The digits of a number in base sixteen, at least `width` of them. -/
def hexDigits (width n : Nat) : List Char :=
  let digits := Nat.toDigits 16 n
  List.replicate (width - digits.length) '0' ++ digits

/-- The quote that a text is put between. -/
def quoteFor (cs : List Char) : Char :=
  if cs.contains singleQuote && !cs.contains doubleQuote then doubleQuote else singleQuote

/-- The escapes that texts and byte strings share. -/
def shortEscape? (quote c : Char) : Option (List Char) :=
  if c == quote || c == '\\' then some ['\\', c]
  else if c == '\n' then some ['\\', 'n']
  else if c == '\r' then some ['\\', 'r']
  else if c == '\t' then some ['\\', 't']
  else none

/-- A character that is not printable, by its number. -/
def numericEscape (c : Char) : List Char :=
  let n := c.toNat
  if n < 0x100 then '\\' :: 'x' :: hexDigits 2 n
  else if n < 0x10000 then '\\' :: 'u' :: hexDigits 4 n
  else '\\' :: 'U' :: hexDigits 8 n

/-- One character between the quotes. -/
def quotedChar (quote c : Char) : List Char :=
  match shortEscape? quote c with
  | some cs => cs
  | none => if isPrintable c then [c] else numericEscape c

/-- A text between quotes. -/
def quoted (s : String) : String :=
  let cs := s.toList
  let quote := quoteFor cs
  String.ofList (quote :: (cs.flatMap (quotedChar quote) ++ [quote]))

/-- Half of a pair that stands alone, as an escape. -/
def halfEscape (unit : Nat) : List Char := '\\' :: 'u' :: hexDigits 4 unit

/-- Points between quotes. -/
def quotedPoints (ps : List Point) : String :=
  let quote := quoteFor (ps.filterMap fun p => match p with
    | .char c => some c
    | .half _ => none)
  let inner := ps.flatMap fun p => match p with
    | .char c => quotedChar quote c
    | .half unit => halfEscape unit
  String.ofList (quote :: (inner ++ [quote]))

/-- Points as they are, but for halves. -/
def spelledPoints (ps : List Point) : String :=
  String.ofList (ps.flatMap fun p => match p with
    | .char c => [c]
    | .half unit => halfEscape unit)

/-- One byte between the quotes. -/
def quotedByte (quote : Char) (b : UInt8) : List Char :=
  let c := Char.ofNat b.toNat
  match shortEscape? quote c with
  | some cs => cs
  | none => if 32 ≤ b && b < 127 then [c] else '\\' :: 'x' :: hexDigits 2 b.toNat

/-- A byte string between quotes, after the letter that marks it. -/
def quotedBytes (bs : List UInt8) : String :=
  let quote := quoteFor (bs.map fun b => Char.ofNat b.toNat)
  String.ofList ('b' :: quote :: (bs.flatMap (quotedByte quote) ++ [quote]))

/-- A printable character other than the quote and the backslash stands for itself. -/
theorem quotedChar_of_plain {quote c : Char} (hq : c ≠ quote) (hb : c ≠ '\\')
    (h₁ : 32 ≤ c.toNat) (h₂ : c.toNat < 127) : quotedChar quote c = [c] := by
  have hn : c ≠ '\n' := by rintro rfl; simp at h₁
  have hr : c ≠ '\r' := by rintro rfl; simp at h₁
  have ht : c ≠ '\t' := by rintro rfl; simp at h₁
  simp [quotedChar, shortEscape?, hq, hb, hn, hr, ht, isPrintable_of_ascii h₁ h₂]

end PropertyGraph.Text
