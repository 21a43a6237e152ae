import PropertyGraph.Value.Text

/-!
# Writing JSON text

The text of a value in ASCII, with the names of a record in the order of their code points.  Tuples
are written as lists, a byte string or a moment as the text by which a message would quote it, and
doubles by their shortest digits.  A character that is no printable ASCII is written by its UTF-16
units.

A label that is a number, a truth value or null is written between quotes.  The labels of a mapping
have an order when all are texts or all are numbers; a value is `writable` when the labels of every
mapping in it have an order and a text each.
-/

namespace PropertyGraph.Json

/-- The UTF-16 units of a character. -/
def units (c : Char) : List Nat :=
  let n := c.toNat
  if n < 0x10000 then [n]
  else [0xd800 + (n - 0x10000) / 0x400, 0xdc00 + (n - 0x10000) % 0x400]

/-- The letter that escapes a character, if one does. -/
def escapeLetter? (c : Char) : Option Char :=
  if c == Text.doubleQuote || c == '\\' then some c
  else if c == '\n' then some 'n'
  else if c == '\r' then some 'r'
  else if c == '\t' then some 't'
  else if c == '\x0c' then some 'f'
  else if c == '\x08' then some 'b'
  else none

/-- A UTF-16 unit by its number. -/
def unitEscape (u : Nat) : List Char := '\\' :: 'u' :: Text.hexDigits 4 u

/-- One character between the quotes. -/
def escaped (c : Char) : List Char :=
  match escapeLetter? c with
  | some e => ['\\', e]
  | none => if 32 ≤ c.toNat && c.toNat < 127 then [c] else (units c).flatMap unitEscape

/-- One point between the quotes. -/
def escapedPoint : Text.Point → List Char
  | .char c => escaped c
  | .half unit => unitEscape unit

/-- Characters between quotes. -/
def between (cs : List Char) : List Char := Text.doubleQuote :: (cs ++ [Text.doubleQuote])

/-- A text between quotes. -/
def quoted (s : String) : List Char := between (s.toList.flatMap escaped)

/-- Points between quotes. -/
def quotedPoints (ps : List Text.Point) : List Char := between (ps.flatMap escapedPoint)

/-- A truth value. -/
def boolText (b : Bool) : List Char := if b then "true".toList else "false".toList

/-- A double by its shortest digits. -/
def floatText (x : Float) : List Char := (FloatText.shortest FloatText.json x).toList

/-- Written parts with a comma and a space between them. -/
def joined (parts : List (List Char)) : List Char := [',', ' '].intercalate parts

/-! ### Records -/

/-- A written field. -/
def field (p : String × List Char) : List Char := quoted p.1 ++ [':', ' '] ++ p.2

/-- Fields in the order of their names. -/
def sorted (fields : List (String × α)) : List (String × α) :=
  fields.mergeSort fun p q => decide (p.1 ≤ q.1)

/-! ### Mappings -/

/-- The numbers of what stands in a text. -/
def codes : Value → List Nat
  | .text s => s.toList.map Char.toNat
  | .points ps => ps.map Text.Point.number
  | _ => []

/-- Whether a label may come before another one: texts by code points, numbers by value. -/
def precedes (a b : Value) : Bool :=
  match a.number?, b.number? with
  | some x, some y => !y.less x
  | _, _ => !List.lex (codes b) (codes a) fun m n => decide (m < n)

/-- Labelled parts in the order of their labels. -/
def sortedByLabel (entries : List (Value × α)) : List (Value × α) :=
  entries.mergeSort fun p q => precedes p.1 q.1

/-- The text of a label, if it has one. -/
def label? : Value → Option (List Char)
  | .null => some (between "null".toList)
  | .bool b => some (between (boolText b))
  | .int n => some (between (toString n).toList)
  | .float x => some (between (floatText x))
  | .text s => some (quoted s)
  | .points ps => some (quotedPoints ps)
  | _ => none

/-- A written entry of a mapping. -/
def entry (p : Value × List Char) : List Char := (label? p.1).getD [] ++ [':', ' '] ++ p.2

/-- Whether a label is a text. -/
def isText : Value → Bool
  | .text _ | .points _ => true
  | _ => false

/-- Whether labels have an order: there is one at most, or all are texts, or all are numbers. -/
def ordered (labels : List Value) : Bool :=
  decide (labels.length ≤ 1) || labels.all isText || labels.all (·.number?.isSome)

mutual

/-- Whether the labels of all mappings in a value have an order and a text each. -/
def writable : Value → Bool
  | .list items | .tuple items => allWritable items
  | .record fields => fieldsWritable fields
  | .mapping entries =>
    ordered (entries.map (·.1)) && entriesWritable entries
  | _ => true
termination_by structural v => v

/-- Whether each of several values is writable. -/
def allWritable : List Value → Bool
  | [] => true
  | v :: vs => writable v && allWritable vs

/-- Whether the value of each field is writable. -/
def fieldsWritable : List (String × Value) → Bool
  | [] => true
  | (_, v) :: rest => writable v && fieldsWritable rest

/-- Whether each label has a text and each value is writable. -/
def entriesWritable : List (Value × Value) → Bool
  | [] => true
  | (l, v) :: rest => (label? l).isSome && writable v && entriesWritable rest

end

/-! ### Values -/

mutual

/-- The text of a value. -/
def text : Value → List Char
  | .null => "null".toList
  | .bool b => boolText b
  | .int n => (toString n).toList
  | .float x => floatText x
  | .text s => quoted s
  | .points ps => quotedPoints ps
  | .list items | .tuple items => '[' :: (joined (texts items) ++ [']'])
  | .record fields => '\x7b' :: (joined ((sorted (fieldTexts fields)).map field) ++ ['\x7d'])
  | .mapping entries =>
    '\x7b' :: (joined ((sortedByLabel (entryTexts entries)).map entry) ++ ['\x7d'])
  | .bytes bs => quoted (Text.quotedBytes bs)
  | .moment m => quoted m.text
termination_by structural v => v

/-- The texts of the items of a sequence. -/
def texts : List Value → List (List Char)
  | [] => []
  | v :: vs => text v :: texts vs

/-- The names of a record with the texts of their values. -/
def fieldTexts : List (String × Value) → List (String × List Char)
  | [] => []
  | (k, v) :: rest => (k, text v) :: fieldTexts rest

/-- The labels of a mapping with the texts of their values. -/
def entryTexts : List (Value × Value) → List (Value × List Char)
  | [] => []
  | (l, v) :: rest => (l, text v) :: entryTexts rest

end

/-- The text of a value, as a string. -/
def write (v : Value) : String := String.ofList (text v)

/-- The text of a value, where it is writable. -/
def write? (v : Value) : Option String := if writable v then some (write v) else none

theorem texts_eq_map (vs : List Value) : texts vs = vs.map text := by
  induction vs with
  | nil => rfl
  | cons v rest ih => simp [texts, ih]

theorem fieldTexts_eq_map (fields : List (String × Value)) :
    fieldTexts fields = fields.map fun p => (p.1, text p.2) := by
  induction fields with
  | nil => rfl
  | cons p rest ih => simp [fieldTexts, ih]

/-- Sorting keeps every field. -/
theorem sorted_perm (fields : List (String × α)) : (sorted fields).Perm fields :=
  List.mergeSort_perm fields _

/-- Sorting keeps every entry. -/
theorem sortedByLabel_perm (entries : List (Value × α)) :
    (sortedByLabel entries).Perm entries :=
  List.mergeSort_perm entries _

end PropertyGraph.Json
