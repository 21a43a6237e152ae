import PropertyGraph.Value
import PropertyGraph.Number.FloatText
import PropertyGraph.Number.Numeral
import PropertyGraph.Text.Quoted

/-!
# The text of a value

How a value appears inside a message.  `Value.quoted` writes texts between quotes, at any depth;
`Value.display` leaves a text at the top as it is.
-/

namespace PropertyGraph.Value

/-- The parts of a sequence with a comma and a space between them. -/
def commaSeparated (parts : List String) : String := ", ".intercalate parts

/-- A double in a message. -/
def floatText (x : Float) : String := FloatText.shortest FloatText.plain x

/-- A tuple of one item keeps a comma after it. -/
def tupleText (parts : List String) : String :=
  "(" ++ commaSeparated parts ++ (if parts.length = 1 then ",)" else ")")

mutual

/-- A value with texts between quotes. -/
def quoted : Value → String
  | .null => "None"
  | .bool b => if b then "True" else "False"
  | .int n => toString n
  | .float x => floatText x
  | .text s => Text.quoted s
  | .points ps => Text.quotedPoints ps
  | .list xs => "[" ++ commaSeparated (quotedItems xs) ++ "]"
  | .tuple xs => tupleText (quotedItems xs)
  | .record fs => "\x7b" ++ commaSeparated (quotedFields fs) ++ "\x7d"
  | .mapping fs => "\x7b" ++ commaSeparated (quotedMapping fs) ++ "\x7d"
  | .bytes bs => Text.quotedBytes bs
  | .moment m => m.text
termination_by structural v => v

/-- The items of a sequence, each quoted. -/
def quotedItems : List Value → List String
  | [] => []
  | v :: vs => quoted v :: quotedItems vs

/-- The fields of a record, each as its quoted name and value. -/
def quotedFields : List (String × Value) → List String
  | [] => []
  | (k, v) :: rest => (Text.quoted k ++ ": " ++ quoted v) :: quotedFields rest

/-- The fields of a mapping, each as its quoted name and value. -/
def quotedMapping : List (Value × Value) → List String
  | [] => []
  | (k, v) :: rest => (quoted k ++ ": " ++ quoted v) :: quotedMapping rest

end

/-- Whether an integer has more digits than are written. -/
def longInteger (n : Int) : Bool := Nat.pow 10 Numeral.maxDigits ≤ n.natAbs

mutual

/-- Whether a value holds an integer that has more digits than are written. -/
def tooLong : Value → Bool
  | .int n => longInteger n
  | .list xs | .tuple xs => anyTooLong xs
  | .record fs => anyFieldTooLong fs
  | .mapping fs => anyEntryTooLong fs
  | _ => false
termination_by structural v => v

/-- Whether one of several values holds such an integer. -/
def anyTooLong : List Value → Bool
  | [] => false
  | v :: vs => tooLong v || anyTooLong vs

/-- Whether one of several fields holds such an integer. -/
def anyFieldTooLong : List (String × Value) → Bool
  | [] => false
  | (_, v) :: rest => tooLong v || anyFieldTooLong rest

/-- Whether one of the fields of a mapping holds such an integer. -/
def anyEntryTooLong : List (Value × Value) → Bool
  | [] => false
  | (k, v) :: rest => tooLong k || tooLong v || anyEntryTooLong rest

end

/-- A value as it stands in the middle of a sentence. -/
def display : Value → String
  | .text s => s
  | .points ps => Text.spelledPoints ps
  | v => v.quoted

@[simp] theorem display_text (s : String) : display (.text s) = s := rfl

end PropertyGraph.Value
