import PropertyGraph.Text.Case
import PropertyGraph.Toml.Document
import PropertyGraph.Value.Conversion

/-!
# Casting settings

A setting that is given as text is cast to a value.  Its first word may ask for a conversion; a
text that asks for none is read as a TOML value, and stays a text where it is none.  `True` and
`False` count as truth values.
-/

namespace PropertyGraph

/-- A conversion that the first word of a text asks for. -/
inductive Converter where
  | int
  | float
  | bool
  | str
  | none
deriving DecidableEq, Repr

namespace Converter

def all : List Converter := [.int, .float, .bool, .str, .none]

/-- The word that asks for a conversion. -/
def word : Converter → String
  | .int => "@int"
  | .float => "@float"
  | .bool => "@bool"
  | .str => "@str"
  | .none => "@none"

/-- The texts that count as true, in small letters. -/
def trueWords : List String := ["t", "true", "enabled", "1", "on", "yes"]

/-- Converts the rest of a text. -/
def apply (c : Converter) (rest : String) : Result Value :=
  match c with
  | .int => match Numeral.readInt rest with
    | .ok n => .ok (.int n)
    | .error _ => .error .badConverter
  | .float => match Numeral.readFloat? rest with
    | some x => .ok (.float x)
    | Option.none => .error .badConverter
  | .bool =>
    let word := String.ofList (Text.strip rest.toList)
    .ok (.bool (trueWords.contains (Text.lower word)))
  | .str => .ok (.text rest)
  | .none => .ok .null

end Converter

namespace Cast

/-- The first word of a text, up to a space, and what comes after the space. -/
def splitWord (s : String) : String × String :=
  let cs := s.toList
  (String.ofList (cs.takeWhile (· != ' ')), String.ofList ((cs.dropWhile (· != ' ')).drop 1))

/-- The conversion that a text asks for, and what is to be converted. -/
def converter? (s : String) : Option (Converter × String) :=
  let (word, rest) := splitWord s
  (Converter.all.find? fun c => c.word == word).map fun c => (c, rest)

/-- A text that is a truth value but for its first letter, in small letters. -/
def lowerTruth (s : String) : String :=
  let word := String.ofList (Text.strip s.toList)
  if word = "True" ∨ word = "False" then s.toLower else s

/-- A text as a value, where only a conversion that it asks for changes it. -/
def convert (s : String) : Result Value :=
  match converter? s with
  | some (c, rest) => c.apply rest
  | none => .ok (.text s)

/-- A text as a value. -/
def ofText (s : String) : Result Value :=
  let s := lowerTruth s
  match converter? s with
  | some (c, rest) => c.apply rest
  | none =>
    match Toml.read s with
    | .ok v => .ok v
    | .error .malformed => .ok (.text s)
    | .error (.tooManyDigits count) => .error (.tooManyDigits count)

/-- A value whose text is cast. -/
def ofValue : Value → Result Value
  | .text s => ofText s
  | v => .ok v

mutual

/-- A value in which the texts at any depth are converted as they ask; tuples become lists. -/
def convertAll : Value → Result Value
  | .text s => convert s
  | .list items | .tuple items => do return .list (← convertItems items)
  | .record fields => do return .record (← convertFields fields)
  | v => .ok v

/-- Converts the items of a sequence. -/
def convertItems : List Value → Result (List Value)
  | [] => .ok []
  | v :: vs => do return (← convertAll v) :: (← convertItems vs)

/-- Converts the fields of a record. -/
def convertFields : List (String × Value) → Result (List (String × Value))
  | [] => .ok []
  | (k, v) :: rest => do return (k, ← convertAll v) :: (← convertFields rest)

end

end Cast

end PropertyGraph
