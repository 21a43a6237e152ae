import PropertyGraph.Failure
import PropertyGraph.Number.Numeral
import PropertyGraph.Value.Fields

/-!
# Conversions

Reading one shape of value as another: the members of a value, the fields that a list of pairs
stands for, and the numbers that texts write.
-/

namespace PropertyGraph.Value

/-- The members of a value: the items of a sequence, the characters of a text, the labels of a
record and the numbers of a byte string. -/
def members : Value → Result (List Value)
  | .list items | .tuple items => .ok items
  | .text s => .ok (s.toList.map fun c => .text (String.singleton c))
  | .points ps => .ok (ps.map fun p => ofPoints [p])
  | .record fields => .ok ((Record.keys fields).map .text)
  | .mapping fields => .ok (Fields.labels fields)
  | .bytes bs => .ok (bs.map fun b => .int b.toNat)
  | _ => .error (.misfit .notIterable)

/-- The label and the value that an item of a list of pairs gives. -/
def pair (index : Nat) (item : Value) : Result (Value × Value) := do
  match ← item.members with
  | [label, v] => if label.identifies then return (label, v) else throw (.misfit .noKey)
  | other => throw (.pairLength index other.length)

/-- The labelled values that a list of pairs gives. -/
def pairs (items : List Value) : Result (List (Value × Value)) :=
  items.zipIdx.mapM fun p => pair p.2 p.1

/-- A value as fields: those of a record, or those of a list of pairs. -/
def toFields (v : Value) : Result Fields :=
  match v.fields? with
  | some fs => .ok fs
  | none => do return Fields.ofPairs (← pairs (← v.members))

/-- The data of an entity, where nothing counts as no fields. -/
def toData (v : Value) : Result Fields := if v.truthy then v.toFields else .ok []

/-- The double of an integer that is not too large to have one. -/
def floatOfInt (n : Int) : Result Float :=
  let x := Float.ofInt n
  if x.isFinite then .ok x else .error .tooLarge

/-- The text of a byte string of ASCII characters; no other byte is part of a number. -/
def asciiText (bs : List UInt8) : String :=
  String.ofList (bs.map fun b => if b < 128 then Char.ofNat b.toNat else '?')

/-- A value as a double. -/
def toFloat (v : Value) : Result Float :=
  match v with
  | .bool b => .ok (if b then 1.0 else 0.0)
  | .int n => floatOfInt n
  | .float x => .ok x
  | .text s => read s
  | .bytes bs => read (asciiText bs)
  | _ => .error (.misfit .notNumber)
where
  read (s : String) : Result Float :=
    match Numeral.readFloat? s with
    | some x => .ok x
    | none => .error (.badFloat v)

/-- A value as an integer; what stands after the point is dropped. -/
def toInteger (v : Value) : Result Int :=
  match v with
  | .bool b => .ok (if b then 1 else 0)
  | .int n => .ok n
  | .float x =>
    match (Exact.ofFloat x).truncate? with
    | some n => .ok n
    | none => .error (if x.isNaN then .notANumber else .tooLarge)
  | .text s => read s
  | .bytes bs => read (asciiText bs)
  | _ => .error (.misfit .notNumber)
where
  read (s : String) : Result Int :=
    match Numeral.readInt s with
    | .ok n => .ok n
    | .error .malformed => .error (.badInteger v)
    | .error (.tooManyDigits count) => .error (.tooManyDigits count)

/-- The doubles of the members of a value. -/
def toFloats (v : Value) : Result (List Float) := do
  (← v.members).mapM toFloat

/-- The members of a list are its items. -/
@[simp] theorem members_list (items : List Value) : members (.list items) = .ok items := rfl

/-- The data of fields are the fields. -/
@[simp] theorem toData_ofFields (fs : Fields) : toData (ofFields fs) = .ok fs := by
  cases fs with
  | nil => rfl
  | cons p rest =>
    have h : (ofFields (p :: rest)).truthy = true := by
      rw [ofFields]
      split
      · rename_i r hr
        cases r with
        | nil => cases Fields.eq_ofRecord_of_record? hr
        | cons q s => rfl
      · rfl
    rw [toData, if_pos h, toFields, fields?_ofFields]

end PropertyGraph.Value
