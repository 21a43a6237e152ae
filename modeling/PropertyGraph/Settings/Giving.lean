import PropertyGraph.Settings.Cast
import PropertyGraph.Settings.Merging

/-!
# Giving settings

Settings are collected in a record, by names in capital letters without blanks at the ends.  A name
with parts, between points or pairs of underscores, gives a value inside a record that stands under
the first part: the record is united with the new value along the path only, so that its other
fields stay.
-/

namespace PropertyGraph.Settings

/-! ### Paths -/

/-- The parts of a name, one at least. -/
def parts : List Char → List (List Char)
  | '_' :: '_' :: rest | '.' :: rest => [] :: parts rest
  | c :: rest =>
    match parts rest with
    | part :: more => (c :: part) :: more
    | [] => [[c]]
  | [] => [[]]

/-- A value inside records of one field each. -/
def nest (v : Value) : List String → Value
  | [] => v
  | name :: rest => .record [(name, nest v rest)]

/-- What a path leads to inside a value. -/
def valueAt? : List String → Value → Option Value
  | [], v => some v
  | name :: rest, .record fields => (find? fields name).bind (valueAt? rest)
  | _ :: _, _ => none

/-- Whether two values cannot be told apart: truth values, small integers and texts of one short
character have only one instance each. -/
def indistinct : Value → Value → Bool
  | .bool a, .bool b => a == b
  | .int m, .int n => m == n && -5 ≤ m && m ≤ 256
  | .text s, .text t => s == t && s.length ≤ 1 && s.toList.all fun c => c.toNat < 256
  | _, _ => false

/-- Whether a field is taken for the one at the end of a path through other fields: it has the name
of the last part, and its value cannot be told from what the path leads to. -/
def mistaken (held : Record Value) (name : String) (rest : List String)
    (field : String × Value) : Bool :=
  match rest.getLast? with
  | none => false
  | some last =>
    Text.lower field.1 == Text.lower last &&
      match valueAt? (name :: rest) (.record held) with
      | some v => indistinct v field.2
      | none => false

section Giving

variable (words : Vocabulary)

/-- A record that was united with a value inside it. -/
structure Union where
  /-- What is left of the old record; the fields that were taken over ask for nothing any more. -/
  left : Record Value
  united : Record Value

/-- A value that was taken over. -/
def spent : Value → Value
  | .record fields => .record (bare words fields)
  | v => v

/-- Unites a record with a value under a name, where `change` says what is left of the old value
there and what becomes of it.  The field that asks for merging is not written: it says whether the
others are kept. -/
def uniteAt (held : Record Value) (name : String) (rest : List String) (asked : Value)
    (change : Value → Result (Value × Value)) : Result Union := do
  let target := place held name
  if target = words.merge then
    if asked.truthy then
      let out (p : String × Value) : Bool :=
        (rest.isEmpty && p.1 == words.merge) || mistaken held name rest p
      return ⟨held.map fun p => if out p then p else (p.1, spent words p.2),
        Record.mapValues (kept words) (held.filter fun p => !out p)⟩
    else return ⟨held, []⟩
  else
    let old := Record.get? held target
    let (left, new) ← change (old.getD (.record []))
    let v ← settled words (if old.isSome then left else .null) new
    let out (p : String × Value) : Bool := p.1 != target && mistaken held name rest p
    return ⟨held.map fun p =>
        if p.1 == target then (p.1, left) else if out p then p else (p.1, spent words p.2),
      Record.set (Record.mapValues (kept words) (held.filter fun p => !out p)) target v⟩

/-- Unites a record with a value inside it, under a path that ends with these names after the
first. -/
def uniteAlong (v : Value) : List String → String → Record Value → Result Union
  | [], name, held => uniteAt words held name [] v fun old => .ok (old, v)
  | next :: rest, name, held =>
    let new := nest v (next :: rest)
    uniteAt words held name (next :: rest) new fun old =>
      match old with
      | .record fields =>
        if old.eqv new then .ok (old, new)
        else (uniteAlong v rest next fields).map fun u => (.record u.left, .record u.united)
      | _ => .ok (old, new)

/-! ### Giving -/

/-- A value that is to take the place of an old one: its texts are converted as they ask, and it is
merged where it asks for that and something else was there. -/
def prepared (old v : Value) : Result Value := do
  let v ← Cast.convertAll v
  match old with
  | .null => return v
  | old => if old.eqv v then return v else mergedIfAsked words old v

/-- The name in a record of settings that a given name stands for. -/
def settingName (name : String) : String := Text.upper (String.ofList (Text.strip name.toList))

/-- The value of a setting, or null. -/
def valueOf (s : Record Value) (name : String) : Value :=
  (Record.get? s (settingName name)).getD .null

/-- Gives a value under a name without parts. -/
def giveTop (s : Record Value) (name : String) (v : Value) : Result (Record Value) := do
  return Record.set s (settingName name) (← prepared words (valueOf s name) v)

/-- Gives a value inside the record that stands under a name, along a path; it is prepared once for
the path and once for the setting. -/
def giveInside (s : Record Value) (name next : String) (rest : List String) (v : Value) :
    Result (Record Value) := do
  let v ← Cast.convertAll v
  let new := nest v (next :: rest)
  let (old, new) ← match find? s (Text.upper name) with
    | some (.record held) =>
      if held.isEmpty || (Value.record held).eqv new then .ok (valueOf s name, new)
      else
        (uniteAlong words v rest next held).map fun u => (.record u.left, .record u.united)
    | _ => .ok (valueOf s name, new)
  let new ← prepared words old (← prepared words old new)
  return Record.set s (settingName name) new

/-- Gives a value under a name. -/
def give (s : Record Value) (name : String) (v : Value) : Result (Record Value) :=
  match (parts name.toList).map String.ofList with
  | first :: next :: rest => giveInside words s first next rest v
  | _ => giveTop words s name v

/-- Gives several values in order. -/
def giveAll (s : Record Value) (given : List (String × Value)) : Result (Record Value) :=
  given.foldlM (fun s p => give words s p.1 p.2) s

end Giving

/-- A name has a part at least. -/
theorem parts_ne_nil (cs : List Char) : parts cs ≠ [] := by
  fun_induction parts cs <;> simp

/-- What was given under a name is found under it. -/
theorem find?_set (r : Record Value) (name : String) (v : Value) :
    find? (Record.set r name v) name = some v := by
  have h : Record.get? (Record.set r name v) name = some v := Record.get?_set_self r name v
  rw [find?, place, if_pos (by rw [Record.has, h]; rfl), h]

end PropertyGraph.Settings
