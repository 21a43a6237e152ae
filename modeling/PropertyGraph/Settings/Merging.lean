import PropertyGraph.Text.Case
import PropertyGraph.Value.Conversion

/-!
# Merging settings

How a value that is given again settles over the old one.  It takes the old one's place, unless it
asks to be merged with it: a list by an item, a record by a field (`Vocabulary`).  Lists that are
merged are joined, and records are united field by field, down to the records inside them; lists
inside them are replaced unless they ask to be merged themselves.  The fields of an old record that
stay are kept without what they ask for.

Names inside a record count as the same when they differ only in capitals, or in blanks where the
other one has underscores; the name that is there stays.
-/

namespace PropertyGraph.Settings

/-- The words by which the sources of settings speak. -/
structure Vocabulary where
  /-- What the variables of the environment that are settings begin with; later ones count more. -/
  marks : List String
  /-- The item or field that asks for a list or a record to be merged with what was there. -/
  merge : String
  /-- The same, where no item of the old list is taken over that the new one has too. -/
  mergeOnce : String

/-! ### Names -/

/-- Whether a name that is there is meant by another one. -/
def means (held name : String) : Bool :=
  let underscored := String.ofList (held.toList.map fun c => if c == ' ' then '_' else c)
  Text.lower held == Text.lower name || Text.lower underscored == Text.lower name

/-- The name in a record that is meant by a name, or else that name. -/
def place (r : Record Value) (name : String) : String :=
  if Record.has r name then name else ((Record.keys r).find? (means · name)).getD name

/-- The value that is meant by a name. -/
def find? (r : Record Value) (name : String) : Option Value := Record.get? r (place r name)

/-- Moves a field to the name in another record that its name means, where it means one. -/
def rename (held fields : Record Value) (name : String) : Record Value :=
  let target := place held name
  match Record.get? fields name with
  | some v =>
    if Record.has held target then Record.set (Record.erase fields name) target v else fields
  | none => fields

/-- Fields by the names in another record that their names mean. -/
def renamed (held fields : Record Value) : Record Value :=
  (Record.keys fields).foldl (rename held) fields

/-! ### Lists -/

/-- The items of a list after those of an old one; `once` leaves out old items that are there
again. -/
def joinItems (once : Bool) (old new : List Value) : List Value :=
  old.foldr (fun v vs => if once && vs.any v.eqv then vs else v :: vs) new

/-- Whether an item is a word. -/
def isWord (word : String) : Value → Bool
  | .text s => s == word
  | _ => false

/-- The items that a list inside a record is joined with: the members of an old value that is no
record. -/
def itemsOf (old : Value) : Result (List Value) :=
  if old.truthy then
    match old.fields? with
    | some _ => .error (.misfit .notIterable)
    | none => old.members
  else .ok []

section Merging

variable (words : Vocabulary)

/-- Whether an item of a list asks for merging. -/
def asks (items : List Value) : Bool :=
  items.any (isWord words.merge) || items.any (isWord words.mergeOnce)

/-- A list after the items of an old one where an item asks for that, without the item. -/
def joinIfAsked (before items : List Value) : List Value :=
  if items.any (isWord words.merge) then
    joinItems false before (items.eraseP (isWord words.merge))
  else if items.any (isWord words.mergeOnce) then
    joinItems true before (items.eraseP (isWord words.mergeOnce))
  else items

/-! ### Records -/

/-- Whether a value is neither null nor equal to a truth value. -/
def isContent (v : Value) : Bool :=
  match v with
  | .null => false
  | v => !(v.eqv (.bool true) || v.eqv (.bool false))

/-- The fields that ask for nothing. -/
def bare (fields : Record Value) : Record Value :=
  Record.erase (Record.erase fields words.merge) words.mergeOnce

/-- What a field of a record asks for, if one asks. -/
def wish (fields : Record Value) : Value :=
  ((Record.get? fields words.merge).or (Record.get? fields words.mergeOnce)).getD .null

/-- Whether the content of a field that asks stands for the record, which has nothing else. -/
def stands (fields : Record Value) : Bool :=
  isContent (wish words fields) && (bare words fields).isEmpty

/-- A record without the fields that ask to merge it. -/
def opened (fields : Record Value) : Value :=
  if stands words fields then wish words fields else .record (bare words fields)

/-- A value where nothing was. -/
def alone : Value → Value
  | .list items => .list (joinIfAsked words [] items)
  | .record fields => opened words fields
  | v => v

/-- The fields of a record where nothing was. -/
def fresh (fields : Record Value) : Record Value :=
  Record.mapValues (alone words) (Record.erase fields words.merge)

/-- A list that is joined with itself where an item asks for that.  All items are there again, but
for the word that asked. -/
def selfJoined (items : List Value) : List Value :=
  if items.any (isWord words.merge) then items ++ items.eraseP (isWord words.merge)
  else
    let rest := items.eraseP (isWord words.mergeOnce)
    if rest.length < items.length ∧ !rest.any (isWord words.mergeOnce) then
      .text words.mergeOnce :: rest
    else rest

/-- An old value that stays. -/
def kept : Value → Value
  | .list items => .list (selfJoined words items)
  | .record fields =>
    match opened words fields with
    | .record new => if stands words fields then .record (fresh words new) else .record new
    | v => v
  | v => v

/-- A value merged with an old one; `unite` gives what the old one and the fields of a record
make. -/
def mergedBy (unite : Record Value → Result Value) (once : Bool) (old new : Value) :
    Result Value :=
  if old.eqv new then .ok new
  else match old, new with
    | .list before, .list items =>
      let again := items.any (isWord words.mergeOnce)
      .ok (.list (joinItems (once || again) before (items.eraseP (isWord words.mergeOnce))))
    | .record _, .record fields => unite fields
    | _, new => .ok new

/-- A value that settles over an old one inside a record. -/
def settledBy (unite : Record Value → Result Value) (old : Value) : Value → Result Value
  | .list items =>
    if asks words items then do return .list (joinIfAsked words (← itemsOf old) items)
    else .ok (.list items)
  | .record fields =>
    if (wish words fields).truthy then mergedBy words unite false old (opened words fields)
    else .ok (opened words fields)
  | v => .ok v

/-- A value inside a record that is united with an old one: records are united in their turn. -/
def inside (unite : Record Value → Result Value) (old new : Value) : Result Value :=
  match old, new with
  | .record _, .record fields => if old.eqv new then .ok new else unite fields
  | _, new => .ok new

/-- What becomes of an old value inside a record that meets a new one, or none; `joint` says whether
records are united. -/
def metBy (unite : Record Value → Result Value) (joint : Bool) (old : Value) :
    Option Value → Result Value
  | some new =>
    if joint then (inside unite old new).bind (settledBy words unite old)
    else settledBy words unite old new
  | none => .ok (kept words old)

mutual

/-- The fields of a record united with an old value.  The old fields come first; but when the field
that asks for merging refuses it, those that are not given again are left out. -/
def unite : Value → Record Value → Result Value
  | .record held, fields => do
    let fields := renamed held fields
    let joint := ((Record.get? fields words.merge).getD (.bool true)).truthy
    let fields := Record.erase fields words.merge
    let met ← meet joint held fields
    if joint then
      let new := fields.filter fun p => !Record.has held p.1
      return .record (met ++ Record.mapValues (alone words) new)
    else return .record (fields.map fun p => (p.1, (Record.get? met p.1).getD (alone words p.2)))
  | _, fields => .ok (.record fields)
termination_by structural old => old

/-- Every old field with what it becomes when these new ones meet it. -/
def meet (joint : Bool) : List (String × Value) → Record Value → Result (Record Value)
  | [], _ => .ok []
  | (name, old) :: rest, fields => do
    let v ← metBy words (fun inner => unite old inner) joint old (Record.get? fields name)
    return (name, v) :: (← meet joint rest fields)

end

/-- A value merged with an old one. -/
def merged (once : Bool) (old new : Value) : Result Value :=
  mergedBy words (unite words old) once old new

/-- A value that settles over an old one inside a record. -/
def settled (old v : Value) : Result Value := settledBy words (unite words old) old v

/-- A value merged with the value of a whole setting, where it asks for that. -/
def mergedIfAsked (old v : Value) : Result Value := do
  let v ← match v with
    | .record fields =>
      if (wish words fields).truthy then merged words false old (opened words fields)
      else .ok (opened words fields)
    | v => .ok v
  match v with
  | .list items =>
    if items.any (isWord words.merge) then
      merged words false old (.list (items.eraseP (isWord words.merge)))
    else if items.any (isWord words.mergeOnce) then
      merged words true old (.list (items.eraseP (isWord words.mergeOnce)))
    else return v
  | v => return v

end Merging

end PropertyGraph.Settings
