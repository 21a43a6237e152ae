import PropertyGraph.Schema.Problem
import PropertyGraph.Value.Fields

/-!
# Reading a schema

A schema is read from a value field by field.  Reading goes on after a problem, so that all of them
are found: those of the declared fields in order of declaration, each with the problems inside it,
and then the names that no field has, in the order of the input.  Only when no problem is left is
the schema as a whole checked for consistency.

Texts and truth values are read strictly; a list may be given as a tuple, and the name of a kind as
a byte string, and so may the names in a record.  The names of declared fields must be texts.  A
field with two spellings is read under the first one that is there.
-/

namespace PropertyGraph.Schema

/-- What reading gives: a value, or all problems on the way to it. -/
inductive Reading (α : Type) where
  | value (a : α)
  | problems (ps : List Problem)

namespace Reading

/-- Applies a function to what was read. -/
def map (f : α → β) : Reading α → Reading β
  | .value a => .value (f a)
  | .problems ps => .problems ps

/-- Reads two things and keeps the problems of both. -/
def app : Reading (α → β) → Reading α → Reading β
  | .value f, .value a => .value (f a)
  | .value _, .problems qs => .problems qs
  | .problems ps, .value _ => .problems ps
  | .problems ps, .problems qs => .problems (ps ++ qs)

instance : Applicative Reading where
  map := map
  pure := .value
  seq f a := app f (a ())

/-- One fault, here. -/
def fault (f : Fault) : Reading α := .problems [⟨[], f⟩]

/-- Reads one step further inside. -/
def within (step : Step) : Reading α → Reading α
  | .value a => .value a
  | .problems ps => .problems (ps.map fun p => { p with path := step :: p.path })

/-- The problems that were found. -/
def problemList : Reading α → List Problem
  | .value _ => []
  | .problems ps => ps

/-- Reads every item of a list. -/
def each (read : α → Reading β) : List α → Reading (List β)
  | [] => .value []
  | a :: rest => app (map List.cons (read a)) (each read rest)

/-! ### When reading succeeds -/

theorem map_eq_value_iff {f : α → β} {r : Reading α} {b : β} :
    map f r = .value b ↔ ∃ a, r = .value a ∧ f a = b := by
  cases r <;> simp [map]

theorem app_eq_value_iff {f : Reading (α → β)} {r : Reading α} {b : β} :
    app f r = .value b ↔ ∃ g a, f = .value g ∧ r = .value a ∧ g a = b := by
  cases f <;> cases r <;> simp [app]

theorem within_eq_value_iff {step : Step} {r : Reading α} {a : α} :
    within step r = .value a ↔ r = .value a := by
  cases r <;> simp [within]

/-- A list is read exactly when each of its items is. -/
theorem each_eq_value_iff {read : α → Reading β} {as : List α} {bs : List β} :
    each read as = .value bs ↔ as.map read = bs.map .value := by
  induction as generalizing bs with
  | nil => cases bs <;> simp [each]
  | cons a rest ih =>
    simp only [each, app_eq_value_iff, map_eq_value_iff, List.map_cons]
    cases bs with
    | nil => simp
    | cons b bs' =>
      simp only [ih, List.map_cons, List.cons.injEq]
      constructor
      · rintro ⟨_, cs, ⟨c, hc, rfl⟩, hr, heq⟩
        cases heq
        exact ⟨hc, hr⟩
      · rintro ⟨hc, hr⟩
        exact ⟨List.cons b, bs', ⟨b, hc, rfl⟩, hr, rfl⟩

end Reading

/-! ### Plain values -/

/-- Reads a text. -/
def readText : Value → Reading String
  | .text s => .value s
  | _ => .fault .notText

/-- Reads a text that is not empty. -/
def readNonempty : Value → Reading String
  | .text s => if s.isEmpty then .fault .emptyText else .value s
  | _ => .fault .notText

/-- Reads a truth value. -/
def readBool : Value → Reading Bool
  | .bool b => .value b
  | _ => .fault .notBool

/-- The text of a value that is a text or a byte string that encodes one. -/
def encodedText? : Value → Option String
  | .text s => some s
  | .bytes bs => String.fromUTF8? ⟨bs.toArray⟩
  | _ => none

/-- Reads a name. -/
def readName (v : Value) : Reading String :=
  match encodedText? v, v with
  | some s, _ => .value s
  | none, .bytes _ => .fault .notEncoded
  | none, _ => .fault .notText

/-- Reads the name of a kind. -/
def readKind (v : Value) : Reading Kind :=
  match (encodedText? v).bind Kind.ofName? with
  | some k => .value k
  | none => .fault .unknownKind

/-- Reads the name of a role. -/
def readRole : Value → Reading Role
  | .text s => match Role.ofName? s with
    | some r => .value r
    | none => .fault .unknownRole
  | _ => .fault .unknownRole

/-- Reads a value that may be null. -/
def readOption (read : Value → Reading α) : Value → Reading (Option α)
  | .null => .value none
  | v => (read v).map some

/-- Reads a list of values of one sort. -/
def readList (read : Value → Reading α) (v : Value) : Reading (List α) :=
  match v.items? with
  | some items => Reading.each (fun p => (read p.1).within (.index p.2)) items.zipIdx
  | none => .fault .notList

/-- Reads a name and what stands under it. -/
def readEntry (read : Value → Reading α) (p : Value × Value) : Reading (String × α) :=
  Prod.mk <$> ((readName p.1).within (.name "[key]")).within (.ofKey p.1)
    <*> (read p.2).within (.ofKey p.1)

/-- Reads a record of values of one sort.  Of what stands under names that are read as one, the last
counts. -/
def readRecord (read : Value → Reading α) (v : Value) : Reading (Record α) :=
  match v with
  | .record fields =>
    Reading.each (fun p => ((read p.2).within (.name p.1)).map fun a => (p.1, a)) fields
  | .mapping fields => (Reading.each (readEntry read) fields).map Record.ofList
  | _ => .fault .notRecord

/-! ### Records with declared fields -/

/-- The spellings of a field, the preferred one first. -/
abbrev Spellings := List String

/-- The spelling under which a field is given, if it is. -/
def Spellings.given? (names : Spellings) (fields : Record Value) : Option String :=
  names.find? fun name => Record.has fields name

/-- Reads a field that must be there. -/
def required (fields : Record Value) (name : String) (read : Value → Reading α) : Reading α :=
  match Record.get? fields name with
  | some v => (read v).within (.name name)
  | none => (Reading.fault .missing).within (.name name)

/-- Reads a field that may be left out, under any of its spellings. -/
def optional (fields : Record Value) (names : Spellings) (absent : α)
    (read : Value → Reading α) : Reading α :=
  match names.given? fields with
  | some name => required fields name read
  | none => .value absent

/-- The names of a record that no declared field uses. -/
def unused (fields : Record Value) (declared : List Spellings) : List String :=
  let used := declared.filterMap (·.given? fields)
  (Record.keys fields).filter fun key => !used.contains key

/-- A problem for every name that no declared field uses. -/
def nothingElse (fields : Record Value) (declared : List Spellings) : Reading Unit :=
  match unused fields declared with
  | [] => .value ()
  | keys => .problems (keys.map fun key => ⟨[.name key], .unknownField⟩)

/-- A problem for every key that is no text, and every name that no declared field uses. -/
def strays (fields : Fields) (declared : List Spellings) : List Problem :=
  let names := unused (Fields.named fields) declared
  fields.filterMap fun
    | (.text name, _) => if names.contains name then some ⟨[.name name], .unknownField⟩ else none
    | (key, _) => some ⟨[.ofKey key], .badName⟩

/-- Reads a record with declared fields.  A mapping, which has a key that is no text, is refused
whatever else it has. -/
def readModel (declared : List Spellings) (read : Record Value → Reading α) : Value → Reading α
  | .record fields => read fields <* nothingElse fields declared
  | .mapping fields => .problems ((read (Fields.named fields)).problemList ++ strays fields declared)
  | _ => .fault .notModel

/-! ### The parts of a schema -/

/-- The spellings of the field that says who may do what. -/
def accessSpellings : Spellings := ["accessControl", "access_control"]

/-- The spellings of the field that gives the role of everyone who is known. -/
def defaultRoleSpellings : Spellings :=
  ["defaultAuthenticatedRole", "default_authenticated_role"]

/-- Reads an access control. -/
def readAccess : Value → Reading AccessControl :=
  readModel [["public"], ["roles"], defaultRoleSpellings] fun fields =>
    AccessControl.mk
      <$> optional fields ["public"] none (readOption readBool)
      <*> optional fields ["roles"] none (readOption (readRecord (readList readRole)))
      <*> optional fields defaultRoleSpellings none (readOption readRole)

/-- Reads a node type. -/
def readNodeType : Value → Reading NodeType :=
  readModel [["name"], ["description"], ["synonyms"], ["data"], accessSpellings] fun fields =>
    NodeType.mk
      <$> required fields "name" readText
      <*> required fields "description" readNonempty
      <*> optional fields ["synonyms"] [] (readList readText)
      <*> optional fields ["data"] [] (readRecord readKind)
      <*> optional fields accessSpellings none (readOption readAccess)

/-- Reads one side of an edge type. -/
def readConnection : Value → Reading Connection :=
  readModel [["node_type"], ["multiple"], ["required"]] fun fields =>
    Connection.mk
      <$> required fields "node_type" readNonempty
      <*> required fields "multiple" readBool
      <*> optional fields ["required"] false readBool

/-- Reads an edge type. -/
def readEdgeType : Value → Reading EdgeType :=
  readModel [["name"], ["description"], ["source"], ["target"], ["synonyms"], ["data"],
      accessSpellings] fun fields =>
    EdgeType.mk
      <$> required fields "name" readText
      <*> optional fields ["description"] "" readText
      <*> required fields "source" readConnection
      <*> required fields "target" readConnection
      <*> optional fields ["synonyms"] [] (readList readText)
      <*> optional fields ["data"] [] (readRecord readKind)
      <*> optional fields accessSpellings none (readOption readAccess)

/-- Reads the fields of a schema, without asking whether they are consistent. -/
def readFields : Value → Reading Schema :=
  readModel [["node_types"], ["edge_types"]] fun fields =>
    Schema.mk
      <$> required fields "node_types" (readRecord readNodeType)
      <*> required fields "edge_types" (readRecord readEdgeType)

/-- Reads a schema: its fields, and then its consistency. -/
def read (v : Value) : Reading Schema :=
  match readFields v with
  | .value s => match s.inconsistency? with
    | none => .value s
    | some why => .fault (.inconsistent why)
  | .problems ps => .problems ps

/-- What was read is consistent. -/
theorem consistent_of_read {v : Value} {s : Schema} (h : read v = .value s) : s.Consistent := by
  unfold read at h
  split at h
  · split at h
    · rename_i hs
      cases h
      exact (inconsistency?_eq_none_iff _).1 hs
    · cases h
  · cases h

/-- What was read comes from the fields. -/
theorem readFields_of_read {v : Value} {s : Schema} (h : read v = .value s) :
    readFields v = .value s := by
  unfold read at h
  split at h
  · rename_i hv
    split at h
    · cases h; exact hv
    · cases h
  · cases h

end PropertyGraph.Schema
