import PropertyGraph.Value.Key
import PropertyGraph.Value.Conversion
import PropertyGraph.Schema.Reader

/-!
# Checking entities against a schema

The data of an entity conforms to the declared fields when it has exactly those fields, each with a
value of its kind (`Conforms`).  `dataFault?` finds the first fault: in order of declaration a field
that is missing or of the wrong kind, and then the first label that is not declared, in order of the
data; `dataFault?_eq_none_iff` says that it finds one exactly in data that does not conform.

An edge must also run between nodes of the types that its two sides ask for.
-/

namespace PropertyGraph.Schema

/-- A failure, if there is one. -/
def refuse : Option Failure → Result Unit
  | some f => .error f
  | none => .ok ()

@[simp] theorem refuse_eq_ok_iff (f : Option Failure) (u : Unit) : refuse f = .ok u ↔ f = none := by
  cases f <;> simp [refuse]

theorem refuse_eq_error_iff (f : Option Failure) (g : Failure) :
    refuse f = .error g ↔ f = some g := by
  cases f <;> simp [refuse]

/-- The schema that a value gives. -/
def ofValue (v : Value) : Result Schema :=
  match v with
  | .record _ =>
    match read v with
    | .value s => .ok s
    | .problems ps => .error (.badSchema ps)
  | _ => .error .schemaNotRecord

/-- What is declared under the name that a value is, where a name can be looked up by it. -/
def declared? (types : Record α) (type : Value) : Result (Option (String × α)) :=
  match type with
  | .text s => .ok ((Record.get? types s).map fun t => (s, t))
  | v => if v.identifies then .ok none else .error (.misfit .noKey)

/-- The kind of a name. -/
def kindOf (name : String) : Result Kind :=
  match Kind.ofName? name with
  | some k => .ok k
  | none => .error (.unknownKind name)

/-- The fields that are declared by their names and the names of their kinds. -/
def declaredFields (fields : List (String × String)) : Result (Record Kind) := do
  return Record.ofList (← fields.mapM fun p => do return (p.1, ← kindOf p.2))

/-! ### The data of an entity -/

section Data

variable (cls : EntityClass) (type : Value) (declared : Record Kind)

/-- The fault of one declared field. -/
def fieldFault? (data : Fields) (p : String × Kind) : Option Failure :=
  match data.get? p.1 with
  | none => some (.missingProperty p.1 type cls)
  | some v => if p.2.accepts v then none else some (.kindMismatch p.1 p.2 v.kindName type cls)

/-- Whether a label is the name of a declared field. -/
def isDeclared : Value → Bool
  | .text name => Record.has declared name
  | _ => false

/-- The fault of the first label that is not declared. -/
def unknownFault? (data : Fields) : Option Failure :=
  (data.labels.find? fun label => !isDeclared declared label).map fun label =>
    .unknownProperty label type cls

/-- The first fault of some data. -/
def dataFault? (data : Fields) : Option Failure :=
  (declared.findSome? (fieldFault? cls type data)).or (unknownFault? cls type declared data)

end Data

/-- Data has exactly the declared fields, each with a value of its kind. -/
structure Conforms (declared : Record Kind) (data : Fields) : Prop where
  field : ∀ p ∈ declared, ∃ v, data.get? p.1 = some v ∧ p.2.accepts v = true
  known : ∀ label ∈ data.labels, ∃ name, label = .text name ∧ Record.has declared name = true

theorem isDeclared_iff (declared : Record Kind) (label : Value) :
    isDeclared declared label = true ↔
      ∃ name, label = .text name ∧ Record.has declared name = true := by
  cases label <;> simp [isDeclared]

theorem fieldFault?_eq_none_iff (cls : EntityClass) (type : Value) (data : Fields)
    (p : String × Kind) : fieldFault? cls type data p = none ↔
      ∃ v, data.get? p.1 = some v ∧ p.2.accepts v = true := by
  unfold fieldFault?
  cases data.get? p.1 with
  | none => simp
  | some v => cases h : p.2.accepts v <;> simp [h]

/-- Data has a fault exactly when it does not conform. -/
theorem dataFault?_eq_none_iff (cls : EntityClass) (type : Value) (declared : Record Kind)
    (data : Fields) :
    dataFault? cls type declared data = none ↔ Conforms declared data := by
  simp only [dataFault?, unknownFault?, Option.or_eq_none_iff, List.findSome?_eq_none_iff,
    fieldFault?_eq_none_iff, Option.map_eq_none_iff, List.find?_eq_none]
  constructor
  · rintro ⟨hf, hk⟩
    exact ⟨hf, fun label h => (isDeclared_iff declared label).1 (by simpa using hk label h)⟩
  · rintro ⟨hf, hk⟩
    exact ⟨hf, fun label h => by simp [(isDeclared_iff declared label).2 (hk label h)]⟩

/-! ### Data that is no record -/

/-- Whether a name is a member of a value: an item of a sequence or a part of a text. -/
def isMember (name : String) : Value → Result Bool
  | .list items | .tuple items => .ok (items.any fun item => item.eqv (.text name))
  | .text s => .ok (Text.occursIn name.toList s.toList)
  | .points ps => .ok (Text.occursIn (name.toList.map .char) ps)
  | _ => .error (.misfit .notIterable)

/-- Checks that nothing is asked of members that have no values. -/
def checkMember (cls : EntityClass) (type v : Value) (name : String) : Result Unit := do
  if ← isMember name v then throw (.misfit .noNamedPart)
  else throw (.missingProperty name type cls)

/-- Checks that a member is declared. -/
def checkKnown (cls : EntityClass) (type : Value) (declared : Record Kind) (member : Value) :
    Result Unit := do
  match ← declared? declared member with
  | some _ => return ()
  | none => throw (.unknownProperty member type cls)

/-- Checks data of any shape.  What counts as nothing has no fields; other data that is no record
can only name what it holds. -/
def checkData (cls : EntityClass) (type : Value) (declared : Record Kind) (v : Value) :
    Result Unit :=
  match v.fields? with
  | some data => refuse (dataFault? cls type declared data)
  | none =>
    if v.truthy then do
      (Record.keys declared).forM (checkMember cls type v)
      (← v.members).forM (checkKnown cls type declared)
    else refuse (dataFault? cls type declared [])

theorem checkData_ofFields (cls : EntityClass) (type : Value) (declared : Record Kind)
    (data : Fields) :
    checkData cls type declared (.ofFields data) = refuse (dataFault? cls type declared data) := by
  rw [checkData, Value.fields?_ofFields]

/-! ### Nodes and edges -/

/-- Checks the type and the data of a node; gives what its type declares. -/
def checkNode (s : Schema) (type data : Value) : Result NodeType := do
  match ← declared? s.nodeTypes type with
  | none => throw (.unknownType type .node)
  | some (_, t) =>
    checkData .node type t.fields data
    return t

/-- The fault of an edge whose ends have these types, of which the source counts first. -/
def endpointFault? (type : Value) (t : EdgeType) (sourceType targetType : Value) :
    Option Failure :=
  if !sourceType.eqv (.text t.source.nodeType) then
    some (.endpointMismatch type .source t.source.nodeType sourceType)
  else if !targetType.eqv (.text t.target.nodeType) then
    some (.endpointMismatch type .target t.target.nodeType targetType)
  else none

/-- Checks the type and the data of an edge and the types of its ends; gives what its type
declares. -/
def checkEdge (s : Schema) (type data sourceType targetType : Value) : Result EdgeType := do
  match ← declared? s.edgeTypes type with
  | none => throw (.unknownType type .edge)
  | some (_, t) =>
    checkData .edge type t.fields data
    refuse (endpointFault? type t sourceType targetType)
    return t

end PropertyGraph.Schema
