import PropertyGraph.Value

/-!
# Kinds

The five kinds of value that a schema can ask of a field.  A truth value is no number, lists and
tuples are both arrays, and null, byte strings and moments are of no kind (`Kind.accepts_iff`).
-/

namespace PropertyGraph

/-- What a schema can ask of the value of a field. -/
inductive Kind where
  | string
  | number
  | boolean
  | array
  | object
deriving DecidableEq, Repr

namespace Kind

/-- All kinds, in their order. -/
def all : List Kind := [.string, .number, .boolean, .array, .object]

/-- The name by which a schema asks for a kind. -/
def name : Kind → String
  | .string => "string"
  | .number => "number"
  | .boolean => "boolean"
  | .array => "array"
  | .object => "object"

/-- The kind of a name. -/
def ofName? (s : String) : Option Kind := all.find? (·.name == s)

/-- Whether a value is of a kind. -/
def accepts : Kind → Value → Bool
  | .string, .text _ | .string, .points _ => true
  | .number, .int _ | .number, .float _ => true
  | .boolean, .bool _ => true
  | .array, .list _ | .array, .tuple _ => true
  | .object, .record _ | .object, .mapping _ => true
  | _, _ => false

end Kind

namespace Value

/-- The kind of a value, if it is of one. -/
def kind? (v : Value) : Option Kind := Kind.all.find? (·.accepts v)

/-- What a message calls the kind of a value. -/
def kindName (v : Value) : String :=
  match v with
  | .null => "null"
  | _ => match v.kind? with
    | some k => k.name
    | none => v.typeName

end Value

namespace Kind

@[simp] theorem ofName?_name (k : Kind) : ofName? k.name = some k := by
  cases k <;> decide

theorem name_injective {j k : Kind} (h : j.name = k.name) : j = k := by
  have := congrArg ofName? h
  simpa using this

/-- A name has a kind only when it is the name of that kind. -/
theorem ofName?_eq_some_iff (s : String) (k : Kind) : ofName? s = some k ↔ s = k.name := by
  constructor
  · intro h
    have hk : (k.name == s) = true := List.find?_some (p := fun k => name k == s) h
    exact (beq_iff_eq.1 hk).symm
  · rintro rfl
    exact ofName?_name k

/-- A value is of at most one kind. -/
theorem accepts_iff (k : Kind) (v : Value) : k.accepts v = true ↔ v.kind? = some k := by
  cases v <;> cases k <;> simp [accepts, Value.kind?, all]

theorem kindName_of_kind?_eq_some {k : Kind} {v : Value} (h : v.kind? = some k) :
    v.kindName = k.name := by
  cases v with
  | null => simp [Value.kind?, all, accepts] at h
  | _ => simp [Value.kindName, h]

/-- What is of no kind is called by none of their names. -/
theorem kindName_ne_of_kind?_eq_none {v : Value} (h : v.kind? = none) (k : Kind) :
    v.kindName ≠ k.name := by
  cases v with
  | null => cases k <;> simp [Value.kindName, name]
  | bytes _ => cases k <;> simp [Value.kindName, Value.typeName, h, name]
  | moment m =>
    cases m <;> cases k <;> simp [Value.kindName, Value.typeName, Moment.typeName, h, name]
  | _ => simp [Value.kind?, all, accepts] at h

/-- A value that is not of a kind is called something else. -/
theorem kindName_ne_of_not_accepts {k : Kind} {v : Value} (h : k.accepts v = false) :
    v.kindName ≠ k.name := by
  intro e
  cases hk : v.kind? with
  | some j =>
    rw [kindName_of_kind?_eq_some hk] at e
    rw [← name_injective e, (accepts_iff j v).2 hk] at h
    exact Bool.noConfusion h
  | none => exact kindName_ne_of_kind?_eq_none hk k e

end Kind

end PropertyGraph
