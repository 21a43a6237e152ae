import PropertyGraph.Record
import PropertyGraph.Moment
import PropertyGraph.Number.Exact
import PropertyGraph.Text.Point

/-!
# Values

The values that nodes, edges, facts and settings hold.  A record is a value too: its names are
texts, in insertion order.  A mapping is a record in which some name is no text, or no text of
characters; like such texts themselves it comes from outside only.  Moments come from settings only.

Two values are *equal* (`Value.eqv`) when they are numbers with the same exact value, a truth value
counting as zero or one, or values of one shape with equal parts; the order of names in a record
does not count, and a NaN equals nothing.  They are *the same* (`Value.same`) when they are equal
and a truth value is paired only with a truth value at the top.
-/

namespace PropertyGraph

/-- A value. -/
inductive Value where
  | null
  | bool (b : Bool)
  | int (n : Int)
  | float (x : Float)
  | text (s : String)
  /-- A text in which half of a pair stands alone. -/
  | points (ps : List Text.Point)
  | list (items : List Value)
  | tuple (items : List Value)
  | record (fields : List (String × Value))
  /-- A record in which some name is no text of characters. -/
  | mapping (fields : List (Value × Value))
  | bytes (data : List UInt8)
  | moment (m : Moment)

namespace Value

instance : Inhabited Value := ⟨.null⟩

/-- The exact value of a number; a truth value counts as zero or one. -/
def number? : Value → Option Exact
  | .bool b => some (.ofInt (if b then 1 else 0))
  | .int n => some (.ofInt n)
  | .float x => some (.ofFloat x)
  | _ => none

/-- Whether two values are numbers with the same exact value. -/
def sameNumber (a b : Value) : Bool :=
  match a.number?, b.number? with
  | some x, some y => x.same y
  | _, _ => false

mutual

/-- Whether two values are equal. -/
def eqv : Value → Value → Bool
  | .null, .null => true
  | .text s, .text t => s == t
  | .points s, .points t => s == t
  | .bytes s, .bytes t => s == t
  | .moment a, .moment b => a.key = b.key
  | .list xs, .list ys => eqvItems xs ys
  | .tuple xs, .tuple ys => eqvItems xs ys
  | .record fs, .record gs => fs.length == gs.length && eqvFields fs gs
  | .mapping fs, .mapping gs => fs.length == gs.length && eqvMapping fs gs
  | .bool a, w => sameNumber (.bool a) w
  | .int a, w => sameNumber (.int a) w
  | .float a, w => sameNumber (.float a) w
  | _, _ => false
termination_by structural v => v

/-- Whether two lists are equal item by item. -/
def eqvItems : List Value → List Value → Bool
  | [], [] => true
  | v :: vs, w :: ws => eqv v w && eqvItems vs ws
  | _, _ => false

/-- Whether every field of the first record has an equal one in the second. -/
def eqvFields : List (String × Value) → List (String × Value) → Bool
  | [], _ => true
  | (k, v) :: rest, gs =>
    (match gs.lookup k with
      | some w => eqv v w
      | none => false) && eqvFields rest gs

/-- Whether every field of the first mapping has an equal one in the second. -/
def eqvMapping : List (Value × Value) → List (Value × Value) → Bool
  | [], _ => true
  | (k, v) :: rest, gs =>
    (match gs.find? fun p => eqv k p.1 with
      | some p => eqv v p.2
      | none => false) && eqvMapping rest gs

end

/-- The text that points are. -/
def ofPoints (ps : List Text.Point) : Value :=
  match Text.characters? ps with
  | some cs => .text (String.ofList cs)
  | none => .points ps

/-- Whether a value is a truth value. -/
def isBool : Value → Bool
  | .bool _ => true
  | _ => false

/-- Whether two values are equal and agree on being a truth value. -/
def same (a b : Value) : Bool := a.isBool == b.isBool && a.eqv b

/-- The items of a list or a tuple. -/
def items? : Value → Option (List Value)
  | .list xs | .tuple xs => some xs
  | _ => none

/-- Whether a value counts as true: it is neither null, false, zero nor empty. -/
def truthy : Value → Bool
  | .null => false
  | .bool b => b
  | .int n => n != 0
  | .float x => x != 0.0
  | .text s => !s.isEmpty
  | .points ps => !ps.isEmpty
  | .list xs | .tuple xs => !xs.isEmpty
  | .record fs => !fs.isEmpty
  | .mapping fs => !fs.isEmpty
  | .bytes bs => !bs.isEmpty
  | .moment _ => true

/-- The name of the type of a value, as messages give it. -/
def typeName : Value → String
  | .null => "NoneType"
  | .bool _ => "bool"
  | .int _ => "int"
  | .float _ => "float"
  | .text _ | .points _ => "str"
  | .list _ => "list"
  | .tuple _ => "tuple"
  | .record _ | .mapping _ => "dict"
  | .bytes _ => "bytes"
  | .moment m => m.typeName

/-! ### Equality on each shape -/

@[simp] theorem eqv_text_text (s t : String) : eqv (.text s) (.text t) = (s == t) := by
  simp [eqv]

@[simp] theorem eqv_null_null : eqv .null .null = true := by simp [eqv]

@[simp] theorem eqv_bool_bool (a b : Bool) : eqv (.bool a) (.bool b) = (a == b) := by
  cases a <;> cases b <;> decide

@[simp] theorem eqv_int_int (m n : Int) : eqv (.int m) (.int n) = decide (m = n) := by
  simp [eqv, sameNumber, number?]

/-- A text equals only itself. -/
theorem eqv_text_iff (s : String) (v : Value) : eqv (.text s) v = true ↔ v = .text s := by
  cases v with
  | text t => rw [eqv_text_text, beq_iff_eq, Value.text.injEq]; exact eq_comm
  | _ => simp [eqv]

/-- A text is the same as itself only. -/
theorem same_text_iff (s : String) (v : Value) : same (.text s) v = true ↔ v = .text s := by
  rw [← eqv_text_iff]
  cases v <;> simp [same, isBool, eqv]

/-- A truth value is the same as itself only. -/
theorem same_bool_iff (b : Bool) (v : Value) : same (.bool b) v = true ↔ v = .bool b := by
  cases v with
  | bool c => cases b <;> cases c <;> simp [same, isBool]
  | _ => simp [same, isBool]

end Value

end PropertyGraph
