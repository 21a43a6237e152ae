import PropertyGraph.Schema
import PropertyGraph.Value.Text

/-!
# Problems of a raw schema

What can be wrong with a value that is read as a schema, and where.  A place is the path of names
and positions that leads to it from the top.  What has a name that is no text has its place under
the name as it is spelled, or under its number.
-/

namespace PropertyGraph.Schema

/-- One step of the path to a place inside a value. -/
inductive Step where
  | name (s : String)
  | index (n : Int)
deriving DecidableEq, Repr

/-- The step to what stands under a key; only integers of 64 bits are numbers of places. -/
def Step.ofKey : Value → Step
  | .bool b => .index (if b then 1 else 0)
  | .int n =>
    if Int64.minValue.toInt ≤ n ∧ n ≤ Int64.maxValue.toInt then .index n
    else .name (Value.int n).display
  | key => .name key.display

/-- What is wrong at a place. -/
inductive Fault where
  | notRecord
  | notList
  | notText
  /-- A byte string that encodes no text. -/
  | notEncoded
  | notBool
  /-- A type, a connection or an access control that is no record. -/
  | notModel
  | missing
  | unknownField
  /-- A field whose name is no text. -/
  | badName
  | unknownKind
  | unknownRole
  | emptyText
  | inconsistent (why : Inconsistency)
deriving DecidableEq, Repr

/-- Something wrong at a place. -/
structure Problem where
  path : List Step
  fault : Fault
deriving DecidableEq, Repr

/-- The code of a fault. -/
def Fault.code : Fault → String
  | .notRecord => "dict_type"
  | .notList => "list_type"
  | .notText => "string_type"
  | .notEncoded => "string_unicode"
  | .notBool => "bool_type"
  | .notModel => "model_type"
  | .missing => "missing"
  | .unknownField => "extra_forbidden"
  | .badName => "invalid_key"
  | .unknownKind => "enum"
  | .unknownRole => "literal_error"
  | .emptyText => "string_too_short"
  | .inconsistent _ => "value_error"

/-- The sentence that goes with a fault, if one does. -/
def Fault.text? : Fault → Option String
  | .inconsistent why => some ("Value error, " ++ why.message)
  | _ => none

end PropertyGraph.Schema
