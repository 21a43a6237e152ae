import PropertyGraph.Value.Text
import PropertyGraph.Schema.Problem

/-!
# Failures

Everything that can go wrong, by cause.  `Failure.message` is the sentence that tells the cause.
-/

namespace PropertyGraph

/-- How a value has not the shape that an operation needs. -/
inductive Misfit where
  /-- Named parts are wanted of a value that has none. -/
  | notRecord
  /-- Members are wanted of a value that has none. -/
  | notIterable
  | notNumber
  | notText
  /-- A value that cannot identify anything is used to look something up. -/
  | noKey
  /-- A place in a list is asked for by name. -/
  | noNamedPart
  /-- There are too few parts, or too many. -/
  | wrongCount
  /-- A bound is no number. -/
  | notComparable
  /-- Labels have no order, or one of them has no text. -/
  | notWritable
  | unknownSetting
deriving DecidableEq, Repr

/-- Why an operation failed. -/
inductive Failure where
  -- Schemas
  | schemaNotRecord
  | badSchema (problems : List Schema.Problem)
  | renderingNeedsSchema
  -- Identity and references
  | duplicate (cls : EntityClass) (id : Value)
  | missingEndpoints (edge : Value) (missing : List Value)
  | nullNode
  -- Entities that do not conform to the schema
  | unknownType (type : Value) (cls : EntityClass)
  | missingProperty (property : String) (type : Value) (cls : EntityClass)
  | kindMismatch (property : String) (expected : Kind) (actual : String) (type : Value)
      (cls : EntityClass)
  | unknownProperty (property : Value) (type : Value) (cls : EntityClass)
  | endpointMismatch (type : Value) (side : Side) (expected : String) (actual : Value)
  | cardinality (type : Value) (side : Side) (node existing : Value)
  -- Facts
  | factNotRecord (source : Value)
  | factsNotArray
  | notJson
  | emptyVariable
  -- Values
  | misfit (m : Misfit)
  | missingKey (key : Value)
  | pairLength (index length : Nat)
  | badFloat (source : Value)
  | badInteger (source : Value)
  | notANumber
  | tooLarge
  /-- An integer of this many digits is not read. -/
  | tooManyDigits (count : Nat)
  /-- An integer has more digits than are written. -/
  | unwrittenInteger
  | outsideCalendar
  /-- A part of a date or a time of day does not exist. -/
  | badPart (p : Reading.Part)
  /-- No clock is this many seconds ahead. -/
  | badOffset (seconds : Int)
  -- Settings
  | badConverter
  | notFlag (key : String) (value : Value)
  | badPolicy (value : Value)
  | thresholdRange
  | unknownBackend (value : Value)
  | badDimension
  /-- A vector of this many components cannot be counted, or cannot be laid out. -/
  | vectorTooLong (dimension : Nat)
  | outOfMemory
  -- Embeddings and events
  | unavailable (message : String)
  | noVector
  /-- The parts of an array differ in shape beyond these axes. -/
  | unevenShape (axes : List Nat)
  /-- An array has more axes than this. -/
  | tooDeep (most : Nat)
  /-- Two arrays with these axes have no product: `last` and `before` are their last two. -/
  | misaligned (axes : List Nat) (last before : Nat)
  /-- The product of two arrays has too many axes. -/
  | productTooDeep
  /-- A product cannot be worked out for arrays of so many axes, but only of `most`. -/
  | tooManyAxes (most axes : Nat)
  | unknownEvent (name : String)
  | unknownKind (name : String)
  | raised (message : String)
  | nestedTooDeep

namespace Misfit

/-- What is missing, as a phrase. -/
def message : Misfit → String
  | .notRecord => "the value has no named parts"
  | .notIterable => "the value has no members"
  | .notNumber => "the value is no number"
  | .notText => "the value is no text"
  | .noKey => "the value cannot identify anything"
  | .noNamedPart => "the parts of the value have no names"
  | .wrongCount => "the value has too few parts or too many"
  | .notComparable => "the value cannot be compared with a number"
  | .notWritable => "the labels of the value cannot be written"
  | .unknownSetting => "there is no such setting"

end Misfit

namespace Failure

/-- A value between single quotes, in the middle of a sentence. -/
def mention (v : Value) : String := "'" ++ v.display ++ "'"

/-- At most the first 200 characters. -/
def excerpt (s : String) : String := String.ofList (s.toList.take 200)

/-- That an integer has more digits than are read or written. -/
def longIntegerText : String :=
  "Exceeds the limit (" ++ toString Numeral.maxDigits ++ " digits) for integer string conversion"

/-- What can be done about it. -/
def longIntegerAdvice : String :=
  "; use sys.set_int_max_str_digits() to increase the limit"

/-- A sentence that ends with a value, unless the value holds an integer that is not written. -/
def mentioning (start : String) (v : Value) : String :=
  if v.tooLong then longIntegerText ++ longIntegerAdvice else start ++ v.quoted

/-- The first number of components that cannot be counted. -/
def countable : Nat := 0x8000000000000000

/-- Numbers between parentheses, each after a comma but the first, with a comma after a single
one. -/
def axesText (axes : List Nat) (comma : String) : String :=
  let texts := axes.map toString
  "(" ++ comma.intercalate texts ++ (if texts.length = 1 then ",)" else ")")

/-- Why, as a sentence. -/
def message : Failure → String
  | .schemaNotRecord => "Schema must have 'node_types' and 'edge_types' objects."
  | .badSchema _ => "Invalid schema"
  | .renderingNeedsSchema => "Rendering facts requires a schema."
  | .duplicate cls id => cls.title ++ " with ID " ++ mention id ++ " already exists."
  | .missingEndpoints edge missing =>
    "Source or target node not found for edge " ++ mention edge ++ ": " ++
      ", ".intercalate (missing.map Value.display) ++ "."
  | .nullNode => "None cannot be a node"
  | .unknownType type cls =>
    cls.title ++ " type " ++ mention type ++ " is not defined in the schema."
  | .missingProperty property type cls =>
    "Missing required property '" ++ property ++ "' for " ++ cls.name ++ " type " ++
      mention type ++ "."
  | .kindMismatch property expected actual type cls =>
    "Invalid type for property '" ++ property ++ "' on " ++ cls.name ++ " type " ++
      mention type ++ ". Expected " ++ expected.name ++ ", got " ++ actual ++ "."
  | .unknownProperty property type cls =>
    "Unknown property " ++ mention property ++ " found on " ++ cls.name ++ " type " ++
      mention type ++ "."
  | .endpointMismatch type side expected actual =>
    "Edge type " ++ mention type ++ " requires " ++ side.name ++ " node of type '" ++ expected ++
      "', but got " ++ mention actual ++ "."
  | .cardinality type side node _ =>
    "Cardinality error: " ++ side.title ++ " node " ++ node.display ++ " can only have one " ++
      side.direction ++ " edge of type " ++ mention type ++ "."
  | .factNotRecord source => "Facts must be objects, got " ++ source.typeName
  | .factsNotArray => "JSON file must contain an array of fact objects"
  | .notJson => "the text is no JSON"
  | .emptyVariable => "Variable name must be a non-empty string"
  | .misfit m => m.message
  | .missingKey key => key.quoted
  | .pairLength index length =>
    "dictionary update sequence element #" ++ toString index ++ " has length " ++
      toString length ++ "; 2 is required"
  | .badFloat source => "could not convert string to float: " ++ source.quoted
  | .badInteger source => "invalid literal for int() with base 10: " ++ excerpt source.quoted
  | .notANumber => "cannot convert float NaN to integer"
  | .tooLarge => "the number is too large"
  | .tooManyDigits count =>
    longIntegerText ++ ": value has " ++ toString count ++ " digits" ++ longIntegerAdvice
  | .unwrittenInteger => longIntegerText ++ longIntegerAdvice
  | .outsideCalendar => "the instant lies outside the years 1 to 9999"
  | .badPart p => p.message
  | .badOffset seconds =>
    "offset must be a timedelta strictly between -timedelta(hours=24) and " ++
      "timedelta(hours=24), not " ++ Moment.durationText seconds ++ "."
  | .badConverter => "the value cannot be converted as asked"
  | .notFlag key value => mentioning (key ++ " must be a boolean, got ") value
  | .badPolicy value =>
    mentioning "embedding_failure_policy must be 'propagate' or 'skip', got " value
  | .thresholdRange => "soft_link_threshold must lie in [-1, 1]"
  | .unknownBackend value => mentioning "Unknown embedding backend: " value
  | .badDimension => "dimension must be positive"
  | .vectorTooLong dimension =>
    if dimension < countable then
      "array is too big; `arr.size * arr.dtype.itemsize` is larger than the maximum possible size."
    else "Maximum allowed dimension exceeded"
  | .outOfMemory => "there is no room for the vector"
  | .unavailable message => message
  | .noVector => "there is no vector for this call"
  | .unevenShape axes =>
    "setting an array element with a sequence. The requested array has an inhomogeneous shape " ++
      "after " ++ toString axes.length ++ " dimensions. The detected shape was " ++
      axesText axes ", " ++ " + inhomogeneous part."
  | .tooDeep most =>
    "setting an array element with a sequence. The requested array would exceed the maximum " ++
      "number of dimension of " ++ toString most ++ "."
  | .productTooDeep => "dot: too many dimensions in result"
  | .tooManyAxes most axes =>
    "this function only supports up to " ++ toString most ++ " dimensions but the array has " ++
      toString axes ++ "."
  | .misaligned axes last before =>
    "shapes " ++ axesText axes "," ++ " and " ++ axesText axes "," ++ " not aligned: " ++
      toString last ++ " (dim " ++ toString (axes.length - 1) ++ ") != " ++ toString before ++
      " (dim " ++ toString (axes.length - 2) ++ ")"
  | .unknownEvent name => Text.quoted name ++ " is not a valid GraphEvent"
  | .unknownKind name => Text.quoted name ++ " is not a valid FieldKind"
  | .raised message => message
  | .nestedTooDeep => "the operations are nested too deeply"

end Failure

/-- What an operation gives: a value, or why there is none. -/
abbrev Result (α : Type u) := Except Failure α

/-- One thing after another succeeds when both do. -/
theorem bind_eq_ok_iff {ε α β : Type} {x : Except ε α} {k : α → Except ε β} {b : β} :
    (x >>= k) = .ok b ↔ ∃ a, x = .ok a ∧ k a = .ok b := by
  cases x <;> simp [bind, Except.bind]

/-- One thing after another fails when the first fails, or the second after it. -/
theorem bind_eq_error_iff {ε α β : Type} {x : Except ε α} {k : α → Except ε β} {f : ε} :
    (x >>= k) = .error f ↔ x = .error f ∨ ∃ a, x = .ok a ∧ k a = .error f := by
  cases x <;> simp [bind, Except.bind]

end PropertyGraph
