import PropertyGraph.Settings.Giving
import PropertyGraph.Value.Key
import PropertyGraph.Embedding.Hashing

/-!
# Settings

What a store is configured by, and the sources it is read from: a record given in the program, or
the variables of the environment with a record laid over them.  A setting that no source gives has
its default.  The settings are checked in a fixed order, so that of several faults the first one
counts.
-/

namespace PropertyGraph

/-- What to do when a vector cannot be had for a new node. -/
inductive FailurePolicy where
  /-- The node is not made. -/
  | propagate
  /-- The node is made without a vector. -/
  | skip
deriving DecidableEq, Repr

/-- Where vectors come from. -/
structure EmbeddingSettings where
  backend : Value
  modelName : Value
  device : Value
  dimension : Int
  normalize : Bool

/-- How a store goes about vectors. -/
structure Policy where
  embedOnCreate : Value
  failurePolicy : FailurePolicy
  /-- How similar the vectors of two nodes must be for a suggested connection. -/
  threshold : Value

/-- What a store is configured by. -/
structure Config extends Policy where
  embedding : EmbeddingSettings

/-- The names of settings. -/
inductive Setting where
  | embedOnCreate
  | failurePolicy
  | backend
  | model
  | device
  | dimension
  | normalize
  | threshold
deriving DecidableEq, Repr

namespace FailurePolicy

def name : FailurePolicy → String
  | .propagate => "propagate"
  | .skip => "skip"

/-- The policy of a name. -/
def ofValue : Value → Result FailurePolicy
  | .text "propagate" => .ok .propagate
  | .text "skip" => .ok .skip
  | v => .error (.badPolicy v)

end FailurePolicy

namespace Setting

def all : List Setting :=
  [.embedOnCreate, .failurePolicy, .backend, .model, .device, .dimension, .normalize, .threshold]

/-- The key of a setting. -/
def key : Setting → String
  | .embedOnCreate => "EMBED_ON_CREATE"
  | .failurePolicy => "EMBEDDING_FAILURE_POLICY"
  | .backend => "EMBEDDING_BACKEND"
  | .model => "EMBEDDING_MODEL"
  | .device => "EMBEDDING_DEVICE"
  | .dimension => "EMBEDDING_DIMENSION"
  | .normalize => "EMBEDDING_NORMALIZE"
  | .threshold => "SOFT_LINK_THRESHOLD"

/-- The value that a setting has when no source gives it. -/
def default : Setting → Value
  | .embedOnCreate => .bool true
  | .failurePolicy => .text "propagate"
  | .backend => .text "none"
  | .model => .text "sentence-transformers/all-MiniLM-L6-v2"
  | .device => .text "cpu"
  | .dimension => .int 384
  | .normalize => .bool true
  | .threshold => .float 0.9

end Setting

/-- The value of every setting. -/
abbrev Settings := Setting → Value

namespace Settings

/-- All settings at their defaults. -/
def defaults : Settings := Setting.default

/-- Settings with those of a record laid over them. -/
def overlay (s : Settings) (given : Record Value) : Settings := fun x =>
  (Record.get? given x.key).getD (s x)

/-- A record with its names in capital letters and its values treated; of two names that become
one the later counts. -/
def capitalized (treat : Value → Result Value) (given : Record Value) : Result (Record Value) := do
  let pairs ← given.mapM fun p => do return (Text.upper p.1, ← treat p.2)
  return Record.ofList pairs

/-- The settings of a record, whose texts are cast. -/
def ofRecord (given : Record Value) : Result Settings := do
  return defaults.overlay (← capitalized Cast.ofValue given)

/-- The settings among the variables of the environment: those whose names begin with `mark`, which
is left off. -/
def ofVariables (mark : String) (env : List (String × String)) : List (String × Value) :=
  env.filterMap fun p =>
    let cs := p.1.toList
    if mark.toList.isPrefixOf cs then some (String.ofList (cs.drop mark.length), .text p.2)
    else none

/-- Gives the settings of the variables with a mark; the texts of all of them are cast first. -/
def giveVariables (words : Vocabulary) (env : List (String × String)) (s : Record Value)
    (mark : String) : Result (Record Value) := do
  let cast ← (ofVariables mark env).mapM fun p => do return (p.1, ← Cast.ofValue p.2)
  giveAll words s cast

/-- Gives a setting its default where it has no value. -/
def supply (words : Vocabulary) (s : Record Value) (x : Setting) : Result (Record Value) :=
  match find? s x.key with
  | none | some .null => giveTop words s x.key x.default
  | some _ => .ok s

/-- The settings of the environment, by variables with weaker marks first, then the defaults of
those that are missing, and last a record that overrides them. -/
def ofEnvironment (words : Vocabulary) (env : List (String × String)) (overrides : Record Value) :
    Result Settings := do
  let s ← words.marks.foldlM (giveVariables words env) []
  let s ← Setting.all.foldlM (supply words) s
  let s ← giveAll words s (overrides.map fun p => (Text.upper p.1, p.2))
  return fun x => (find? s x.key).getD .null

end Settings

namespace Policy

/-- Whether a threshold lies between -1 and 1; it must be a number. -/
def thresholdInRange (v : Value) : Result Bool :=
  match v.number? with
  | some x =>
    let within := (x.less (.ofInt 1) || x.same (.ofInt 1)) &&
      ((Exact.ofInt (-1)).less x || x.same (.ofInt (-1)))
    .ok within
  | none => .error (.misfit .notComparable)

/-- The policy of its parts: what to do without a vector is checked first, then the threshold. -/
def checked (embedOnCreate failurePolicy threshold : Value) : Result Policy := do
  let failurePolicy ← FailurePolicy.ofValue failurePolicy
  if ← thresholdInRange threshold then return ⟨embedOnCreate, failurePolicy, threshold⟩
  else throw .thresholdRange

/-- The default policy. -/
def default : Policy := ⟨Setting.embedOnCreate.default, .propagate, Setting.threshold.default⟩

/-- The part of a configuration that says where vectors come from. -/
def embeddingName : String := "embedding"

/-- The names of the parts of a configuration. -/
def partNames : List String :=
  ["embed_on_create", "embedding_failure_policy", "soft_link_threshold", embeddingName]

/-- The policy of a configuration that is given by named parts, each used as it is given.  Where
vectors come from may be among them; that is no matter for the policy. -/
def ofParts : Value → Result Policy
  | .record given =>
    if (Record.keys given).all partNames.contains then
      let part (name : String) (x : Setting) : Value := (Record.get? given name).getD x.default
      checked (part "embed_on_create" .embedOnCreate)
        (part "embedding_failure_policy" .failurePolicy)
        (part "soft_link_threshold" .threshold)
    else .error (.misfit .unknownSetting)
  | _ => .error (.misfit .unknownSetting)

end Policy

namespace Config

/-- A setting that must be a truth value. -/
def flag (s : Settings) (x : Setting) : Result Bool :=
  match s x with
  | .bool b => .ok b
  | v => .error (.notFlag x.key v)

/-- The configuration that settings give. -/
def ofSettings (s : Settings) : Result Config := do
  let embedOnCreate ← flag s .embedOnCreate
  let threshold ← (s .threshold).toFloat
  let dimension ← (s .dimension).toInteger
  let normalize ← flag s .normalize
  let policy ← Policy.checked (.bool embedOnCreate) (s .failurePolicy) (.float threshold)
  return ⟨policy, ⟨s .backend, s .model, s .device, dimension, normalize⟩⟩

/-- Where vectors come from by default. -/
def defaultEmbedding : EmbeddingSettings :=
  ⟨Setting.backend.default, Setting.model.default, Setting.device.default, 384, true⟩

/-- The configuration that a record of settings gives; without a record it is the default one. -/
def load : Value → Result Config
  | .null => ofSettings Settings.defaults
  | .record given => do ofSettings (← Settings.ofRecord given)
  | _ => .error (.misfit .notRecord)

/-- The configuration that the environment gives, with overrides. -/
def loadEnvironment (words : Settings.Vocabulary) (env : List (String × String))
    (overrides : Record Value) : Result Config := do
  ofSettings (← Settings.ofEnvironment words env overrides)

/-- The configuration that is given by named parts.  Where vectors come from cannot be given in this
way, since no value has the parts that it needs. -/
def ofParts (v : Value) : Result Config := do
  let policy ← Policy.ofParts v
  match v with
  | .record given =>
    if Record.has given Policy.embeddingName then .error (.misfit .notRecord)
    else return ⟨policy, defaultEmbedding⟩
  | _ => return ⟨policy, defaultEmbedding⟩

end Config

/-- The encoder that settings select, if they select one. -/
def EmbeddingSettings.encoder? (s : EmbeddingSettings) : Result (Option HashingEncoder) :=
  match s.backend with
  | .text "none" => .ok none
  | .text "hashing" => do return some (← HashingEncoder.ofDimension s.dimension s.normalize)
  | v => .error (.unknownBackend v)

end PropertyGraph
