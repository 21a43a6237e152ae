import PropertyGraph.Digest
import PropertyGraph.Failure

/-!
# Hashed text vectors

A vector for a text without a model: each character adds `sin (0.1 · code) · cos (0.1 · position)`
to the component `code · (position + 1)` modulo the dimension.  The vectors of an encoder are kept
in a cache, under a digest of the dimension and the text, so that a text is worked out once.  An
encoder of any dimension can be made, but no vector is worked out that is too long to be laid out,
and nothing is kept under a dimension that is too long to be written.
-/

namespace PropertyGraph

/-- An encoder of texts. -/
structure HashingEncoder where
  dimension : Nat
  /-- Whether vectors are scaled to length one. -/
  normalize : Bool
  dimension_pos : 0 < dimension
  /-- The first number of components that there is no room for, which is up to the machine. -/
  room : Nat := 0x8000000

namespace HashingEncoder

/-- The encoder with a dimension, which must be positive. -/
def ofDimension (dimension : Int) (normalize : Bool) : Result HashingEncoder :=
  if h : 0 < dimension then
    .ok { dimension := dimension.toNat, normalize := normalize, dimension_pos := by omega }
  else .error .badDimension

/-- What a character adds to its component. -/
def contribution (code position : Nat) : Float :=
  Float.sin (Float.ofNat code * 0.1) * Float.cos (Float.ofNat position * 0.1)

/-- The component that a character adds to. -/
def slot (e : HashingEncoder) (code position : Nat) : Nat := code * (position + 1) % e.dimension

/-- Adds one character to a vector. -/
def addChar (e : HashingEncoder) (v : Vector Float e.dimension) (p : Char × Nat) :
    Vector Float e.dimension :=
  let i := e.slot p.1.toNat p.2
  have h : i < e.dimension := Nat.mod_lt _ e.dimension_pos
  v.set i (v[i] + contribution p.1.toNat p.2)

/-- A vector scaled to length one, where it has a length. -/
def unit {n : Nat} (v : Vector Float n) : Vector Float n :=
  let norm := (v.foldl (fun sum x => sum + x * x) 0.0).sqrt
  if norm > 0.0 then v.map (· / norm) else v

/-- The vector of a text. -/
def vector (e : HashingEncoder) (s : String) : Vector Float e.dimension :=
  let v := s.toList.zipIdx.foldl e.addChar (Vector.replicate e.dimension 0.0)
  if e.normalize then unit v else v

/-- The first number of components, eight bytes each, whose bytes cannot be counted. -/
def tooLong : Nat := 0x1000000000000000

/-- Checks that a vector of an encoder can be laid out. -/
def checkRoom (e : HashingEncoder) : Result Unit :=
  if tooLong ≤ e.dimension then .error (.vectorTooLong e.dimension)
  else if e.room ≤ e.dimension then .error .outOfMemory
  else .ok ()

/-- The vector of a text, where there is room for it. -/
def vector? (e : HashingEncoder) (s : String) : Result (Vector Float e.dimension) := do
  e.checkRoom
  return e.vector s

/-! ### The cache -/

/-- What is digested for a text. -/
def payload (e : HashingEncoder) (s : String) : String :=
  "HashingEmbeddingEncoder:" ++ toString e.dimension ++ ":" ++ s

/-- The bytes that are digested for a text. -/
def bytes (e : HashingEncoder) (s : String) : List UInt8 := (e.payload s).toUTF8.data.toList

/-- What the vector of a text is kept under. -/
def key (e : HashingEncoder) (s : String) : Result String :=
  if Value.longInteger e.dimension then .error .unwrittenInteger
  else .ok (Digest.ofBytes (e.bytes s)).text

/-- The vectors that were worked out, by the keys of their texts. -/
abbrev Cache (e : HashingEncoder) := Record (Vector Float e.dimension)

/-- The vector of a text, from the cache where its key is there. -/
def encodeOne (e : HashingEncoder) (cache : Cache e) (s : String) :
    Result (Vector Float e.dimension × Cache e) := do
  let key ← e.key s
  match Record.get? cache key with
  | some v => return (v, cache)
  | none => do
    let v ← e.vector? s
    return (v, Record.set cache key v)

/-- The vectors of several texts in order, and the cache after them. -/
def encode (e : HashingEncoder) (cache : Cache e) :
    List String → Result (List (Vector Float e.dimension) × Cache e)
  | [] => .ok ([], cache)
  | s :: rest => do
    let (v, cache) ← e.encodeOne cache s
    let (vs, cache) ← e.encode cache rest
    return (v :: vs, cache)

/-! ### Calls -/

/-- What an encoder is asked for: the vectors of several texts, or that of one. -/
inductive Call where
  | texts (ss : List String)
  | text (s : String)

/-- The texts whose vectors are asked for. -/
def Call.asked : Call → List String
  | .texts ss => ss
  | .text s => [s]

/-- The vectors that a call gives, and the cache after it. -/
def answer (e : HashingEncoder) (cache : Cache e) :
    Call → Result (List (Vector Float e.dimension) × Cache e)
  | .texts ss => e.encode cache ss
  | .text s => do
    let (v, cache) ← e.encodeOne cache s
    return ([v], cache)

/-- What one call after another gives.  A call fails only where no text has a vector, so that it
leaves the cache as it was. -/
def answers (e : HashingEncoder) (cache : Cache e) :
    List Call → List (Result (List (Vector Float e.dimension)))
  | [] => []
  | c :: rest =>
    match e.answer cache c with
    | .ok (vs, cache) => .ok vs :: e.answers cache rest
    | .error f => .error f :: e.answers cache rest

end HashingEncoder

end PropertyGraph
