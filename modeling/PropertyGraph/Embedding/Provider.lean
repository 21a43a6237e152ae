import PropertyGraph.Embedding.Hashing
import PropertyGraph.Value.Conversion

/-!
# Providers of vectors

Something that gives a vector for a text.  What it gives may hang on how often it was asked before,
it need not be a vector at all, and it may fail.
-/

namespace PropertyGraph

/-- What is given for a text after so many others. -/
abbrev Provider := Nat → String → Result Value

namespace Provider

/-- The vectors of an encoder, each worked out afresh. -/
def ofEncoder (e : HashingEncoder) : Provider := fun _ s => do
  return .list ((← e.encodeOne [] s).1.toList.map .float)

/-- The values of a list, one after another. -/
def ofList (vectors : List Value) : Provider := fun call _ =>
  match vectors[call]? with
  | some v => .ok v
  | none => .error .noVector

/-- The length of the text, and a one. -/
def lengths : Provider := fun _ s => .ok (.list [.int s.length, .int 1])

/-- Nothing, for this reason. -/
def unavailable (reason : String) : Provider := fun _ _ => .error (.unavailable reason)

end Provider

end PropertyGraph
