import PropertyGraph.Value.Conversion

/-!
# Vectors and their similarity

The cosine of the angle between two vectors, and the candidates whose scores are highest.  Vectors
of different shapes, vectors without a component and zero vectors have no angle and score zero.  A
vector may be a bare number, and its components may be vectors again as long as all of them have one
shape; but tables of numbers have no angle.

`topK` sorts the scores in ascending order, a NaN after all numbers and equal scores in their given
order, turns the list around and takes the first `k` indices; a negative `k` leaves off that many
at the end.
-/

namespace PropertyGraph.Embedding

/-! ### Shapes -/

/-- How many components a value has along each axis; where its parts differ in that, the axes go
only as far as the parts agree, and the shape is not even. -/
structure Shape where
  axes : List Nat
  even : Bool

/-- What two lists begin with. -/
def commonStart : List Nat → List Nat → List Nat
  | m :: ms, n :: ns => if m = n then m :: commonStart ms ns else []
  | _, _ => []

/-- The shape that two parts of a value have in common. -/
def Shape.meet (a b : Shape) : Shape :=
  ⟨commonStart a.axes b.axes, a.even && b.even && a.axes == b.axes⟩

mutual

/-- The shape of a value, as far as `depth` axes; what lies deeper is not even. -/
def shape (depth : Nat) : Value → Shape
  | .list items | .tuple items =>
    match depth with
    | 0 => ⟨[], false⟩
    | depth + 1 => itemsShape depth items
  | _ => ⟨[], true⟩

/-- The shape of a list with these items. -/
def itemsShape (depth : Nat) : List Value → Shape
  | [] => ⟨[0], true⟩
  | v :: vs =>
    let part := sharedShape depth (shape depth v) vs
    ⟨(vs.length + 1) :: part.axes, part.even⟩

/-- What a shape has in common with the shapes of several values. -/
def sharedShape (depth : Nat) (s : Shape) : List Value → Shape
  | [] => s
  | v :: vs => sharedShape depth (s.meet (shape depth v)) vs

end

/-- How many axes an array may have. -/
def mostAxes : Nat := 64

/-- The axes of a value whose shape is even. -/
def axes (v : Value) : Result (List Nat) :=
  let s := shape mostAxes v
  if s.even then .ok s.axes
  else if s.axes.length = mostAxes then .error (.tooDeep mostAxes)
  else .error (.unevenShape s.axes)

/-! ### Components -/

/-- The components of a value in order, with their number along each axis. -/
structure Components where
  axes : List Nat
  values : List Float

/-- A component: a number, or nothing, which counts as a NaN. -/
def component : Value → Result Float
  | .null => .ok Numeral.notANumber
  | v => v.toFloat

mutual

/-- The components that a value holds at any depth. -/
def flatten : Value → Result (List Float)
  | .list items | .tuple items => flattenAll items
  | v => do return [← component v]

/-- The components that several values hold. -/
def flattenAll : List Value → Result (List Float)
  | [] => .ok []
  | v :: vs => do return (← flatten v) ++ (← flattenAll vs)

end

/-- The components of a value whose shape is even. -/
def components (v : Value) : Result Components := do
  return ⟨← axes v, ← flatten v⟩

/-- The sum of the products of the components. -/
def dot (xs ys : List Float) : Float :=
  (xs.zip ys).foldl (fun sum p => sum + p.1 * p.2) 0.0

/-- The length of a vector. -/
def norm (xs : List Float) : Float := (dot xs xs).sqrt

/-- How many axes an array may have whose product with another one is worked out. -/
def mostProductAxes : Nat := 32

/-- Checks that the product of two arrays with these axes is a number, as it is when they have no
more than one axis. -/
def checkProduct (axes : List Nat) : Result Unit :=
  match axes.reverse with
  | n :: m :: _ =>
    if n ≠ m then .error (.misaligned axes n m)
    else if mostAxes < 2 * axes.length - 2 then .error .productTooDeep
    else if mostProductAxes < axes.length then .error (.tooManyAxes mostProductAxes axes.length)
    else .error (.misfit .notNumber)
  | _ => .ok ()

/-- The cosine of the angle between two vectors. -/
def cosine (a b : Components) : Result Float :=
  if a.axes ≠ b.axes || a.values.isEmpty then .ok 0.0
  else
    let scale := norm a.values * norm b.values
    if scale == 0.0 then .ok 0.0
    else do
      checkProduct a.axes
      return dot a.values b.values / scale

/-- The cosine of the angle between two vectors given as values. -/
def similarity (a b : Value) : Result Float := do
  let xs ← components a
  let ys ← components b
  cosine xs ys

/-- The scores of candidates against a query, in order. -/
def scores (query : Value) (candidates : List Value) : Result (List Float) :=
  candidates.mapM (similarity query)

/-! ### The best candidates -/

/-- Whether a score may stand before another in ascending order. -/
def notAfter (x y : Float) : Bool := y.isNaN || (!x.isNaN && !(y < x))

/-- The indices of scores in ascending order. -/
def ascending (scores : List Float) : List Nat :=
  (scores.zipIdx.mergeSort fun p q => notAfter p.1 q.1).map (·.2)

/-- The first `k` items, or for a negative `k` all but the last `-k`. -/
def slice (xs : List α) (k : Int) : List α :=
  xs.take (if 0 ≤ k then k.toNat else xs.length - k.natAbs)

/-- The indices of the `k` highest scores. -/
def topK (scores : List Float) (k : Int) : List Nat := slice (ascending scores).reverse k

/-- The order of the scores lists every index once. -/
theorem ascending_perm (scores : List Float) :
    (ascending scores).Perm (List.range scores.length) := by
  have h := (List.mergeSort_perm scores.zipIdx fun p q => notAfter p.1 q.1).map (·.2)
  simpa [ascending, List.zipIdx_map_snd, List.range_eq_range'] using h

end PropertyGraph.Embedding
