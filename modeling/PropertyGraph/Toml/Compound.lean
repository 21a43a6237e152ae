import PropertyGraph.Toml.Scalar

/-!
# TOML values

Arrays and tables in braces, and the names of their fields.  A name has parts with points between
them: `a.b` names the field `b` of the table `a`.  In a table in braces no name may go on another
one.
-/

namespace PropertyGraph.Toml

/-! ### Names -/

/-- A name, as the names of the tables above it and its own. -/
structure Name where
  above : List String
  last : String
deriving DecidableEq, Repr

namespace Name

/-- All parts of a name. -/
def parts (n : Name) : List String := n.above ++ [n.last]

/-- Whether one name goes on another one, or is the same. -/
def overlaps (m n : Name) : Bool := m.parts.isPrefixOf n.parts || n.parts.isPrefixOf m.parts

end Name

/-- Whether a character may stand in a name without quotes. -/
def isBare (c : Char) : Bool :=
  ('a' ≤ c && c ≤ 'z') || ('A' ≤ c && c ≤ 'Z') || Numeral.isDigit c || c == '_' || c == '-'

/-- One part of a name. -/
def namePart? (cs : List Char) : Option (String × List Char) :=
  match cs with
  | q :: rest =>
    if q == Text.doubleQuote || q == Text.singleQuote then line? q rest
    else
      let bare := cs.takeWhile isBare
      if bare.isEmpty then none else some (String.ofList bare, cs.dropWhile isBare)
  | [] => none

/-- A name and the blanks after it; `fuel` bounds the number of parts. -/
def name? : Nat → List Char → Option (Name × List Char)
  | 0, _ => none
  | fuel + 1, cs => do
    let (part, rest) ← namePart? cs
    match rest.dropWhile isSpace with
    | '.' :: rest =>
      let (n, rest) ← name? fuel (rest.dropWhile isSpace)
      return (⟨part :: n.above, n.last⟩, rest)
    | rest => return (⟨[], part⟩, rest)

/-- A name that a value is given under, and the sign of equality with the blanks around it. -/
def given? (cs : List Char) : Option (Name × List Char) := do
  let (n, rest) ← name? (cs.length + 1) cs
  return (n, (← drop? '=' rest).dropWhile isSpace)

/-! ### Arrays and tables -/

/-- A table with a value put under the parts of a name. -/
def put (last : String) (v : Value) : List String → Record Value → Record Value
  | [], fields => Record.set fields last v
  | part :: rest, fields =>
    let inner := match Record.get? fields part with
      | some (.record inner) => inner
      | _ => []
    Record.set fields part (.record (put last v rest inner))

mutual

/-- A value; `fuel` bounds how deep its parts lie and how many there are. -/
def value : Nat → List Char → Attempt (Value × List Char)
  | 0, _ => Misreading.refuse
  | fuel + 1, cs =>
    match cs with
    | '[' :: rest => do
      match ← Misreading.orMalformed (skipLines? (rest.length + 1) rest) with
      | ']' :: rest => return (.list [], rest)
      | rest =>
        let (vs, rest) ← items fuel rest
        return (.list vs, rest)
    | '\x7b' :: rest =>
      match rest.dropWhile isSpace with
      | '\x7d' :: rest => .ok (.record [], rest)
      | rest => do
        let (fields, rest) ← fields fuel [] rest
        return (.record (fields.foldl (fun t p => put p.1.last p.2 p.1.above t) []), rest)
    | _ => scalar cs

/-- The items of an array and its closing bracket. -/
def items : Nat → List Char → Attempt (List Value × List Char)
  | 0, _ => Misreading.refuse
  | fuel + 1, cs => do
    let (v, rest) ← value fuel cs
    match ← Misreading.orMalformed (skipLines? (rest.length + 1) rest) with
    | ']' :: rest => return ([v], rest)
    | ',' :: rest =>
      match ← Misreading.orMalformed (skipLines? (rest.length + 1) rest) with
      | ']' :: rest => return ([v], rest)
      | rest =>
        let (vs, rest) ← items fuel rest
        return (v :: vs, rest)
    | _ => Misreading.refuse

/-- The fields of a table in braces and its closing brace; `seen` are the names before. -/
def fields : Nat → List Name → List Char → Attempt (List (Name × Value) × List Char)
  | 0, _, _ => Misreading.refuse
  | fuel + 1, seen, cs => do
    let (n, rest) ← Misreading.orMalformed (given? cs)
    let (v, rest) ← value fuel rest
    if seen.any n.overlaps then Misreading.refuse
    else match rest.dropWhile isSpace with
      | '\x7d' :: rest => return ([(n, v)], rest)
      | ',' :: rest =>
        let (more, rest) ← fields fuel (n :: seen) (rest.dropWhile isSpace)
        return ((n, v) :: more, rest)
      | _ => Misreading.refuse

end

end PropertyGraph.Toml
