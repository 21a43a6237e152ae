import PropertyGraph.Json.Reader
import PropertyGraph.Value.Conversion

/-!
# Facts and queries

A fact is a list of fields.  A pattern asks for some of them, each by a term: a literal value or a
variable.  Where the fact holds a sequence, a literal asks for a member of it and a variable
ranges over the members, one solution each; a variable that occurs again must meet the same value
again.  `Pattern.solutions` lists the solutions of a pattern against one fact, and `FactBase.query`
those against all facts in order.
-/

namespace PropertyGraph

/-- Fields about one thing. -/
abbrev Fact := Fields

/-- What a pattern asks of a field. -/
inductive Term where
  | variable (name : String)
  | literal (v : Value)
  /-- A term that is taken for a value; no field holds one. -/
  | quotedTerm (t : Term)

/-- The fields that a query asks for, each with its term. -/
abbrev Pattern := Record Term

/-- What a solution gives the variables. -/
abbrev Bindings := Record Value

/-- A term whose variables have not been checked. -/
inductive RawTerm where
  | variable (name : Value)
  | literal (v : Value)
  | quotedTerm (t : RawTerm)

/-- The term that is meant; the name of a variable must be a text and not empty. -/
def RawTerm.check : RawTerm → Result Term
  | .variable (.text s) => if s.isEmpty then .error .emptyVariable else .ok (.variable s)
  | .variable _ => .error .emptyVariable
  | .literal v => .ok (.literal v)
  | .quotedTerm t => do return .quotedTerm (← t.check)

/-- The pattern of a list of fields; a field that is repeated keeps its first place and takes its
last term. -/
def Pattern.ofRaw (fields : List (String × RawTerm)) : Result Pattern := do
  return Record.ofList (← fields.mapM fun p => do return (p.1, ← p.2.check))

/-- Whether a field with this value meets a literal: as a whole, or in one of its members where it
is a sequence. -/
def Value.meets (v literal : Value) : Bool :=
  match v.items? with
  | some items => items.any fun item => literal.same item
  | none => literal.same v

/-- Whether a variable may take a value: it is free, or it has the same value already. -/
def Bindings.admits (bindings : Bindings) (name : String) (v : Value) : Bool :=
  match Record.get? bindings name with
  | some bound => bound.same v
  | none => true

namespace Pattern

/-- The solutions of a pattern against a fact that extend what is bound already. -/
def solve (fact : Fact) : Pattern → Bindings → List Bindings
  | [], bindings => [bindings]
  | (key, term) :: rest, bindings =>
    match fact.get? key with
    | none => []
    | some v =>
      match term with
      | .literal w => if v.meets w then solve fact rest bindings else []
      | .quotedTerm _ => []
      | .variable name =>
        match v.items? with
        | some items => items.flatMap fun item =>
          if Bindings.admits bindings name item then
            solve fact rest (Record.set bindings name item)
          else []
        | none =>
          if Bindings.admits bindings name v then
            solve fact rest
              (if Record.has bindings name then bindings else Record.set bindings name v)
          else []

/-- The solutions of a pattern against a fact. -/
def solutions (pattern : Pattern) (fact : Fact) : List Bindings := solve fact pattern []

end Pattern

/-- Facts in the order in which they were loaded. -/
structure FactBase where
  facts : List Fact

namespace FactBase

/-- No facts. -/
def empty : FactBase := ⟨[]⟩

/-- The number of facts. -/
def size (b : FactBase) : Nat := b.facts.length

/-- The facts at the front of a list of values, and the first value that is none. -/
def recordsOf : List Value → List Fact × Option Value
  | [] => ([], none)
  | v :: rest =>
    match v.fields? with
    | some fact =>
      let (facts, bad) := recordsOf rest
      (fact :: facts, bad)
    | none => ([], some v)

/-- Loads the members of a value, up to the first that is no fact; says how many there were. -/
def load (b : FactBase) (v : Value) : FactBase × Result Nat :=
  match v.members with
  | .error f => (b, .error f)
  | .ok items =>
    let (facts, bad) := recordsOf items
    (⟨b.facts ++ facts⟩, match bad with
      | some source => .error (.factNotRecord source)
      | none => .ok facts.length)

/-- Loads the facts of a JSON text. -/
def loadJson (b : FactBase) (s : String) : FactBase × Result Nat :=
  match Json.read s with
  | .error .malformed => (b, .error .notJson)
  | .error (.tooManyDigits count) => (b, .error (.tooManyDigits count))
  | .ok (.list items) => b.load (.list items)
  | .ok _ => (b, .error .factsNotArray)

/-- All solutions of a pattern, in the order of the facts. -/
def query (b : FactBase) (pattern : Pattern) : List Bindings :=
  b.facts.flatMap pattern.solutions

/-! ### Loading -/

/-- A list of facts is read as those facts. -/
theorem recordsOf_map_ofFields (facts : List Fact) :
    recordsOf (facts.map Value.ofFields) = (facts, none) := by
  induction facts with
  | nil => rfl
  | cons f rest ih => simp [recordsOf, ih]

/-- A list of facts is loaded whole. -/
theorem load_facts (b : FactBase) (facts : List Fact) :
    b.load (.list (facts.map Value.ofFields)) = (⟨b.facts ++ facts⟩, .ok facts.length) := by
  simp [load, recordsOf_map_ofFields]

/-- A query of several fact bases after one another gives the solutions after one another. -/
theorem query_append (fs gs : List Fact) (pattern : Pattern) :
    query ⟨fs ++ gs⟩ pattern = query ⟨fs⟩ pattern ++ query ⟨gs⟩ pattern := by
  simp [query]

end FactBase

end PropertyGraph
