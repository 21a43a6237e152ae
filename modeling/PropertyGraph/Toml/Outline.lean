import PropertyGraph.Toml.Compound

/-!
# Outlines of TOML documents

What the names of a document stand for, without the values.  A name stands for one value and can be
given only once.  A table may be opened by one heading of its own, before or after the tables in it
are; or else it comes about by a name with parts, and then it can be added to in that way under the
same heading only.  Of several tables under one name the last one can be added to.
-/

namespace PropertyGraph.Toml

/-- How a table came about. -/
inductive Origin where
  /-- By the heading of a table inside it. -/
  | implied
  /-- By its own heading. -/
  | headed
  /-- By a name with parts, under the heading of this number. -/
  | dotted (heading : Nat)
deriving DecidableEq, Repr

/-- Whether a name with parts may go through a table, under the heading of this number. -/
def Origin.isOpen (heading : Nat) : Origin → Bool
  | .implied => true
  | .headed => false
  | .dotted n => n = heading

/-- What a name stands for. -/
inductive Entry where
  /-- A value, to which nothing can be added. -/
  | value
  | table (origin : Origin) (entries : List (String × Entry))
  /-- Several tables, of which the last has these entries. -/
  | tables (last : List (String × Entry))

/-- What the names of a table stand for. -/
abbrev Outline := Record Entry

namespace Outline

/-- Changes the table at the end of a path of names; tables that are missing come about. -/
def within (change : Outline → Option Outline) : List String → Outline → Option Outline
  | [], o => change o
  | name :: rest, o =>
    let entry? : Option Entry := match Record.get? o name with
      | none => (within change rest []).map (.table .implied)
      | some (.table origin inner) => (within change rest inner).map (.table origin)
      | some (.tables last) => (within change rest last).map .tables
      | some .value => none
    entry?.map (Record.set o name)

/-- Opens a table by its own heading. -/
def openTable (name : String) (o : Outline) : Option Outline :=
  match Record.get? o name with
  | none => some (Record.set o name (.table .headed []))
  | some (.table .implied inner) => some (Record.set o name (.table .headed inner))
  | _ => none

/-- Opens one more of several tables under a name. -/
def openItem (name : String) (o : Outline) : Option Outline :=
  match Record.get? o name with
  | none | some (.tables _) => some (Record.set o name (.tables []))
  | _ => none

/-- Gives a value under a name with parts, under the heading of this number. -/
def give (heading : Nat) (last : String) : List String → Outline → Option Outline
  | [], o => if Record.has o last then none else some (Record.set o last .value)
  | name :: rest, o =>
    let inner? : Option Outline := match Record.get? o name with
      | none => some []
      | some (.table origin inner) => if origin.isOpen heading then some inner else none
      | some (.tables _) | some .value => none
    (inner?.bind (give heading last rest)).map fun inner =>
      Record.set o name (.table (.dotted heading) inner)

/-- A name can be given a value only once. -/
theorem give_twice {heading : Nat} {last : String} {o o' : Outline}
    (h : give heading last [] o = some o') : give heading last [] o' = none := by
  simp only [give] at h ⊢
  split at h
  · cases h
  · cases h
    simp [Record.has, Record.get?_set_self]

end Outline

end PropertyGraph.Toml
