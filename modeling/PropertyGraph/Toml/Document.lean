import PropertyGraph.Toml.Outline

/-!
# TOML documents

A document is a list of statements, one a line: values under names, headings of tables, and headings
of one more table under a name.  `read` reads the value of a first statement; the statements after
it count only in that they must be well formed and fit together with it.
-/

namespace PropertyGraph.Toml

/-- How far the reading of a document has come. -/
structure Progress where
  outline : Outline
  /-- The path of the table that values are given in. -/
  path : List String
  /-- How many headings there were. -/
  headings : Nat

namespace Progress

/-- Gives a value under a name. -/
def give? (p : Progress) (n : Name) : Option Progress := do
  let outline ← Outline.within (Outline.give p.headings n.last n.above) p.path p.outline
  return { p with outline }

/-- Goes on under a heading, which `change` puts into the table above it. -/
def head? (p : Progress) (change : String → Outline → Option Outline) (n : Name) :
    Option Progress := do
  let outline ← Outline.within (change n.last) n.above p.outline
  return ⟨outline, n.parts, p.headings + 1⟩

end Progress

/-- Drops the end of a line: blanks and a comment. -/
def endLine? (cs : List Char) : Option (List Char) :=
  match skipComment? (cs.dropWhile isSpace) with
  | some [] => some []
  | some ('\n' :: rest) => some rest
  | _ => none

/-- A name between brackets, of which the closing ones are left. -/
def heading? (cs : List Char) : Option (Name × List Char) :=
  let cs := cs.dropWhile isSpace
  name? (cs.length + 1) cs

/-- The heading of a table after its opening bracket. -/
def tableHeading? (p : Progress) (cs : List Char) : Option (Progress × List Char) := do
  let (n, rest) ← heading? cs
  return (← p.head? Outline.openTable n, ← drop? ']' rest)

/-- The heading of one more table after its opening brackets. -/
def itemHeading? (p : Progress) (cs : List Char) : Option (Progress × List Char) := do
  let (n, rest) ← heading? cs
  return (← p.head? Outline.openItem n, ← drop? ']' (← drop? ']' rest))

/-- One statement, or nothing before a comment. -/
def statement (p : Progress) : List Char → Attempt (Progress × List Char)
  | '[' :: '[' :: rest => Misreading.orMalformed (itemHeading? p rest)
  | '[' :: rest => Misreading.orMalformed (tableHeading? p rest)
  | '#' :: rest => .ok (p, '#' :: rest)
  | cs => do
    let (n, rest) ← Misreading.orMalformed (given? cs)
    let (_, rest) ← value (2 * rest.length + 2) rest
    return (← Misreading.orMalformed (p.give? n), rest)

/-- All statements that follow; `fuel` bounds the number of lines. -/
def statements : Nat → Progress → List Char → Attempt Unit
  | 0, _, _ => Misreading.refuse
  | fuel + 1, p, cs =>
    match cs.dropWhile isSpace with
    | [] => .ok ()
    | '\n' :: rest => statements fuel p rest
    | cs => do
      let (p, rest) ← statement p cs
      statements fuel p (← Misreading.orMalformed (endLine? rest))

/-- Line breaks written with two characters count as one. -/
def joinBreaks : List Char → List Char
  | '\r' :: '\n' :: rest => '\n' :: joinBreaks rest
  | c :: rest => c :: joinBreaks rest
  | [] => []

/-- The name that the value of a text is given under. -/
def valueName : Name := ⟨[], "key"⟩

/-- The value that a text writes: what it says is read after `key =`. -/
def read (s : String) : Attempt Value := do
  let cs := (joinBreaks s.toList).dropWhile isSpace
  let (v, rest) ← value (2 * cs.length + 2) cs
  let p ← Misreading.orMalformed (Progress.give? ⟨[], [], 0⟩ valueName)
  let rest ← Misreading.orMalformed (endLine? rest)
  statements (rest.length + 1) p rest
  return v

end PropertyGraph.Toml
