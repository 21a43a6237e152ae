import PropertyGraph.Value.Key

/-!
# Fields

What an entity or a fact holds: labelled values in the order in which the labels were first given.
A label is any value that can identify; labels that identify the same thing are one, and the first
of them stays while the last value stands (`Fields.put`).  Only a label that is a text can be asked
for by name.

Fields and records are values of one kind: `Value.ofFields` gives a record where every label is a
text, and a mapping elsewhere, and `Value.fields?` gives the fields back (`Value.fields?_ofFields`).
-/

namespace PropertyGraph

/-- Labelled values in insertion order. -/
abbrev Fields := List (Value × Value)

namespace Fields

/-- The labels, in order. -/
def labels (fs : Fields) : List Value := fs.map (·.1)

/-- The fields of a record. -/
def ofRecord (r : Record Value) : Fields := r.map fun p => (.text p.1, p.2)

/-- Whether a label is a name. -/
def isNamed (name : String) : Value → Bool
  | .text s => s == name
  | _ => false

/-- The value of a name. -/
def get? (fs : Fields) (name : String) : Option Value :=
  (fs.find? fun p => isNamed name p.1).map (·.2)

/-- Gives a label a value: in place where the label is there, at the end where it is new. -/
def put : Fields → Value → Value → Fields
  | [], label, v => [(label, v)]
  | (l, w) :: rest, label, v =>
    if l.sameKey label then (l, v) :: rest else (l, w) :: put rest label v

/-- Writes the second fields over the first, label by label. -/
def merge (fs gs : Fields) : Fields := gs.foldl (fun acc p => put acc p.1 p.2) fs

/-- The fields of a list of pairs: a repeated label keeps its first place and takes its last
value. -/
def ofPairs (ps : List (Value × Value)) : Fields := merge [] ps

/-- The values whose labels are texts. -/
def named (fs : Fields) : Record Value :=
  fs.filterMap fun
    | (.text name, v) => some (name, v)
    | _ => none

/-- The named values, where every label is a text. -/
def record? : Fields → Option (Record Value)
  | [] => some []
  | (.text name, v) :: rest => (record? rest).map ((name, v) :: ·)
  | _ :: _ => none

end Fields

namespace Value

/-- Fields as a value. -/
def ofFields (fs : Fields) : Value :=
  match fs.record? with
  | some r => .record r
  | none => .mapping fs

/-- The fields of a record or a mapping. -/
def fields? : Value → Option Fields
  | .record r => some (Fields.ofRecord r)
  | .mapping fs => some fs
  | _ => none

/-- The value of a list of labelled values, where a later value of a label wins. -/
def ofPairs (ps : List (Value × Value)) : Value :=
  match Fields.record? ps with
  | some r => .record (Record.ofList r)
  | none => .mapping (Fields.ofPairs ps)

end Value

/-! ### Fields and records -/

namespace Fields

@[simp] theorem record?_ofRecord (r : Record Value) : record? (ofRecord r) = some r := by
  induction r with
  | nil => rfl
  | cons p rest ih =>
    rw [ofRecord] at ih ⊢
    rw [List.map_cons, record?, ih, Option.map_some]

theorem eq_ofRecord_of_record? {fs : Fields} {r : Record Value} (h : fs.record? = some r) :
    fs = ofRecord r := by
  induction fs generalizing r with
  | nil =>
    rw [record?, Option.some.injEq] at h
    exact h ▸ rfl
  | cons p rest ih =>
    obtain ⟨label, v⟩ := p
    cases label with
    | text name =>
      rw [record?, Option.map_eq_some_iff] at h
      obtain ⟨s, hs, rfl⟩ := h
      rw [ih hs]
      rfl
    | _ => simp [record?] at h

@[simp] theorem get?_nil (name : String) : get? [] name = none := rfl

theorem get?_cons_text (k : String) (w : Value) (rest : Fields) (name : String) :
    get? ((.text k, w) :: rest) name = if k = name then some w else get? rest name := by
  by_cases h : k = name <;> simp [get?, isNamed, h]

/-- A record and its fields give a name the same value. -/
theorem get?_ofRecord (r : Record Value) (name : String) :
    get? (ofRecord r) name = Record.get? r name := by
  induction r with
  | nil => rfl
  | cons p rest ih =>
    obtain ⟨k, w⟩ := p
    rw [Record.get?_cons, ← ih]
    exact get?_cons_text k w (ofRecord rest) name

/-- A name has the value that it was given last. -/
theorem get?_put_self (fs : Fields) (name : String) (v : Value) :
    get? (put fs (.text name) v) name = some v := by
  induction fs with
  | nil => simp [put, get?_cons_text]
  | cons p rest ih =>
    obtain ⟨l, w⟩ := p
    rw [put]
    split
    · rename_i h
      rw [(Value.sameKey_text_iff l name).1 h, get?_cons_text, if_pos rfl]
    · rename_i h
      have hl : isNamed name l = false := by
        cases l <;> simp_all [isNamed]
      simpa [get?, hl] using ih

theorem mem_labels_put {fs : Fields} {l label v : Value} (h : l ∈ (put fs label v).labels) :
    l = label ∨ l ∈ fs.labels := by
  induction fs with
  | nil => exact .inl (List.mem_singleton.1 h)
  | cons p rest ih =>
    obtain ⟨other, w⟩ := p
    rw [put] at h
    split at h
    · exact .inr h
    · rcases List.mem_cons.1 h with rfl | h
      · exact .inr List.mem_cons_self
      · exact (ih h).imp_right (List.mem_cons_of_mem other)

end Fields

namespace Value

/-- The fields of a value are those that it was made of. -/
@[simp] theorem fields?_ofFields (fs : Fields) : (ofFields fs).fields? = some fs := by
  rw [ofFields]
  split
  · rename_i r h
    rw [fields?, ← Fields.eq_ofRecord_of_record? h]
  · rfl

@[simp] theorem ofFields_ofRecord (r : Record Value) :
    ofFields (Fields.ofRecord r) = .record r := by
  rw [ofFields, Fields.record?_ofRecord]

end Value

end PropertyGraph
