import PropertyGraph.Json.Writer
import PropertyGraph.Proofs.Schema.Dump
import PropertyGraph.Proofs.Value.Equality

/-!
# Data for every declared type

A schema that was read from a proper value declares no name twice (`distinct_of_ofValue`): neither
a type, nor a field of a type.  Where the fields of a type have different names, there is data of
the type: a plain value of its kind for each field (`conforms_sample`).  Without that there might
be none, as a field that is declared with two kinds asks too much.
-/

namespace PropertyGraph

theorem Value.proper_record_iff {fields : Record Value} :
    (Value.record fields).proper = true ↔
      (∀ p ∈ fields, p.2.proper = true) ∧ fields.Pairwise fun p q => p.1 ≠ q.1 := by
  rw [proper, properFields_iff]

namespace Schema

open Schema.Reading

variable {α : Type} {read : Value → Reading α} {P : α → Prop}

/-! ### Names that differ -/

/-- What is read from a proper value has a property. -/
def ReadsAs (read : Value → Reading α) (P : α → Prop) : Prop :=
  ∀ ⦃v a⦄, v.proper = true → read v = .value a → P a

theorem readsAs_record (h : ReadsAs read P) :
    ReadsAs (readRecord read) fun r => (Record.keys r).Nodup ∧ ∀ p ∈ r, P p.2 := by
  intro v r hv hr
  cases v with
  | record fields =>
    obtain ⟨hproper, hapart⟩ := Value.proper_record_iff.1 hv
    refine ⟨?_, fun p hp => ?_⟩
    · -- each field is read under its own name
      let readField (p : String × Value) := ((read p.2).within (.name p.1)).map fun a => (p.1, a)
      have hread : (fields.map readField).Pairwise fun x y =>
          ∀ p q, x = .value p → y = .value q → p.1 ≠ q.1 := by
        refine List.pairwise_map.2 (hapart.imp fun hne p q hp hq => ?_)
        obtain ⟨_, -, rfl⟩ := map_eq_value_iff.1 hp
        obtain ⟨_, -, rfl⟩ := map_eq_value_iff.1 hq
        exact hne
      rw [each_eq_value_iff.1 hr] at hread
      exact List.pairwise_map.2 ((List.pairwise_map.1 hread).imp fun h => h _ _ rfl rfl)
    · obtain ⟨q, hq, hqp⟩ := exists_of_each hr p hp
      obtain ⟨a, ha, rfl⟩ := map_eq_value_iff.1 hqp
      exact h (hproper q hq) (within_eq_value_iff.1 ha)
  | mapping fields =>
    rw [Value.proper, Value.properMapping_iff] at hv
    obtain ⟨ps, hps, rfl⟩ := map_eq_value_iff.1 hr
    refine ⟨Record.keys_ofList_nodup ps, Record.forall_mem_ofList fun p hp => ?_⟩
    obtain ⟨q, hq, hqp⟩ := exists_of_each hps p hp
    exact h (hv.1 q hq).2 (readEntry_eq_value_iff.1 hqp).2
  | _ => cases hr

theorem ReadsAs.of_required (h : ReadsAs read P) {fields : Record Value}
    (hproper : ∀ p ∈ fields, p.2.proper = true) {name : String} {a : α}
    (ha : required fields name read = .value a) : P a := by
  obtain ⟨p, hp, hpa⟩ := exists_of_required ha
  exact h (hproper p hp) hpa

theorem ReadsAs.of_optional (h : ReadsAs read P) {fields : Record Value}
    (hproper : ∀ p ∈ fields, p.2.proper = true) {names : Spellings} {absent a : α}
    (habsent : P absent) (ha : optional fields names absent read = .value a) : P a := by
  obtain rfl | ⟨p, hp, hpa⟩ := exists_of_optional ha
  · exact habsent
  · exact h (hproper p hp) hpa

theorem readsAs_kinds : ReadsAs (readRecord readKind) fun r => (Record.keys r).Nodup := by
  have hkind : ReadsAs readKind fun _ => True := fun _ _ _ _ => trivial
  exact fun v r hv hr => (readsAs_record hkind hv hr).1

theorem readsAs_nodeType : ReadsAs readNodeType fun t => (Record.keys t.fields).Nodup := by
  intro v t hv h
  obtain ⟨fields, rfl, -, -, -, hdata, -, -⟩ := readNodeType_eq_value_iff.1 h
  refine readsAs_kinds.of_optional (Value.proper_record_iff.1 hv).1 ?_ hdata
  exact List.nodup_nil

theorem readsAs_edgeType : ReadsAs readEdgeType fun t => (Record.keys t.fields).Nodup := by
  intro v t hv h
  obtain ⟨fields, rfl, -, -, -, -, -, hdata, -, -⟩ := readEdgeType_eq_value_iff.1 h
  refine readsAs_kinds.of_optional (Value.proper_record_iff.1 hv).1 ?_ hdata
  exact List.nodup_nil

/-- No name is declared twice. -/
structure Distinct (s : Schema) : Prop where
  nodeTypes : (Record.keys s.nodeTypes).Nodup
  edgeTypes : (Record.keys s.edgeTypes).Nodup
  nodeFields : ∀ p ∈ s.nodeTypes, (Record.keys p.2.fields).Nodup
  edgeFields : ∀ p ∈ s.edgeTypes, (Record.keys p.2.fields).Nodup

theorem readsAs_fields : ReadsAs readFields Distinct := by
  intro v s hv h
  obtain ⟨fields, rfl, hnodes, hedges, -⟩ := readFields_eq_value_iff.1 h
  obtain ⟨hproper, -⟩ := Value.proper_record_iff.1 hv
  obtain ⟨hnodeTypes, hnodeFields⟩ := (readsAs_record readsAs_nodeType).of_required hproper hnodes
  obtain ⟨hedgeTypes, hedgeFields⟩ := (readsAs_record readsAs_edgeType).of_required hproper hedges
  exact ⟨hnodeTypes, hedgeTypes, hnodeFields, hedgeFields⟩

theorem distinct_of_ofValue {v : Value} {s : Schema} (hv : v.proper = true)
    (h : ofValue v = .ok s) : s.Distinct :=
  readsAs_fields hv (readFields_of_read (read_of_ofValue h))

end Schema

/-! ### Sample data -/

/-- A value of a kind. -/
def Kind.sample : Kind → Value
  | .string => .text ""
  | .number => .int 0
  | .boolean => .bool false
  | .array => .list []
  | .object => .record []

theorem Kind.accepts_sample (k : Kind) : k.accepts k.sample = true := by
  cases k <;> rfl

/-- Data with a value for each declared field. -/
def Schema.sample (declared : Record Kind) : Record Value := Record.mapValues Kind.sample declared

namespace Schema

theorem get?_sample (declared : Record Kind) (name : String) :
    Record.get? (sample declared) name = (Record.get? declared name).map Kind.sample := by
  induction declared with
  | nil => rfl
  | cons p rest ih =>
    have hsample : sample (p :: rest) = (p.1, p.2.sample) :: sample rest := rfl
    rw [hsample, Record.get?_cons, ih, Record.get?_cons]
    split <;> rfl

/-- Where the declared names differ, the sample data is as declared. -/
theorem conforms_sample {declared : Record Kind} (h : (Record.keys declared).Nodup) :
    Conforms declared (Fields.ofRecord (sample declared)) where
  field := by
    intro p hp
    refine ⟨p.2.sample, ?_, p.2.accepts_sample⟩
    rw [Fields.get?_ofRecord, get?_sample, Record.get?_of_mem h hp]
    rfl
  known := by
    intro label hlabel
    obtain ⟨_, hfield, rfl⟩ := List.mem_map.1 hlabel
    obtain ⟨_, hsample, rfl⟩ := List.mem_map.1 hfield
    obtain ⟨p, hp, rfl⟩ := List.mem_map.1 hsample
    refine ⟨p.1, rfl, ?_⟩
    rw [Record.has, Record.get?_of_mem h hp]
    rfl

theorem writable_sample (declared : Record Kind) :
    Json.writable (.record (sample declared)) = true := by
  rw [Json.writable]
  induction declared with
  | nil => rfl
  | cons p rest ih =>
    have hvalue : Json.writable p.2.sample = true := by
      cases p.2 <;> rfl
    show (Json.writable p.2.sample && Json.fieldsWritable (sample rest)) = true
    rw [hvalue, ih]
    rfl

end Schema

end PropertyGraph
