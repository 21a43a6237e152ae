import Mathlib.Data.List.Basic
import PropertyGraph.Schema.Check

/-!
# Reading a dumped schema

A schema that was read is written as a value with all its fields, under their own names; reading
that value gives the schema once more (`ofValue_toValue`).  Each reader is shown by itself to read
again what it read before (`Rereads`), so that the parts of a schema follow from the readers of
their fields.  Only what was read can be read again: a description that was written might be empty.
-/

namespace PropertyGraph.Schema

open Schema.Reading

variable {α β : Type}

/-- What was read from some value is read from what it is written as. -/
def Rereads (read : Value → Reading α) (write : α → Value) : Prop :=
  ∀ ⦃v a⦄, read v = .value a → read (write a) = .value a

/-! ### Plain values -/

theorem rereads_text : Rereads readText .text := fun _ _ _ => rfl

theorem rereads_bool : Rereads readBool .bool := fun _ _ _ => rfl

theorem rereads_nonempty : Rereads readNonempty .text := by
  intro v s h
  cases v with
  | text t =>
    rw [readNonempty] at h ⊢
    by_cases hempty : t.isEmpty = true
    · rw [if_pos hempty] at h
      cases h
    · rw [if_neg hempty] at h
      obtain rfl := Reading.value.inj h
      exact if_neg hempty
  | _ => cases h

theorem rereads_kind : Rereads readKind fun k => .text k.name := by
  intro v k _
  simp [readKind, encodedText?]

theorem rereads_role : Rereads readRole fun r => .text r.name := by
  intro v r _
  simp [readRole]

/-! ### Composite values -/

theorem seq_eq_value_iff {f : Reading (α → β)} {r : Reading α} {b : β} :
    f <*> r = .value b ↔ ∃ g a, f = .value g ∧ r = .value a ∧ g a = b :=
  app_eq_value_iff

theorem fmap_eq_value_iff {f : α → β} {r : Reading α} {b : β} :
    f <$> r = .value b ↔ ∃ a, r = .value a ∧ f a = b :=
  map_eq_value_iff

variable {read : Value → Reading α} {write : α → Value}

theorem rereads_option (h : Rereads read write) (hnull : ∀ a, write a ≠ .null) :
    Rereads (readOption read) (optionValue write) := by
  intro v o ho
  cases o with
  | none => rfl
  | some a =>
    have hread : read v = .value a := by
      cases v with
      | null => cases ho
      | _ =>
        obtain ⟨b, hb, hab⟩ := map_eq_value_iff.1 ho
        exact Option.some.inj hab ▸ hb
    have hsome : readOption read (write a) = (read (write a)).map some := by
      cases hw : write a with
      | null => exact absurd hw (hnull a)
      | _ => rfl
    rw [optionValue, hsome, h hread]
    rfl

/-- Every item of a list that was read was read from something. -/
theorem exists_of_each {ps : List β} {readItem : β → Reading α} {as : List α}
    (h : each readItem ps = .value as) : ∀ a ∈ as, ∃ p ∈ ps, readItem p = .value a := by
  intro a ha
  have hmem : Reading.value a ∈ ps.map readItem := by
    rw [each_eq_value_iff.1 h]
    exact List.mem_map_of_mem ha
  obtain ⟨p, hp, hpa⟩ := List.mem_map.1 hmem
  exact ⟨p, hp, hpa⟩

theorem rereads_list (h : Rereads read write) :
    Rereads (readList read) fun as => .list (as.map write) := by
  intro v as has
  unfold readList at has
  split at has
  · have hitems : ∀ a ∈ as, read (write a) = .value a := by
      intro a ha
      obtain ⟨p, -, hp⟩ := exists_of_each has a ha
      exact h (within_eq_value_iff.1 hp)
    show each _ (as.map write).zipIdx = .value as
    rw [each_eq_value_iff, List.zipIdx_map, List.map_map]
    have hvalues : as.zipIdx.map (fun p => Reading.value p.1) = as.map .value := by
      have hcomp := List.map_map (g := Reading.value) (f := Prod.fst) (l := as.zipIdx)
      rw [List.zipIdx_map_fst] at hcomp
      exact hcomp.symm
    rw [← hvalues]
    refine List.map_congr_left fun p hp => ?_
    show (read (write p.1)).within (.index p.2) = .value p.1
    rw [hitems p.1 (List.fst_mem_of_mem_zipIdx hp)]
    rfl
  · cases has

theorem readEntry_eq_value_iff {p : Value × Value} {q : String × α} :
    readEntry read p = .value q ↔ readName p.1 = .value q.1 ∧ read p.2 = .value q.2 := by
  simp only [readEntry, seq_eq_value_iff, fmap_eq_value_iff, within_eq_value_iff]
  constructor
  · rintro ⟨_, a, ⟨name, hname, rfl⟩, ha, rfl⟩
    exact ⟨hname, ha⟩
  · exact fun ⟨hname, ha⟩ => ⟨_, _, ⟨_, hname, rfl⟩, ha, rfl⟩

/-- What is read as a record was read value by value. -/
theorem exists_of_readRecord {v : Value} {r : Record α} (hr : readRecord read v = .value r) :
    ∀ p ∈ r, ∃ w, read w = .value p.2 := by
  cases v with
  | record fields =>
    intro p hp
    obtain ⟨q, -, hq⟩ := exists_of_each hr p hp
    obtain ⟨a, ha, rfl⟩ := map_eq_value_iff.1 hq
    exact ⟨q.2, within_eq_value_iff.1 ha⟩
  | mapping fields =>
    obtain ⟨ps, hps, rfl⟩ := map_eq_value_iff.1 hr
    refine Record.forall_mem_ofList (P := fun a => ∃ w, read w = .value a) fun p hp => ?_
    obtain ⟨q, -, hq⟩ := exists_of_each hps p hp
    exact ⟨q.2, (readEntry_eq_value_iff.1 hq).2⟩
  | _ => cases hr

theorem rereads_record (h : Rereads read write) :
    Rereads (readRecord read) fun r => .record (Record.mapValues write r) := by
  intro v r hr
  show each _ (Record.mapValues write r) = .value r
  rw [each_eq_value_iff, Record.mapValues, List.map_map]
  refine List.map_congr_left fun p hp => ?_
  obtain ⟨w, hw⟩ := exists_of_readRecord hr p hp
  rw [Function.comp_apply, h hw]
  rfl

/-! ### Records with declared fields -/

theorem exists_of_required {fields : Record Value} {name : String} {a : α}
    (h : required fields name read = .value a) : ∃ p ∈ fields, read p.2 = .value a := by
  unfold required at h
  split at h
  · rename_i v hv
    exact ⟨(name, v), Record.mem_of_get? hv, within_eq_value_iff.1 h⟩
  · cases h

theorem exists_of_optional {fields : Record Value} {names : Spellings} {absent a : α}
    (h : optional fields names absent read = .value a) :
    a = absent ∨ ∃ p ∈ fields, read p.2 = .value a := by
  unfold optional at h
  split at h
  · exact .inr (exists_of_required h)
  · exact .inl (Reading.value.inj h).symm

theorem required_of_get? {fields : Record Value} {name : String} {v : Value} {a : α}
    (hget : Record.get? fields name = some v) (hread : read v = .value a) :
    required fields name read = .value a := by
  rw [required, hget]
  exact within_eq_value_iff.2 hread

theorem optional_of_get? {fields : Record Value} {names : Spellings} {name : String} {absent : α}
    {v : Value} {a : α} (hgiven : names.given? fields = some name)
    (hget : Record.get? fields name = some v) (hread : read v = .value a) :
    optional fields names absent read = .value a := by
  rw [optional, hgiven]
  exact required_of_get? hget hread

theorem Rereads.of_required (h : Rereads read write) {fields : Record Value} {name : String}
    {a : α} (ha : required fields name read = .value a) : read (write a) = .value a := by
  obtain ⟨p, -, hp⟩ := exists_of_required ha
  exact h hp

/-- A field that may be left out is read again, also when it was left out. -/
theorem Rereads.of_optional (h : Rereads read write) {fields : Record Value} {names : Spellings}
    {absent a : α} (habsent : read (write absent) = .value absent)
    (ha : optional fields names absent read = .value a) : read (write a) = .value a := by
  obtain rfl | ⟨p, -, hp⟩ := exists_of_optional ha
  · exact habsent
  · exact h hp

theorem readModel_eq_value_iff {declared : List Spellings} {readAll : Record Value → Reading α}
    {v : Value} {a : α} :
    readModel declared readAll v = .value a ↔
      ∃ fields, v = .record fields ∧ readAll fields = .value a ∧ unused fields declared = [] := by
  have hnothing : ∀ fields u, nothingElse fields declared = .value u ↔
      unused fields declared = [] := by
    intro fields u
    unfold nothingElse
    cases unused fields declared <;> simp
  cases v with
  | record fields =>
    show app (map (Function.const Unit) (readAll fields)) (nothingElse fields declared) = _ ↔ _
    simp [app_eq_value_iff, map_eq_value_iff, hnothing]
  | _ => simp [readModel, fault]

/-! ### The parts of a schema -/

theorem readConnection_eq_value_iff {v : Value} {c : Connection} :
    readConnection v = .value c ↔ ∃ fields, v = .record fields ∧
      required fields "node_type" readNonempty = .value c.nodeType ∧
      required fields "multiple" readBool = .value c.multiple ∧
      optional fields ["required"] false readBool = .value c.required ∧
      unused fields [["node_type"], ["multiple"], ["required"]] = [] := by
  simp only [readConnection, readModel_eq_value_iff, seq_eq_value_iff, fmap_eq_value_iff]
  constructor
  · rintro ⟨fields, rfl, ⟨_, _, ⟨_, _, ⟨_, hnode, rfl⟩, hmultiple, rfl⟩, hrequired, rfl⟩, hunused⟩
    exact ⟨fields, rfl, hnode, hmultiple, hrequired, hunused⟩
  · rintro ⟨fields, rfl, hnode, hmultiple, hrequired, hunused⟩
    exact ⟨fields, rfl, ⟨_, _, ⟨_, _, ⟨_, hnode, rfl⟩, hmultiple, rfl⟩, hrequired, rfl⟩, hunused⟩

theorem rereads_connection : Rereads readConnection Connection.toValue := by
  intro v c h
  obtain ⟨fields, -, hnode, hmultiple, hrequired, -⟩ := readConnection_eq_value_iff.1 h
  refine readConnection_eq_value_iff.2 ⟨_, rfl, ?_, ?_, ?_, rfl⟩
  · exact required_of_get? rfl (rereads_nonempty.of_required hnode)
  · exact required_of_get? rfl (rereads_bool.of_required hmultiple)
  · exact optional_of_get? rfl rfl (rereads_bool.of_optional rfl hrequired)

theorem readAccess_eq_value_iff {v : Value} {a : AccessControl} :
    readAccess v = .value a ↔ ∃ fields, v = .record fields ∧
      optional fields ["public"] none (readOption readBool) = .value a.isPublic ∧
      optional fields ["roles"] none (readOption (readRecord (readList readRole))) =
        .value a.roles ∧
      optional fields defaultRoleSpellings none (readOption readRole) = .value a.defaultRole ∧
      unused fields [["public"], ["roles"], defaultRoleSpellings] = [] := by
  simp only [readAccess, readModel_eq_value_iff, seq_eq_value_iff, fmap_eq_value_iff]
  constructor
  · rintro ⟨fields, rfl, ⟨_, _, ⟨_, _, ⟨_, hpublic, rfl⟩, hroles, rfl⟩, hdefault, rfl⟩, hunused⟩
    exact ⟨fields, rfl, hpublic, hroles, hdefault, hunused⟩
  · rintro ⟨fields, rfl, hpublic, hroles, hdefault, hunused⟩
    exact ⟨fields, rfl, ⟨_, _, ⟨_, _, ⟨_, hpublic, rfl⟩, hroles, rfl⟩, hdefault, rfl⟩, hunused⟩

theorem rereads_access : Rereads readAccess AccessControl.toValue := by
  intro v a h
  obtain ⟨fields, -, hpublic, hroles, hdefault, -⟩ := readAccess_eq_value_iff.1 h
  have hbool := rereads_option rereads_bool nofun
  have hlists := rereads_option (rereads_record (rereads_list rereads_role)) nofun
  have hrole := rereads_option rereads_role nofun
  refine readAccess_eq_value_iff.2 ⟨_, rfl, ?_, ?_, ?_, rfl⟩
  · exact optional_of_get? rfl rfl (hbool.of_optional rfl hpublic)
  · exact optional_of_get? rfl rfl (hlists.of_optional rfl hroles)
  · exact optional_of_get? rfl rfl (hrole.of_optional rfl hdefault)

theorem rereads_kinds : Rereads (readRecord readKind) kindsValue := rereads_record rereads_kind

theorem rereads_texts : Rereads (readList readText) textsValue := rereads_list rereads_text

theorem rereads_optionalAccess :
    Rereads (readOption readAccess) (optionValue AccessControl.toValue) :=
  rereads_option rereads_access nofun

theorem readNodeType_eq_value_iff {v : Value} {t : NodeType} :
    readNodeType v = .value t ↔ ∃ fields, v = .record fields ∧
      required fields "name" readText = .value t.name ∧
      required fields "description" readNonempty = .value t.description ∧
      optional fields ["synonyms"] [] (readList readText) = .value t.synonyms ∧
      optional fields ["data"] [] (readRecord readKind) = .value t.fields ∧
      optional fields accessSpellings none (readOption readAccess) = .value t.access ∧
      unused fields [["name"], ["description"], ["synonyms"], ["data"], accessSpellings] = [] := by
  simp only [readNodeType, readModel_eq_value_iff, seq_eq_value_iff, fmap_eq_value_iff]
  constructor
  · rintro ⟨fields, rfl, ⟨_, _, ⟨_, _, ⟨_, _, ⟨_, _, ⟨_, hname, rfl⟩, hdescription, rfl⟩, hsynonyms,
      rfl⟩, hdata, rfl⟩, haccess, rfl⟩, hunused⟩
    exact ⟨fields, rfl, hname, hdescription, hsynonyms, hdata, haccess, hunused⟩
  · rintro ⟨fields, rfl, hname, hdescription, hsynonyms, hdata, haccess, hunused⟩
    exact ⟨fields, rfl, ⟨_, _, ⟨_, _, ⟨_, _, ⟨_, _, ⟨_, hname, rfl⟩, hdescription, rfl⟩, hsynonyms,
      rfl⟩, hdata, rfl⟩, haccess, rfl⟩, hunused⟩

theorem rereads_nodeType : Rereads readNodeType NodeType.toValue := by
  intro v t h
  obtain ⟨fields, -, hname, hdescription, hsynonyms, hdata, haccess, -⟩ :=
    readNodeType_eq_value_iff.1 h
  refine readNodeType_eq_value_iff.2 ⟨_, rfl, ?_, ?_, ?_, ?_, ?_, rfl⟩
  · exact required_of_get? rfl (rereads_text.of_required hname)
  · exact required_of_get? rfl (rereads_nonempty.of_required hdescription)
  · exact optional_of_get? rfl rfl (rereads_texts.of_optional rfl hsynonyms)
  · exact optional_of_get? rfl rfl (rereads_kinds.of_optional rfl hdata)
  · exact optional_of_get? rfl rfl (rereads_optionalAccess.of_optional rfl haccess)

theorem readEdgeType_eq_value_iff {v : Value} {t : EdgeType} :
    readEdgeType v = .value t ↔ ∃ fields, v = .record fields ∧
      required fields "name" readText = .value t.name ∧
      optional fields ["description"] "" readText = .value t.description ∧
      required fields "source" readConnection = .value t.source ∧
      required fields "target" readConnection = .value t.target ∧
      optional fields ["synonyms"] [] (readList readText) = .value t.synonyms ∧
      optional fields ["data"] [] (readRecord readKind) = .value t.fields ∧
      optional fields accessSpellings none (readOption readAccess) = .value t.access ∧
      unused fields [["name"], ["description"], ["source"], ["target"], ["synonyms"], ["data"],
        accessSpellings] = [] := by
  simp only [readEdgeType, readModel_eq_value_iff, seq_eq_value_iff, fmap_eq_value_iff]
  constructor
  · rintro ⟨fields, rfl, ⟨_, _, ⟨_, _, ⟨_, _, ⟨_, _, ⟨_, _, ⟨_, _, ⟨_, hname, rfl⟩, hdescription,
      rfl⟩, hsource, rfl⟩, htarget, rfl⟩, hsynonyms, rfl⟩, hdata, rfl⟩, haccess, rfl⟩, hunused⟩
    exact ⟨fields, rfl, hname, hdescription, hsource, htarget, hsynonyms, hdata, haccess, hunused⟩
  · rintro ⟨fields, rfl, hname, hdescription, hsource, htarget, hsynonyms, hdata, haccess, hunused⟩
    exact ⟨fields, rfl, ⟨_, _, ⟨_, _, ⟨_, _, ⟨_, _, ⟨_, _, ⟨_, _, ⟨_, hname, rfl⟩, hdescription,
      rfl⟩, hsource, rfl⟩, htarget, rfl⟩, hsynonyms, rfl⟩, hdata, rfl⟩, haccess, rfl⟩, hunused⟩

theorem rereads_edgeType : Rereads readEdgeType EdgeType.toValue := by
  intro v t h
  obtain ⟨fields, -, hname, hdescription, hsource, htarget, hsynonyms, hdata, haccess, -⟩ :=
    readEdgeType_eq_value_iff.1 h
  refine readEdgeType_eq_value_iff.2 ⟨_, rfl, ?_, ?_, ?_, ?_, ?_, ?_, ?_, rfl⟩
  · exact required_of_get? rfl (rereads_text.of_required hname)
  · exact optional_of_get? rfl rfl (rereads_text.of_optional rfl hdescription)
  · exact required_of_get? rfl (rereads_connection.of_required hsource)
  · exact required_of_get? rfl (rereads_connection.of_required htarget)
  · exact optional_of_get? rfl rfl (rereads_texts.of_optional rfl hsynonyms)
  · exact optional_of_get? rfl rfl (rereads_kinds.of_optional rfl hdata)
  · exact optional_of_get? rfl rfl (rereads_optionalAccess.of_optional rfl haccess)

theorem readFields_eq_value_iff {v : Value} {s : Schema} :
    readFields v = .value s ↔ ∃ fields, v = .record fields ∧
      required fields "node_types" (readRecord readNodeType) = .value s.nodeTypes ∧
      required fields "edge_types" (readRecord readEdgeType) = .value s.edgeTypes ∧
      unused fields [["node_types"], ["edge_types"]] = [] := by
  simp only [readFields, readModel_eq_value_iff, seq_eq_value_iff, fmap_eq_value_iff]
  constructor
  · rintro ⟨fields, rfl, ⟨_, _, ⟨_, hnodes, rfl⟩, hedges, rfl⟩, hunused⟩
    exact ⟨fields, rfl, hnodes, hedges, hunused⟩
  · rintro ⟨fields, rfl, hnodes, hedges, hunused⟩
    exact ⟨fields, rfl, ⟨_, _, ⟨_, hnodes, rfl⟩, hedges, rfl⟩, hunused⟩

theorem rereads_fields : Rereads readFields Schema.toValue := by
  intro v s h
  obtain ⟨fields, -, hnodes, hedges, -⟩ := readFields_eq_value_iff.1 h
  refine readFields_eq_value_iff.2 ⟨_, rfl, ?_, ?_, rfl⟩
  · exact required_of_get? rfl ((rereads_record rereads_nodeType).of_required hnodes)
  · exact required_of_get? rfl ((rereads_record rereads_edgeType).of_required hedges)

/-! ### Schemas -/

theorem rereads_schema : Rereads Schema.read Schema.toValue := by
  intro v s h
  have hfields : readFields s.toValue = .value s := rereads_fields (readFields_of_read h)
  have hconsistent := (inconsistency?_eq_none_iff s).2 (consistent_of_read h)
  unfold Schema.read
  rw [hfields]
  dsimp only
  rw [hconsistent]

theorem read_of_ofValue {v : Value} {s : Schema} (h : ofValue v = .ok s) :
    Schema.read v = .value s := by
  unfold ofValue at h
  split at h
  · split at h
    · rename_i hread
      obtain rfl := Except.ok.inj h
      exact hread
    · cases h
  · cases h

/-- A schema that is accepted is accepted again as it is written, and is the same. -/
theorem ofValue_toValue {v : Value} {s : Schema} (h : ofValue v = .ok s) :
    ofValue s.toValue = .ok s := by
  have hread := rereads_schema (read_of_ofValue h)
  unfold ofValue
  rw [show s.toValue = .record _ from rfl] at hread ⊢
  dsimp only
  rw [hread]

end PropertyGraph.Schema
