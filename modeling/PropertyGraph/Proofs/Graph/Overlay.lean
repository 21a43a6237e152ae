import PropertyGraph.Entity

/-!
# Overlays

Fields that are written over others take the places of those with the same labels, and stand at the
end elsewhere.  Writing twice is writing once what was written together (`Fields.merge_merge`), and
what is there already changes nothing (`Fields.merge_of_subset`).

So two updates of an entity come to one: `Entity.fused` takes the later value of every field, and
lays changed data over changed data.  An entity that the two lead to is the one that this leads to
(`Node.updated_fused`, `Edge.updated_fused`), and an update that is repeated leads no further
(`Node.updated_again`, `Edge.updated_again`).
-/

namespace PropertyGraph

namespace Fields

/-! ### Labels -/

/-- Every two labels identify different things. -/
def Apart (fs : Fields) : Prop := fs.labels.Pairwise fun a b => a.sameKey b = false

/-- Whether a label is there, perhaps written otherwise. -/
def Holds (fs : Fields) (label : Value) : Prop := ∃ l ∈ fs.labels, l.sameKey label = true

/-- Every label is found by itself. -/
def Findable (fs : Fields) : Prop := ∀ l ∈ fs.labels, l.sameKey l = true

variable {d fs gs : Fields} {k l v w : Value}

theorem apart_cons (p : Value × Value) (fs : Fields) :
    Apart (p :: fs) ↔ (∀ q ∈ fs, p.1.sameKey q.1 = false) ∧ fs.Apart := by
  unfold Apart labels
  rw [List.map_cons, List.pairwise_cons, List.forall_mem_map]

theorem holds_cons (p : Value × Value) (fs : Fields) (label : Value) :
    Holds (p :: fs) label ↔ p.1.sameKey label = true ∨ fs.Holds label := by
  simp only [Holds, labels, List.map_cons, List.mem_cons, exists_eq_or_imp]

theorem Apart.put (h : fs.Apart) (l v : Value) : (put fs l v).Apart := by
  induction fs with
  | nil => exact List.pairwise_singleton _ _
  | cons p rest ih =>
    obtain ⟨hp, hrest⟩ := (apart_cons p rest).1 h
    rw [Fields.put]
    split
    · exact (apart_cons _ rest).2 ⟨hp, hrest⟩
    · rename_i hother
      refine (apart_cons p _).2 ⟨fun q hq => ?_, ih hrest⟩
      rcases mem_labels_put (List.mem_map_of_mem hq) with hlabel | hlabel
      · rw [hlabel]
        exact eq_false_of_ne_true hother
      · obtain ⟨r, hr, hlabel⟩ := List.mem_map.1 hlabel
        rw [← hlabel]
        exact hp r hr

/-- What is written under a label that is there leaves the labels as they are. -/
theorem labels_put (h : fs.Holds l) (v : Value) : (put fs l v).labels = fs.labels := by
  induction fs with
  | nil =>
    obtain ⟨m, hm, -⟩ := h
    cases hm
  | cons p rest ih =>
    rw [put]
    split
    · rfl
    · rename_i hother
      have hrest := ih (((holds_cons p rest l).1 h).resolve_left hother)
      exact congrArg (p.1 :: ·) hrest

theorem Holds.put (h : fs.Holds l) (k w : Value) : (put fs k w).Holds l := by
  induction fs with
  | nil =>
    obtain ⟨m, hm, -⟩ := h
    cases hm
  | cons p rest ih =>
    rw [Fields.put]
    split
    · exact (holds_cons _ rest l).2 ((holds_cons p rest l).1 h)
    · exact (holds_cons p _ l).2 (((holds_cons p rest l).1 h).imp_right ih)

theorem holds_put_self (hl : l.sameKey l = true) (fs : Fields) (v : Value) :
    (put fs l v).Holds l := by
  induction fs with
  | nil => exact ⟨l, List.mem_singleton_self l, hl⟩
  | cons p rest ih =>
    rw [put]
    split
    · rename_i hsame
      exact (holds_cons _ rest l).2 (.inl hsame)
    · exact (holds_cons p _ l).2 (.inr ih)

/-- The names of a record are apart where none repeats. -/
theorem apart_ofRecord {r : Record Value} (h : (Record.keys r).Nodup) : (ofRecord r).Apart := by
  have hlabels : (ofRecord r).labels = (Record.keys r).map .text := by
    simp only [labels, ofRecord, Record.keys, List.map_map, Function.comp_def]
  rw [Apart, hlabels, List.pairwise_map]
  refine h.imp fun {a b} hab => ?_
  rw [Value.sameKey_text_text, decide_eq_false hab]

theorem findable_ofRecord (r : Record Value) : (ofRecord r).Findable := by
  intro l hl
  obtain ⟨p, hp, rfl⟩ := List.mem_map.1 hl
  obtain ⟨q, -, rfl⟩ := List.mem_map.1 hp
  exact Value.sameKey_self (Value.key?_text q.1)

/-! ### Writing twice -/

/-- What is written under a label replaces what was written under it just before. -/
theorem put_put (hkl : k.sameKey l = true) (fs : Fields) (w v : Value) :
    put (put fs k w) l v = put fs k v := by
  have hsame : ∀ m : Value, m.sameKey l = m.sameKey k := by
    intro m
    rw [Bool.eq_iff_iff]
    refine ⟨fun h => Value.sameKey_trans h ?_, fun h => Value.sameKey_trans h hkl⟩
    rwa [Value.sameKey_comm]
  induction fs with
  | nil => exact if_pos hkl
  | cons p rest ih =>
    by_cases hp : p.1.sameKey k = true
    · rw [put, if_pos hp, put, if_pos ((hsame p.1).trans hp), put, if_pos hp]
    · have hpl : ¬ p.1.sameKey l = true := fun h => hp ((hsame p.1).symm.trans h)
      rw [put, if_neg hp, put, if_neg hpl, put, if_neg hp, ih]

/-- Under a label that is there already, it may be written before anything under another one. -/
theorem put_comm (hkl : k.sameKey l = false) (h : fs.Holds l) (w v : Value) :
    put (put fs k w) l v = put (put fs l v) k w := by
  induction fs with
  | nil =>
    obtain ⟨m, hm, -⟩ := h
    cases hm
  | cons p rest ih =>
    by_cases hk : p.1.sameKey k = true
    · have hl : ¬ p.1.sameKey l = true :=
        ne_true_of_eq_false (Value.sameKey_eq_false_of_sameKey hk hkl)
      rw [put, if_pos hk, put, if_neg hl, put, if_neg hl, put, if_pos hk]
    · by_cases hl : p.1.sameKey l = true
      · rw [put, if_neg hk, put, if_pos hl, put, if_pos hl, put, if_neg hk]
      · have hrest := ((holds_cons p rest l).1 h).resolve_left hl
        rw [put, if_neg hk, put, if_neg hl, put, if_neg hl, put, if_neg hk, ih hrest]

theorem merge_cons (d : Fields) (p : Value × Value) (fs : Fields) :
    merge d (p :: fs) = merge (put d p.1 p.2) fs := rfl

/-- So it may be written before others. -/
theorem put_merge_of_holds (hl : ∀ p ∈ fs, p.1.sameKey l = false) (h : d.Holds l) (v : Value) :
    put (merge d fs) l v = merge (put d l v) fs := by
  induction fs generalizing d with
  | nil => rfl
  | cons p rest ih =>
    rw [List.forall_mem_cons] at hl
    rw [merge_cons, merge_cons, ih hl.2 (h.put p.1 p.2), put_comm hl.1 h]

/-- One more label may be written among the others beforehand. -/
theorem merge_put (ha : fs.Apart) (d : Fields) (l v : Value) :
    merge d (put fs l v) = put (merge d fs) l v := by
  induction fs generalizing d with
  | nil => rfl
  | cons p rest ih =>
    obtain ⟨hp, hrest⟩ := (apart_cons p rest).1 ha
    rw [put]
    split
    · rename_i hsame
      have hlp : l.sameKey p.1 = true := by rwa [Value.sameKey_comm]
      have hself : p.1.sameKey p.1 = true := Value.sameKey_trans hsame hlp
      -- the label is none of the rest, and it is there once its own place is written
      have hothers : ∀ q ∈ rest, q.1.sameKey l = false := by
        intro q hq
        rw [Value.sameKey_comm]
        exact Value.sameKey_eq_false_of_sameKey hlp (hp q hq)
      have hholds : (put d p.1 p.2).Holds l := by
        obtain ⟨m, hm, hmp⟩ := holds_put_self hself d p.2
        exact ⟨m, hm, Value.sameKey_trans hmp hsame⟩
      rw [merge_cons, merge_cons, put_merge_of_holds hothers hholds, put_put hsame]
    · rw [merge_cons, merge_cons, ih hrest]

/-- Writing some fields and then others is writing what comes of writing the ones over the others,
where the labels of the first ones are apart. -/
theorem merge_merge (ha : fs.Apart) (d gs : Fields) :
    merge (merge d fs) gs = merge d (merge fs gs) := by
  induction gs generalizing fs with
  | nil => rfl
  | cons p rest ih =>
    rw [merge_cons, merge_cons, ← merge_put ha, ih (ha.put p.1 p.2)]

/-! ### Writing again -/

theorem put_of_mem (ha : fs.Apart) {p : Value × Value} (hp : p ∈ fs)
    (hself : p.1.sameKey p.1 = true) : put fs p.1 p.2 = fs := by
  induction fs with
  | nil => cases hp
  | cons q rest ih =>
    obtain ⟨hq, hrest⟩ := (apart_cons q rest).1 ha
    rcases List.mem_cons.1 hp with rfl | hp
    · rw [put, if_pos hself]
    · rw [put, if_neg (ne_true_of_eq_false (hq p hp)), ih hrest hp]

/-- What is there already changes nothing. -/
theorem merge_of_subset (ha : fs.Apart) (hfind : fs.Findable) (hsub : gs ⊆ fs) :
    merge fs gs = fs := by
  induction gs with
  | nil => rfl
  | cons p rest ih =>
    obtain ⟨hp, hrest⟩ := List.cons_subset.1 hsub
    rw [merge_cons, put_of_mem ha hp (hfind p.1 (List.mem_map_of_mem hp)), ih hrest]

theorem merge_again (ha : fs.Apart) (hfind : fs.Findable) (d : Fields) :
    merge (merge d fs) fs = merge d fs := by
  rw [merge_merge ha, merge_of_subset ha hfind (List.Subset.refl fs)]

/-! ### What is found afterwards -/

variable {name : String}

theorem isNamed_iff (name : String) (label : Value) :
    isNamed name label = true ↔ label = .text name := by
  cases label <;> simp [isNamed]

theorem get?_cons (p : Value × Value) (fs : Fields) (name : String) :
    get? (p :: fs) name = if isNamed name p.1 then some p.2 else get? fs name := by
  unfold get?
  rw [List.find?_cons]
  cases isNamed name p.1 <;> rfl

theorem mem_of_get? (h : fs.get? name = some v) : (.text name, v) ∈ fs := by
  obtain ⟨p, hp, rfl⟩ := Option.map_eq_some_iff.1 h
  have hnamed := List.find?_some (p := fun q : Value × Value => isNamed name q.1) hp
  rw [← (isNamed_iff name p.1).1 hnamed]
  exact List.mem_of_find?_eq_some hp

theorem get?_of_mem (ha : fs.Apart) (h : (.text name, v) ∈ fs) : fs.get? name = some v := by
  induction fs with
  | nil => cases h
  | cons p rest ih =>
    obtain ⟨hp, hrest⟩ := (apart_cons p rest).1 ha
    rw [get?_cons]
    rcases List.mem_cons.1 h with rfl | h
    · exact if_pos ((isNamed_iff name _).2 rfl)
    · rw [ih hrest h, if_neg]
      intro hnamed
      have hself := hp _ h
      rw [(isNamed_iff name p.1).1 hnamed, Value.sameKey_text_text, decide_eq_true rfl] at hself
      cases hself

theorem get?_put (fs : Fields) (l v : Value) (name : String) :
    get? (put fs l v) name = if isNamed name l then some v else get? fs name := by
  by_cases hl : isNamed name l = true
  · rw [if_pos hl, (isNamed_iff name l).1 hl, get?_put_self]
  · rw [if_neg hl]
    induction fs with
    | nil => rw [put, get?_cons, if_neg hl]
    | cons p rest ih =>
      rw [put]
      split
      · rename_i hsame
        -- a label that is one with another than the name is not the name either
        have hp : ¬ isNamed name p.1 = true := by
          intro hp
          rw [(isNamed_iff name p.1).1 hp, Value.sameKey_comm, Value.sameKey_text_iff] at hsame
          exact hl ((isNamed_iff name l).2 hsame)
        rw [get?_cons, get?_cons, if_neg hp, if_neg hp]
      · rw [get?_cons, get?_cons, ih]

theorem get?_merge (ha : fs.Apart) (d : Fields) (name : String) :
    get? (merge d fs) name = (fs.get? name).or (d.get? name) := by
  induction fs generalizing d with
  | nil => rfl
  | cons p rest ih =>
    obtain ⟨hp, hrest⟩ := (apart_cons p rest).1 ha
    rw [merge_cons, ih hrest, get?_put, get?_cons]
    split
    · rename_i hnamed
      rcases hfound : get? rest name with _ | w
      · rfl
      · have hagain := hp _ (mem_of_get? hfound)
        rw [(isNamed_iff name p.1).1 hnamed, Value.sameKey_text_text, decide_eq_true rfl] at hagain
        cases hagain
    · rfl

theorem holds_of_get? (h : fs.get? name = some v) : fs.Holds (.text name) :=
  ⟨.text name, List.mem_map_of_mem (mem_of_get? h), Value.sameKey_self (Value.key?_text name)⟩

/-- What is written under labels that are there leaves the labels as they are. -/
theorem labels_merge (h : ∀ p ∈ fs, d.Holds p.1) : (merge d fs).labels = d.labels := by
  induction fs generalizing d with
  | nil => rfl
  | cons p rest ih =>
    rw [List.forall_mem_cons] at h
    rw [merge_cons, ih fun q hq => (h.2 q hq).put p.1 p.2, labels_put h.1]

theorem labels_subset_put (fs : Fields) (l v : Value) : fs.labels ⊆ (put fs l v).labels := by
  induction fs with
  | nil => exact List.nil_subset _
  | cons p rest ih =>
    rw [put]
    split
    · exact List.Subset.refl _
    · exact List.cons_subset_cons p.1 ih

theorem exists_label_put (fs : Fields) (l v : Value) :
    ∃ m ∈ (put fs l v).labels, m = l ∨ m.sameKey l = true := by
  induction fs with
  | nil => exact ⟨l, List.mem_singleton_self l, .inl rfl⟩
  | cons p rest ih =>
    rw [put]
    split
    · rename_i hsame
      exact ⟨p.1, List.mem_cons_self, .inr hsame⟩
    · obtain ⟨m, hm, hml⟩ := ih
      exact ⟨m, List.mem_cons_of_mem p.1 hm, hml⟩

theorem labels_subset_merge (d fs : Fields) : d.labels ⊆ (merge d fs).labels := by
  induction fs generalizing d with
  | nil => exact List.Subset.refl _
  | cons p rest ih => exact List.Subset.trans (labels_subset_put d p.1 p.2) (ih (put d p.1 p.2))

/-- What is written is there afterwards, perhaps under a label that is written otherwise. -/
theorem exists_label_merge (d : Fields) {p : Value × Value} (hp : p ∈ fs) :
    ∃ m ∈ (merge d fs).labels, m = p.1 ∨ m.sameKey p.1 = true := by
  induction fs generalizing d with
  | nil => cases hp
  | cons q rest ih =>
    rcases List.mem_cons.1 hp with rfl | hp
    · obtain ⟨m, hm, hmp⟩ := exists_label_put d p.1 p.2
      exact ⟨m, labels_subset_merge _ rest hm, hmp⟩
    · exact ih (put d q.1 q.2) hp

end Fields

namespace Entity

/-! ### Two updates in one -/

/-- The fields that an update lays over the data. -/
def changedData? (changes : Record Value) : Option Fields :=
  (Record.get? changes "data").bind Value.fields?

/-- No field of an update is named twice, nor is any label of the changed data. -/
structure Regular (changes : Record Value) : Prop where
  keys : (Record.keys changes).Nodup
  apart : ∀ fs, changedData? changes = some fs → fs.Apart

theorem Regular.of_record {changes r : Record Value} (hkeys : (Record.keys changes).Nodup)
    (hdata : changedData? changes = some (Fields.ofRecord r)) (hr : (Record.keys r).Nodup) :
    Regular changes where
  keys := hkeys
  apart fs hfs := by
    obtain rfl := Option.some.inj (hdata.symm.trans hfs)
    exact Fields.apart_ofRecord hr

/-- One update for two: what changes a field later counts, and changed data is laid over changed
data; anything else under the name of data is left out. -/
def fused (first second : Record Value) : Record Value :=
  match Option.merge Fields.merge (changedData? first) (changedData? second) with
  | some fs => Record.set (Record.merge first second) "data" (.ofFields fs)
  | none => Record.erase (Record.merge first second) "data"

theorem overlay_eq (data : Fields) (changes : Record Value) :
    overlay data changes = match changedData? changes with
      | some fs => data.merge fs
      | none => data := rfl

theorem refused?_eq_none_iff (updatable : List String) (changes : Record Value) :
    refused? updatable changes = none ↔
      ∀ key ∈ Record.keys changes, key ∈ fixed ++ updatable := by
  rw [refused?, List.find?_eq_none]
  refine forall₂_congr fun key _ => ?_
  rw [Bool.not_eq_true, Bool.not_eq_false', List.contains_iff_mem]

variable {first second : Record Value}

theorem changedData?_fused (first second : Record Value) :
    changedData? (fused first second) =
      Option.merge Fields.merge (changedData? first) (changedData? second) := by
  unfold fused
  split
  · rename_i fs hfs
    rw [hfs, changedData?, Record.get?_set_self, Option.bind_some, Value.fields?_ofFields]
  · rename_i hnone
    rw [hnone, changedData?, Record.get?_erase_self, Option.bind_none]

theorem get?_fused (hsecond : (Record.keys second).Nodup) {name : String} (hname : "data" ≠ name) :
    Record.get? (fused first second) name =
      (Record.get? second name).or (Record.get? first name) := by
  rw [← Record.get?_merge hsecond]
  unfold fused
  split
  · exact Record.get?_set_of_ne hname _ _
  · exact Record.get?_erase_of_ne hname _

theorem assigned_fused (hsecond : (Record.keys second).Nodup) {name : String}
    (hname : "data" ≠ name) (old : Value) :
    assigned (fused first second) name old = assigned second name (assigned first name old) := by
  unfold assigned
  rw [get?_fused hsecond hname]
  cases Record.get? second name <;> rfl

theorem assignedVector_fused (hsecond : (Record.keys second).Nodup)
    {old next last : Option (List Value)} (hfirst : assignedVector first old = .ok next)
    (hlast : assignedVector second next = .ok last) :
    assignedVector (fused first second) old = .ok last := by
  unfold assignedVector at hlast ⊢
  rw [get?_fused hsecond (by decide)]
  rcases hv : Record.get? second "embedding" with _ | v
  · rw [hv] at hlast
    obtain rfl := Except.ok.inj hlast
    exact hfirst
  · rw [hv] at hlast
    cases v <;> exact hlast

theorem overlay_fused (hfirst : Entity.Regular first) (data : Fields) :
    overlay data (fused first second) = overlay (overlay data first) second := by
  rw [overlay_eq, overlay_eq, overlay_eq, changedData?_fused]
  rcases hfs : changedData? first with _ | fs
  · cases changedData? second <;> rfl
  · cases changedData? second with
    | none => rfl
    | some gs => exact (Fields.merge_merge (hfirst.apart fs hfs) data gs).symm

theorem refused?_fused {updatable : List String} (hdata : "data" ∈ updatable)
    (hfirst : refused? updatable first = none) (hsecond : refused? updatable second = none) :
    refused? updatable (fused first second) = none := by
  rw [refused?_eq_none_iff] at hfirst hsecond ⊢
  have hmerged : ∀ key ∈ Record.keys (Record.merge first second), key ∈ fixed ++ updatable := by
    intro key hkey
    exact ((Record.mem_keys_merge first second key).1 hkey).elim (hfirst key) (hsecond key)
  intro key hkey
  unfold fused at hkey
  split at hkey
  · rcases (Record.mem_keys_set _ _ _ key).1 hkey with hkey | rfl
    · exact hmerged key hkey
    · exact List.mem_append_right fixed hdata
  · exact hmerged key (Record.mem_keys_erase hkey)

/-! ### An update once more -/

variable {changes : Record Value}

theorem assigned_again (changes : Record Value) (name : String) (old : Value) :
    assigned changes name (assigned changes name old) = assigned changes name old := by
  unfold assigned
  cases Record.get? changes name <;> rfl

theorem assignedVector_again {old next : Option (List Value)}
    (h : assignedVector changes old = .ok next) : assignedVector changes next = .ok next := by
  unfold assignedVector at h ⊢
  rcases hv : Record.get? changes "embedding" with _ | v
  · rfl
  · rw [hv] at h
    cases v <;> exact h

theorem overlay_again (hregular : Entity.Regular changes)
    (hfind : ∀ fs, changedData? changes = some fs → fs.Findable) (data : Fields) :
    overlay (overlay data changes) changes = overlay data changes := by
  simp only [overlay_eq]
  rcases hfs : changedData? changes with _ | fs
  · rfl
  · exact Fields.merge_again (hregular.apart fs hfs) (hfind fs hfs) data

end Entity

/-! ### Entities that are updated twice -/

section Updated

variable {first second changes : Record Value}

theorem Edge.updated_eq_ok_iff {e f : Edge} :
    e.updated changes = .ok f ↔
      Entity.refused? Edge.updatable changes = none ∧
        f = { e with
          source := Entity.assigned changes "source_node_id" e.source
          target := Entity.assigned changes "target_node_id" e.target
          data := Entity.overlay e.data changes
          createdAt := Entity.assigned changes "created_at" e.createdAt
          updatedAt := Entity.assigned changes "updated_at" e.updatedAt } := by
  unfold Edge.updated
  cases Entity.refused? Edge.updatable changes with
  | some key => simp
  | none => simp [eq_comm]

theorem Node.updated_fused (hfirst : Entity.Regular first) (hsecond : Entity.Regular second)
    {n m k : Node} (hm : n.updated first = .ok m) (hk : m.updated second = .ok k) :
    n.updated (Entity.fused first second) = .ok k := by
  obtain ⟨hallowed, x, hx, rfl⟩ := Node.updated_eq_ok_iff.1 hm
  obtain ⟨hallowed', y, hy, rfl⟩ := Node.updated_eq_ok_iff.1 hk
  refine Node.updated_eq_ok_iff.2 ⟨Entity.refused?_fused (by decide) hallowed hallowed', y,
    Entity.assignedVector_fused hsecond.keys hx hy, ?_⟩
  rw [Entity.overlay_fused hfirst, Entity.assigned_fused hsecond.keys (by decide),
    Entity.assigned_fused hsecond.keys (by decide)]

theorem Edge.updated_fused (hfirst : Entity.Regular first) (hsecond : Entity.Regular second)
    {e f k : Edge} (hf : e.updated first = .ok f) (hk : f.updated second = .ok k) :
    e.updated (Entity.fused first second) = .ok k := by
  obtain ⟨hallowed, rfl⟩ := Edge.updated_eq_ok_iff.1 hf
  obtain ⟨hallowed', rfl⟩ := Edge.updated_eq_ok_iff.1 hk
  refine Edge.updated_eq_ok_iff.2 ⟨Entity.refused?_fused (by decide) hallowed hallowed', ?_⟩
  rw [Entity.overlay_fused hfirst, Entity.assigned_fused hsecond.keys (by decide),
    Entity.assigned_fused hsecond.keys (by decide), Entity.assigned_fused hsecond.keys (by decide),
    Entity.assigned_fused hsecond.keys (by decide)]

variable (hregular : Entity.Regular changes)
  (hfind : ∀ fs, Entity.changedData? changes = some fs → fs.Findable)

include hregular hfind

theorem Node.updated_again {n m : Node} (hm : n.updated changes = .ok m) :
    m.updated changes = .ok m := by
  obtain ⟨hallowed, x, hx, rfl⟩ := Node.updated_eq_ok_iff.1 hm
  refine Node.updated_eq_ok_iff.2 ⟨hallowed, x, Entity.assignedVector_again hx, ?_⟩
  simp only [Entity.overlay_again hregular hfind, Entity.assigned_again]

theorem Edge.updated_again {e f : Edge} (hf : e.updated changes = .ok f) :
    f.updated changes = .ok f := by
  obtain ⟨hallowed, rfl⟩ := Edge.updated_eq_ok_iff.1 hf
  refine Edge.updated_eq_ok_iff.2 ⟨hallowed, ?_⟩
  simp only [Entity.overlay_again hregular hfind, Entity.assigned_again]

end Updated

end PropertyGraph
