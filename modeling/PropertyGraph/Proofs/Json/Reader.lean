import PropertyGraph.Failure
import PropertyGraph.Json.Reader
import PropertyGraph.Proofs.Graph.Entries
import PropertyGraph.Proofs.Value.Equality

/-!
# What is read is proper

Of a name that is written twice the reader keeps one, so that no value that it gives repeats a name
(`proper_of_read`).
-/

namespace PropertyGraph

theorem Value.proper_of_isText {v : Value} (h : Graph.isText v = true) : v.proper = true := by
  cases v with
  | text | points => simp only [proper]
  | _ => cases h

namespace Fields

/-- Fields with texts for labels, none of them twice, and proper values. -/
structure Proper (fs : Fields) : Prop where
  texts : ∀ p ∈ fs, Graph.isText p.1 = true
  values : ∀ p ∈ fs, p.2.proper = true
  apart : (fs.map (·.1)).Nodup

theorem Proper.put {fs : Fields} (h : fs.Proper) {label v : Value}
    (hl : Graph.isText label = true) (hv : v.proper = true) : (put fs label v).Proper := by
  induction fs with
  | nil =>
    exact ⟨List.forall_mem_singleton.2 hl, List.forall_mem_singleton.2 hv, List.nodup_singleton _⟩
  | cons p rest ih =>
    obtain ⟨other, w⟩ := p
    obtain ⟨htexts, hvalues, hapart⟩ := h
    rw [List.forall_mem_cons] at htexts hvalues
    rw [List.map_cons, List.nodup_cons] at hapart
    rw [Fields.put]
    split
    · exact ⟨List.forall_mem_cons.2 htexts, List.forall_mem_cons.2 ⟨hv, hvalues.2⟩,
        List.nodup_cons.2 hapart⟩
    · rename_i hkey
      have hrest := ih ⟨htexts.2, hvalues.2, hapart.2⟩
      refine ⟨List.forall_mem_cons.2 ⟨htexts.1, hrest.texts⟩,
        List.forall_mem_cons.2 ⟨hvalues.1, hrest.values⟩, List.nodup_cons.2 ⟨?_, hrest.apart⟩⟩
      intro hmem
      rcases mem_labels_put hmem with heq | hmem
      · exact hkey ((Value.sameKey_iff_eq hl other).2 heq)
      · exact hapart.1 hmem

theorem Proper.merge {fs : Fields} (h : fs.Proper) {ps : List (Value × Value)}
    (hl : ∀ p ∈ ps, Graph.isText p.1 = true) (hv : ∀ p ∈ ps, p.2.proper = true) :
    (merge fs ps).Proper := by
  induction ps generalizing fs with
  | nil => exact h
  | cons p rest ih =>
    rw [List.forall_mem_cons] at hl hv
    exact ih (h.put hl.1 hv.1) hl.2 hv.2

/-- Fields that are proper make a proper mapping, as texts are equal to themselves only. -/
theorem Proper.mapping {fs : Fields} (h : fs.Proper) : (Value.mapping fs).proper = true := by
  rw [Value.proper, Value.properMapping_iff]
  refine ⟨fun p hp => ⟨Value.proper_of_isText (h.texts p hp), h.values p hp⟩, ?_⟩
  refine (List.pairwise_map.1 h.apart).imp_of_mem fun hp _ hne heq => ?_
  exact hne ((Value.eqv_iff_eq (h.texts _ hp) _).1 heq)

end Fields

/-- What is made of proper values with texts for labels is proper. -/
theorem Value.proper_ofPairs {ps : List (Value × Value)}
    (hl : ∀ p ∈ ps, Graph.isText p.1 = true) (hv : ∀ p ∈ ps, p.2.proper = true) :
    (Value.ofPairs ps).proper = true := by
  rw [Value.ofPairs]
  cases hr : Fields.record? ps with
  | none =>
    have hempty : Fields.Proper [] := ⟨nofun, nofun, List.nodup_nil⟩
    exact (hempty.merge hl hv).mapping
  | some r =>
    have hvalues : ∀ p ∈ r, p.2.proper = true := by
      intro p hp
      rw [Fields.eq_ofRecord_of_record? hr] at hv
      exact hv (.text p.1, p.2) (List.mem_map_of_mem hp)
    have hnames := List.pairwise_map.1 (Record.keys_ofList_nodup r)
    rw [Value.proper, Value.properFields_iff]
    have hnone : ∀ p ∈ ([] : Record Value), p.2.proper = true := fun p hp => by cases hp
    have hall := Record.forall_mem_merge (P := fun v : Value => v.proper = true) hnone hvalues
    exact ⟨hall, hnames⟩

/-- The fields of a proper value have proper values. -/
theorem Value.proper_of_fields? {v : Value} (hv : v.proper = true) {fs : Fields}
    (h : v.fields? = some fs) : ∀ p ∈ fs, p.2.proper = true := by
  cases v with
  | record r =>
    obtain rfl := Option.some.inj h
    have hr : properFields r = true := by simpa only [proper] using hv
    intro p hp
    obtain ⟨q, hq, rfl⟩ := List.mem_map.1 hp
    exact ((properFields_iff r).1 hr).1 q hq
  | mapping gs =>
    obtain rfl := Option.some.inj h
    have hfs : properMapping gs = true := by simpa only [proper] using hv
    exact fun p hp => (((properMapping_iff gs).1 hfs).1 p hp).2
  | _ => cases h

/-! ### Reading -/

namespace Json

theorem isText_ofPoints (ps : List Text.Point) : Graph.isText (Value.ofPoints ps) = true := by
  rw [Value.ofPoints]
  split <;> rfl

theorem isText_of_string? {cs rest : List Char} {v : Value} (h : string? cs = some (v, rest)) :
    Graph.isText v = true := by
  obtain ⟨⟨written, more⟩, -, h⟩ := Option.bind_eq_some_iff.1 h
  obtain ⟨ps, -, h⟩ := Option.bind_eq_some_iff.1 h
  cases h
  exact isText_ofPoints ps

theorem isText_of_name? {cs rest : List Char} {v : Value} (h : name? cs = some (v, rest)) :
    Graph.isText v = true := by
  unfold name? at h
  split at h
  · split at h
    · obtain ⟨⟨key, more⟩, hkey, h⟩ := Option.bind_eq_some_iff.1 h
      dsimp only at h
      split at h
      · cases h
        exact isText_of_string? hkey
      · cases h
    · cases h
  · cases h

theorem proper_of_unsigned {negative : Bool} {cs rest : List Char} {v : Value}
    (h : unsigned negative cs = .ok (v, rest)) : v.proper = true := by
  obtain ⟨⟨whole, more⟩, -, h⟩ := bind_eq_ok_iff.1 h
  dsimp only at h
  split at h
  · obtain ⟨n, -, h⟩ := bind_eq_ok_iff.1 h
    cases h
    simp only [Value.proper]
  · cases h
    simp only [Value.proper]

theorem proper_of_scalar {cs rest : List Char} {v : Value} (h : scalar cs = .ok (v, rest)) :
    v.proper = true := by
  have hwords : ∀ w ∈ words, w.2.proper = true := by simp [words, Value.proper]
  unfold scalar at h
  split at h
  · rename_i found hfound
    cases h
    obtain ⟨w, hw, hmap⟩ := List.exists_of_findSome?_eq_some hfound
    obtain ⟨_, -, heq⟩ := Option.map_eq_some_iff.1 hmap
    cases heq
    exact hwords w hw
  · split at h <;> exact proper_of_unsigned h

mutual

theorem proper_of_value : ∀ {fuel : Nat} {cs rest : List Char} {v : Value},
    value fuel cs = .ok (v, rest) → v.proper = true
  | 0, cs, rest, v, h => by
    rw [value] at h
    cases h
  | fuel + 1, [], rest, v, h => by
    rw [value] at h
    cases h
  | fuel + 1, c :: cs, rest, v, h => by
    rw [value] at h
    split at h
    · rw [Misreading.orMalformed_eq_ok_iff] at h
      exact Value.proper_of_isText (isText_of_string? h)
    split at h
    · split at h
      · cases h
        rw [Value.proper, Value.properItems]
      · obtain ⟨⟨vs, more⟩, hitems, h⟩ := bind_eq_ok_iff.1 h
        cases h
        rw [Value.proper, Value.properItems_iff]
        exact proper_of_items hitems
    split at h
    · split at h
      · cases h
        rw [Value.proper, Value.properFields]
      · obtain ⟨⟨ps, more⟩, hfields, h⟩ := bind_eq_ok_iff.1 h
        cases h
        obtain ⟨hl, hv⟩ := proper_of_fields hfields
        exact Value.proper_ofPairs hl hv
    · exact proper_of_scalar h

theorem proper_of_items : ∀ {fuel : Nat} {cs rest : List Char} {vs : List Value},
    items fuel cs = .ok (vs, rest) → ∀ v ∈ vs, v.proper = true
  | 0, cs, rest, vs, h => by
    rw [items] at h
    cases h
  | fuel + 1, cs, rest, vs, h => by
    rw [items] at h
    obtain ⟨⟨v, more⟩, hvalue, h⟩ := bind_eq_ok_iff.1 h
    have hv := proper_of_value hvalue
    dsimp only at h
    split at h
    · obtain ⟨⟨ws, more'⟩, hitems, h⟩ := bind_eq_ok_iff.1 h
      cases h
      exact List.forall_mem_cons.2 ⟨hv, proper_of_items hitems⟩
    · cases h
      exact List.forall_mem_singleton.2 hv
    · cases h

theorem proper_of_fields : ∀ {fuel : Nat} {cs rest : List Char} {ps : List (Value × Value)},
    fields fuel cs = .ok (ps, rest) →
      (∀ p ∈ ps, Graph.isText p.1 = true) ∧ ∀ p ∈ ps, p.2.proper = true
  | 0, cs, rest, ps, h => by
    rw [fields] at h
    cases h
  | fuel + 1, cs, rest, ps, h => by
    rw [fields] at h
    obtain ⟨⟨key, more⟩, hname, h⟩ := bind_eq_ok_iff.1 h
    obtain ⟨⟨v, more'⟩, hvalue, h⟩ := bind_eq_ok_iff.1 h
    have hkey := isText_of_name? ((Misreading.orMalformed_eq_ok_iff _ _).1 hname)
    have hv := proper_of_value hvalue
    dsimp only at h
    split at h
    · obtain ⟨⟨qs, more''⟩, hfields, h⟩ := bind_eq_ok_iff.1 h
      cases h
      obtain ⟨hl, hv'⟩ := proper_of_fields hfields
      exact ⟨List.forall_mem_cons.2 ⟨hkey, hl⟩, List.forall_mem_cons.2 ⟨hv, hv'⟩⟩
    · cases h
      exact ⟨List.forall_mem_singleton.2 hkey, List.forall_mem_singleton.2 hv⟩
    · cases h

end

/-- No value that is read repeats a name. -/
theorem proper_of_read {s : String} {v : Value} (h : read s = .ok v) : v.proper = true := by
  obtain ⟨⟨w, rest⟩, hvalue, h⟩ := bind_eq_ok_iff.1 h
  dsimp only at h
  split at h
  · cases h
    exact proper_of_value hvalue
  · cases h

end Json

end PropertyGraph
