import Mathlib.Data.Multiset.Sections
import PropertyGraph.Proofs.Fact.Reference

/-!
# Choices of a pattern

What a pattern may pick in a fact, one list of picks for each choice of indices.  Key by key these
are all ways to take one of the options of that key (`mem_choices_iff`).  So if the keys are taken
in another order, the same picks are made in another order, and equally often (`choices_perm`).
-/

namespace PropertyGraph.Pattern

/-! ### Options -/

/-- What a variable may pick where it meets a value. -/
def options (name : String) (v : Value) : List Pick :=
  match v.items? with
  | some items => items.map fun item => ⟨name, true, item⟩
  | none => [⟨name, false, v⟩]

theorem options_whole {v : Value} (h : v.items? = none) (name : String) :
    options name v = [⟨name, false, v⟩] := by
  rw [options, h]

theorem options_members {v : Value} {items : List Value} (h : v.items? = some items)
    (name : String) : options name v = items.map fun item => ⟨name, true, item⟩ := by
  rw [options, h]

theorem name_of_mem_options {name : String} {v : Value} {p : Pick} (h : p ∈ options name v) :
    p.name = name := by
  cases hitems : v.items? with
  | none =>
    rw [options_whole hitems, List.mem_singleton] at h
    rw [h]
  | some items =>
    rw [options_members hitems] at h
    obtain ⟨item, -, rfl⟩ := List.mem_map.1 h
    rfl

theorem proper_of_mem_options {name : String} {v : Value} (hv : v.proper = true) {p : Pick}
    (h : p ∈ options name v) : p.value.proper = true := by
  cases hitems : v.items? with
  | none =>
    rw [options_whole hitems, List.mem_singleton] at h
    rw [h]
    exact hv
  | some items =>
    rw [options_members hitems] at h
    obtain ⟨item, hitem, rfl⟩ := List.mem_map.1 h
    exact Value.proper_of_mem_items? hv hitems item hitem

/-- A literal accepts a value exactly when some option of a variable there is the same. -/
theorem meets_iff (name : String) (v w : Value) :
    v.meets w = true ↔ ∃ p ∈ options name v, w.same p.value = true := by
  unfold Value.meets
  cases hitems : v.items? with
  | none => simp [options_whole hitems]
  | some items => simp [options_members hitems]

/-! ### Choices -/

/-- What may be picked at the keys of variables, one list for each choice of indices. -/
def choices (ms : List (String × Value)) : List (List Pick) := (indices (bounds ms)).map (picks ms)

theorem choices_nil : choices [] = [[]] := rfl

theorem choices_cons (name : String) (v : Value) (ms : List (String × Value)) :
    choices ((name, v) :: ms) =
      (options name v).flatMap fun p => (choices ms).map (p :: ·) := by
  unfold choices
  cases hitems : v.items? with
  | none =>
    have hbounds : bounds ((name, v) :: ms) = bounds ms := by simp [bounds, hitems]
    have hpicks : picks ((name, v) :: ms) = fun is => ⟨name, false, v⟩ :: picks ms is :=
      funext (picks_whole hitems ms)
    simp only [hbounds, hpicks, options_whole hitems, List.flatMap_singleton, List.map_map,
      Function.comp_def]
  | some items =>
    have hbounds : bounds ((name, v) :: ms) = items.length :: bounds ms := by
      simp [bounds, hitems]
    simp only [hbounds, indices, options_members hitems, List.map_flatMap, List.map_map,
      Function.comp_def, picks_members hitems, List.flatMap_map]
    exact flatMap_range_getD items .null fun item =>
      (indices (bounds ms)).map fun is => ⟨name, true, item⟩ :: picks ms is

/-- Each list of picks takes one of the options at each key. -/
theorem mem_choices_iff (ms : List (String × Value)) (ps : List Pick) :
    ps ∈ choices ms ↔ List.Forall₂ (fun p m => p ∈ options m.1 m.2) ps ms := by
  induction ms generalizing ps with
  | nil => rw [choices_nil, List.mem_singleton, List.forall₂_nil_right_iff]
  | cons m rest ih =>
    rw [choices_cons, List.mem_flatMap, List.forall₂_cons_right_iff]
    simp only [List.mem_map, ih]
    constructor
    · rintro ⟨p, hp, qs, hqs, rfl⟩
      exact ⟨p, qs, hp, hqs, rfl⟩
    · rintro ⟨p, qs, hp, hqs, rfl⟩
      exact ⟨p, hp, qs, hqs, rfl⟩

theorem proper_of_mem_choices {ms : List (String × Value)} (hms : ∀ m ∈ ms, m.2.proper = true)
    {ps : List Pick} (h : ps ∈ choices ms) : ∀ p ∈ ps, p.value.proper = true := by
  rw [mem_choices_iff] at h
  induction h with
  | nil => exact nofun
  | cons hp _ ih =>
    rw [List.forall_mem_cons] at hms ⊢
    exact ⟨proper_of_mem_options hms.1 hp, ih hms.2⟩

/-- Up to the order of picks, the choices are the ways to take one of the options at each key. -/
theorem map_ofList_choices (ms : List (String × Value)) :
    Multiset.ofList ((choices ms).map Multiset.ofList) =
      Multiset.Sections (ms.map fun m => Multiset.ofList (options m.1 m.2)) := by
  induction ms with
  | nil => rfl
  | cons m rest ih =>
    obtain ⟨name, v⟩ := m
    rw [List.map_cons, ← Multiset.cons_coe, Multiset.sections_cons, ← ih, choices_cons]
    simp only [Multiset.map_coe, Multiset.coe_bind, List.map_flatMap, List.map_map,
      Function.comp_def, Multiset.cons_coe]

/-- If the keys are taken in another order, the same picks are made, and equally often. -/
theorem choices_perm {ms ms' : List (String × Value)} (h : ms.Perm ms') :
    ((choices ms).map Multiset.ofList).Perm ((choices ms').map Multiset.ofList) := by
  rw [← Multiset.coe_eq_coe, map_ofList_choices, map_ofList_choices]
  exact congrArg Multiset.Sections (Multiset.coe_eq_coe.2 (h.map _))

/-! ### Solutions in terms of choices -/

theorem mem_met_iff (fact : Fact) (pattern : Pattern) (m : String × Value) :
    m ∈ met fact pattern ↔
      ∃ key, (key, .variable m.1) ∈ pattern ∧ fact.get? key = some m.2 := by
  induction pattern with
  | nil => simp [met]
  | cons p rest ih =>
    obtain ⟨key, term⟩ := p
    rcases term with name | w | t
    · cases hkey : fact.get? key with
      | none => simp [met, hkey, ih, or_and_right, exists_or]
      | some v =>
        simp only [met_variable rest hkey, List.mem_cons, ih, Prod.mk.injEq,
          Term.variable.injEq, or_and_right, exists_or]
        refine or_congr_left ⟨?_, ?_⟩
        · rintro rfl
          exact ⟨key, ⟨rfl, rfl⟩, hkey⟩
        · rintro ⟨_, ⟨rfl, rfl⟩, hv⟩
          exact Prod.ext rfl (Option.some.inj (hv.symm.trans hkey))
    · simp [met, ih]
    · simp [met, ih]

theorem proper_of_mem_met {fact : Fact} (hfact : ∀ p ∈ fact, p.2.proper = true)
    {pattern : Pattern} {m : String × Value} (h : m ∈ met fact pattern) :
    m.2.proper = true := by
  obtain ⟨key, -, hkey⟩ := (mem_met_iff fact pattern m).1 h
  obtain ⟨p, hp, hv⟩ := Fields.exists_of_get? hkey
  exact hv ▸ hfact p hp

theorem mem_reference_iff (pattern : Pattern) (fact : Fact) (b : Bindings) :
    b ∈ pattern.reference fact ↔
      (∀ p ∈ pattern, ∃ v, fact.get? p.1 = some v ∧ p.2.accepts v = true) ∧
        ∃ ps ∈ choices (met fact pattern), Agreeing ps ∧ bound ps = b := by
  have hall : (pattern.all fun p => (fact.get? p.1).any p.2.accepts) = true ↔
      ∀ p ∈ pattern, ∃ v, fact.get? p.1 = some v ∧ p.2.accepts v = true := by
    simp only [List.all_eq_true, Option.any_eq_true]
  unfold reference
  rw [← hall]
  split
  · rename_i h
    simp [h, choices, and_assoc]
  · rename_i h
    simp [h]

end PropertyGraph.Pattern
