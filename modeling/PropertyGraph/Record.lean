/-!
# Records

A record is a list of named values in the order in which the names were first given.  Writing to
a name that is there changes the value in place; writing to a new name appends it.  So the names
of a record built by `ofList` never repeat (`keys_ofList_nodup`), and a later value of a name wins.
-/

namespace PropertyGraph

/-- Named values in insertion order. -/
abbrev Record (α : Type u) := List (String × α)

namespace Record

variable {α : Type u} {β : Type v}

/-- The names, in order. -/
def keys (r : Record α) : List String := r.map (·.1)

/-- The value of a name. -/
def get? (r : Record α) (key : String) : Option α := r.lookup key

/-- Whether a name is there. -/
def has (r : Record α) (key : String) : Bool := (get? r key).isSome

/-- Gives a name a value: in place where the name is there, at the end where it is new. -/
def set : Record α → String → α → Record α
  | [], key, v => [(key, v)]
  | (k, w) :: rest, key, v => if k = key then (k, v) :: rest else (k, w) :: set rest key v

/-- Leaves out a name. -/
def erase (r : Record α) (key : String) : Record α := r.filter fun p => p.1 != key

/-- Writes the second record over the first, name by name. -/
def merge (r s : Record α) : Record α := s.foldl (fun acc p => set acc p.1 p.2) r

/-- The record of a list of pairs: a repeated name keeps its first place and takes its last
value. -/
def ofList (ps : List (String × α)) : Record α := merge [] ps

/-- Applies a function to every value. -/
def mapValues (f : α → β) (r : Record α) : Record β := r.map fun p => (p.1, f p.2)

/-! ### Reading what was written -/

@[simp] theorem get?_nil (key : String) : get? ([] : Record α) key = none := rfl

theorem get?_cons (k : String) (w : α) (rest : Record α) (key : String) :
    get? ((k, w) :: rest) key = if k = key then some w else get? rest key := by
  by_cases h : k = key
  · subst h; simp [get?]
  · have h' : (key == k) = false := by simpa using fun e => h e.symm
    simp [get?, List.lookup_cons, h, h']

theorem get?_set_self (r : Record α) (key : String) (v : α) :
    get? (set r key v) key = some v := by
  induction r with
  | nil => simp [set, get?_cons]
  | cons p rest ih =>
    obtain ⟨k, w⟩ := p
    by_cases h : k = key <;> simp [set, get?_cons, h, ih]

theorem get?_set_of_ne {key other : String} (h : key ≠ other) (r : Record α) (v : α) :
    get? (set r key v) other = get? r other := by
  induction r with
  | nil => simp [set, get?_cons, h]
  | cons p rest ih =>
    obtain ⟨k, w⟩ := p
    by_cases hk : k = key
    · subst hk; simp [set, get?_cons, h]
    · simp [set, get?_cons, hk, ih]

theorem get?_eq_none_iff (r : Record α) (key : String) : get? r key = none ↔ key ∉ keys r := by
  induction r with
  | nil => simp [keys]
  | cons p rest ih =>
    obtain ⟨k, w⟩ := p
    by_cases h : k = key
    · simp [get?_cons, keys, h]
    · have h' : ¬ key = k := fun e => h e.symm
      simp [get?_cons, keys, h, h', ih] at ih ⊢

theorem mem_of_get? {r : Record α} {key : String} {v : α} (h : get? r key = some v) :
    (key, v) ∈ r := by
  obtain ⟨before, after, rfl, -⟩ := List.lookup_eq_some_iff.1 h
  exact List.mem_append_right before List.mem_cons_self

/-- Where no name repeats, each one has the value that stands beside it. -/
theorem get?_of_mem {r : Record α} (h : (keys r).Nodup) {p : String × α} (hp : p ∈ r) :
    get? r p.1 = some p.2 := by
  obtain ⟨before, after, rfl⟩ := List.append_of_mem hp
  rw [keys, List.map_append, List.map_cons, List.nodup_append] at h
  refine List.lookup_eq_some_iff.2 ⟨before, after, rfl, fun q hq => ?_⟩
  have hne := h.2.2 q.1 (List.mem_map_of_mem hq) p.1 List.mem_cons_self
  exact bne_iff_ne.2 hne.symm

/-! ### The names of a record -/

/-- A write keeps the names and adds the written one at the end when it is new. -/
theorem keys_set (r : Record α) (key : String) (v : α) :
    keys (set r key v) = if key ∈ keys r then keys r else keys r ++ [key] := by
  induction r with
  | nil => simp [set, keys]
  | cons p rest ih =>
    obtain ⟨k, w⟩ := p
    by_cases h : k = key
    · simp [set, keys, h]
    · have h' : ¬ key = k := fun e => h e.symm
      simp only [set, h, if_false]
      simp only [keys, List.map_cons, List.mem_cons, h', false_or] at ih ⊢
      split <;> simp_all

theorem nodup_keys_set {r : Record α} (h : (keys r).Nodup) (key : String) (v : α) :
    (keys (set r key v)).Nodup := by
  rw [keys_set]
  split
  · exact h
  · rename_i hk
    refine List.nodup_append.2 ⟨h, by simp, ?_⟩
    intro a ha b hb
    simp only [List.mem_singleton] at hb
    subst hb
    exact fun e => hk (e ▸ ha)

theorem nodup_keys_merge {r : Record α} (h : (keys r).Nodup) (s : Record α) :
    (keys (merge r s)).Nodup := by
  induction s generalizing r with
  | nil => exact h
  | cons p rest ih => exact ih (nodup_keys_set h p.1 p.2)

theorem mem_keys_set (r : Record α) (key : String) (v : α) (other : String) :
    other ∈ keys (set r key v) ↔ other ∈ keys r ∨ other = key := by
  rw [keys_set]
  split
  · rename_i hkey
    exact ⟨.inl, fun h => h.elim id fun e => e ▸ hkey⟩
  · rw [List.mem_append, List.mem_singleton]

theorem mem_keys_merge (r s : Record α) (key : String) :
    key ∈ keys (merge r s) ↔ key ∈ keys r ∨ key ∈ keys s := by
  induction s generalizing r with
  | nil => simp [merge, keys]
  | cons p rest ih =>
    have hrest : merge r (p :: rest) = merge (set r p.1 p.2) rest := rfl
    rw [hrest, ih, mem_keys_set, or_assoc]
    simp [keys]

/-- What is written counts, and elsewhere what was there. -/
theorem get?_merge {s : Record α} (hs : (keys s).Nodup) (r : Record α) (key : String) :
    get? (merge r s) key = (get? s key).or (get? r key) := by
  induction s generalizing r with
  | nil => rfl
  | cons p rest ih =>
    obtain ⟨k, w⟩ := p
    rw [keys, List.map_cons, List.nodup_cons] at hs
    have hrest : merge r ((k, w) :: rest) = merge (set r k w) rest := rfl
    rw [hrest, ih hs.2, get?_cons]
    by_cases h : k = key
    · subst h
      have hnone : get? rest k = none := (get?_eq_none_iff rest k).2 hs.1
      rw [hnone, if_pos rfl, get?_set_self]
      rfl
    · rw [if_neg h, get?_set_of_ne h]

theorem mem_keys_erase {r : Record α} {key other : String} (h : other ∈ keys (erase r key)) :
    other ∈ keys r := by
  obtain ⟨p, hp, rfl⟩ := List.mem_map.1 h
  exact List.mem_map_of_mem (List.mem_filter.1 hp).1

theorem get?_erase_self (r : Record α) (key : String) : get? (erase r key) key = none := by
  rw [get?_eq_none_iff]
  intro h
  obtain ⟨p, hp, hkey⟩ := List.mem_map.1 h
  exact bne_iff_ne.1 (List.mem_filter.1 hp).2 hkey

theorem get?_erase_of_ne {key other : String} (h : key ≠ other) (r : Record α) :
    get? (erase r key) other = get? r other := by
  induction r with
  | nil => rfl
  | cons p rest ih =>
    obtain ⟨k, w⟩ := p
    rw [erase] at ih ⊢
    by_cases hk : k = key
    · subst hk
      rw [List.filter_cons_of_neg (by simp), ih, get?_cons, if_neg h]
    · rw [List.filter_cons_of_pos (by simpa using hk), get?_cons, get?_cons, ih]

/-- What is written under a new name goes to the end. -/
theorem set_of_not_mem {r : Record α} {key : String} (h : key ∉ keys r) (v : α) :
    set r key v = r ++ [(key, v)] := by
  induction r with
  | nil => rfl
  | cons p rest ih =>
    rw [keys, List.map_cons, List.mem_cons, not_or] at h
    rw [set, if_neg (Ne.symm h.1), ih h.2, List.cons_append]

theorem forall_mem_set {P : α → Prop} {r : Record α} {name : String} {v : α}
    (hr : ∀ p ∈ r, P p.2) (hv : P v) : ∀ p ∈ set r name v, P p.2 := by
  induction r with
  | nil => exact List.forall_mem_cons.2 ⟨hv, nofun⟩
  | cons p rest ih =>
    obtain ⟨k, w⟩ := p
    rw [List.forall_mem_cons] at hr
    rw [set]
    split
    · exact List.forall_mem_cons.2 ⟨hv, hr.2⟩
    · exact List.forall_mem_cons.2 ⟨hr.1, ih hr.2⟩

theorem forall_mem_merge {P : α → Prop} {r s : Record α}
    (hr : ∀ p ∈ r, P p.2) (hs : ∀ p ∈ s, P p.2) : ∀ p ∈ merge r s, P p.2 := by
  induction s generalizing r with
  | nil => exact hr
  | cons p rest ih =>
    rw [List.forall_mem_cons] at hs
    exact ih (forall_mem_set hr hs.1) hs.2

/-- A built record has no values but those that it is built of. -/
theorem forall_mem_ofList {P : α → Prop} {ps : List (String × α)} (h : ∀ p ∈ ps, P p.2) :
    ∀ p ∈ ofList ps, P p.2 := forall_mem_merge nofun h

/-- The names of a built record do not repeat. -/
theorem keys_ofList_nodup (ps : List (String × α)) : (keys (ofList ps)).Nodup :=
  nodup_keys_merge (by simp [keys]) ps

end Record

end PropertyGraph
