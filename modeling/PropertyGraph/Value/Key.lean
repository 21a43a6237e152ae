import PropertyGraph.Value

/-!
# Keys

What an identifier is compared by.  Numbers that are equal have one key, whether they are integers,
doubles or truth values.  Lists, records and mappings, and tuples that hold one, can identify
nothing.

A NaN may be given to something as its identifier, but equals no other one: it has no key, and so
nothing is found by a value like it.  Such an identifier is *elusive* (`Value.elusive`): only the
very object that was given finds what it was given to.
-/

namespace PropertyGraph

/-- The normal form of an identifier. -/
inductive Key where
  | null
  | number (n : Int)
  /-- A double that is no integer, by its bit pattern. -/
  | fraction (bits : UInt64)
  | text (s : String)
  | points (ps : List Text.Point)
  | tuple (items : List Key)
  | bytes (data : List UInt8)
  | moment (k : Moment.Key)

namespace Key

mutual

/-- Whether two keys are equal. -/
def eqb : Key → Key → Bool
  | .null, .null => true
  | .number m, .number n => m == n
  | .fraction a, .fraction b => a == b
  | .text s, .text t => s == t
  | .points s, .points t => s == t
  | .tuple xs, .tuple ys => eqbItems xs ys
  | .bytes a, .bytes b => a == b
  | .moment a, .moment b => a = b
  | _, _ => false

/-- Whether two lists of keys are equal. -/
def eqbItems : List Key → List Key → Bool
  | [], [] => true
  | x :: xs, y :: ys => eqb x y && eqbItems xs ys
  | _, _ => false

end

mutual

theorem eqb_iff : ∀ a b : Key, eqb a b = true ↔ a = b
  | .tuple xs, .tuple ys => by rw [eqb, eqbItems_iff xs ys, Key.tuple.injEq]
  | .null, b => by cases b <;> simp [eqb]
  | .number _, b => by cases b <;> simp [eqb]
  | .fraction _, b => by cases b <;> simp [eqb]
  | .text _, b => by cases b <;> simp [eqb]
  | .points _, b => by cases b <;> simp [eqb]
  | .bytes _, b => by cases b <;> simp [eqb]
  | .moment _, b => by cases b <;> simp [eqb]
  | .tuple _, .null => by simp [eqb]
  | .tuple _, .number _ => by simp [eqb]
  | .tuple _, .fraction _ => by simp [eqb]
  | .tuple _, .text _ => by simp [eqb]
  | .tuple _, .points _ => by simp [eqb]
  | .tuple _, .bytes _ => by simp [eqb]
  | .tuple _, .moment _ => by simp [eqb]

theorem eqbItems_iff : ∀ xs ys : List Key, eqbItems xs ys = true ↔ xs = ys
  | [], [] => by simp [eqbItems]
  | [], _ :: _ => by simp [eqbItems]
  | _ :: _, [] => by simp [eqbItems]
  | x :: xs, y :: ys => by
    rw [eqbItems, Bool.and_eq_true, eqb_iff x y, eqbItems_iff xs ys, List.cons.injEq]

end

instance : DecidableEq Key := fun a b => decidable_of_iff _ (eqb_iff a b)

end Key

namespace Value

mutual

/-- The key of a value by which something can be found. -/
def key? : Value → Option Key
  | .null => some .null
  | .bool b => some (.number (if b then 1 else 0))
  | .int n => some (.number n)
  | .float x =>
    if x.isNaN then none
    else match (Exact.ofFloat x).integer? with
      | some n => some (.number n)
      | none => some (.fraction x.toBits)
  | .text s => some (.text s)
  | .points ps => some (.points ps)
  | .tuple xs => (keys? xs).map .tuple
  | .bytes bs => some (.bytes bs)
  | .moment m => some (.moment m.key)
  | .list _ | .record _ | .mapping _ => none

/-- The keys of several values, when all have one. -/
def keys? : List Value → Option (List Key)
  | [] => some []
  | v :: vs =>
    match key? v, keys? vs with
    | some k, some ks => some (k :: ks)
    | _, _ => none

end

mutual

/-- Whether a value may be an identifier. -/
def identifies : Value → Bool
  | .list _ | .record _ | .mapping _ => false
  | .tuple xs => identifyAll xs
  | _ => true

/-- Whether each of several values may be an identifier. -/
def identifyAll : List Value → Bool
  | [] => true
  | v :: vs => identifies v && identifyAll vs

end

/-- Whether two values identify the same thing. -/
def sameKey (a b : Value) : Bool :=
  match a.key?, b.key? with
  | some j, some k => j = k
  | _, _ => false

/-- Whether nothing is found by an identifier, unless it is the very object. -/
def elusive (id : Value) : Bool := !id.sameKey id

mutual

/-- What has a key may be an identifier. -/
theorem identifies_of_key? : ∀ {v : Value} {k : Key}, v.key? = some k → v.identifies = true
  | .tuple xs, k, h => by
    rw [key?] at h
    obtain ⟨ks, hks, _⟩ := Option.map_eq_some_iff.1 h
    rw [identifies]
    exact identifyAll_of_keys? hks
  | .null, _, _ => by simp [identifies]
  | .bool _, _, _ => by simp [identifies]
  | .int _, _, _ => by simp [identifies]
  | .float _, _, _ => by simp [identifies]
  | .text _, _, _ => by simp [identifies]
  | .points _, _, _ => by simp [identifies]
  | .bytes _, _, _ => by simp [identifies]
  | .list _, _, h => by simp [key?] at h
  | .record _, _, h => by simp [key?] at h
  | .mapping _, _, h => by simp [key?] at h
  | .moment _, _, _ => by simp [identifies]

theorem identifyAll_of_keys? : ∀ {vs : List Value} {ks : List Key}, keys? vs = some ks →
    identifyAll vs = true
  | [], _, _ => by rw [identifyAll]
  | v :: vs, ks, h => by
    rw [keys?] at h
    rw [identifyAll, Bool.and_eq_true]
    cases hv : v.key? with
    | none => simp [hv] at h
    | some k =>
      cases hvs : keys? vs with
      | none => simp [hv, hvs] at h
      | some ks => exact ⟨identifies_of_key? hv, identifyAll_of_keys? hvs⟩

end

@[simp] theorem key?_text (s : String) : key? (.text s) = some (.text s) := by simp [key?]

@[simp] theorem key?_null : key? .null = some .null := by simp [key?]

@[simp] theorem sameKey_text_text (s t : String) :
    sameKey (.text s) (.text t) = decide (s = t) := by
  simp [sameKey]

/-- Only a text has the key of a text. -/
theorem eq_text_of_key? {v : Value} {s : String} (h : v.key? = some (.text s)) : v = .text s := by
  cases v with
  | text t => simpa using h
  | float x =>
    rw [key?] at h
    split at h
    · cases h
    · split at h <;> simp at h
  | tuple xs =>
    rw [key?, Option.map_eq_some_iff] at h
    obtain ⟨ks, -, h⟩ := h
    cases h
  | _ => simp [key?] at h

/-- A text identifies the same thing as itself only. -/
theorem sameKey_text_iff (v : Value) (s : String) : sameKey v (.text s) = true ↔ v = .text s := by
  constructor
  · intro h
    rw [sameKey, key?_text] at h
    cases hv : v.key? with
    | none => simp [hv] at h
    | some k =>
      simp only [hv, decide_eq_true_eq] at h
      exact eq_text_of_key? (h ▸ hv)
  · rintro rfl
    simp

theorem sameKey_comm (a b : Value) : sameKey a b = sameKey b a := by
  simp only [sameKey]
  cases a.key? <;> cases b.key? <;> simp [eq_comm]

theorem sameKey_self {v : Value} {k : Key} (h : v.key? = some k) : sameKey v v = true := by
  simp [sameKey, h]

theorem sameKey_trans {a b c : Value} (h₁ : sameKey a b = true) (h₂ : sameKey b c = true) :
    sameKey a c = true := by
  simp only [sameKey] at *
  cases ha : a.key? <;> cases hb : b.key? <;> cases hc : c.key? <;> simp_all

/-- What identifies the same thing identifies no other one. -/
theorem sameKey_eq_false_of_sameKey {a b c : Value} (hab : a.sameKey b = true)
    (hbc : b.sameKey c = false) : a.sameKey c = false := by
  rw [← Bool.not_eq_true]
  intro hac
  have hba : b.sameKey a = true := by rwa [sameKey_comm]
  rw [sameKey_trans hba hac] at hbc
  cases hbc

end Value

end PropertyGraph
