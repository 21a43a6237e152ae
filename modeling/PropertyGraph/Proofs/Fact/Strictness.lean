import Mathlib.Data.List.Find
import PropertyGraph.Fact
import PropertyGraph.Proofs.Value.Equality

/-!
# Where equality is strict

Queries compare values by `Value.same`, which is strict about truth values at the top: there `true`
is never the same as 1.  Below the top it is not: `{"a": true}` is the same as `{"a": 1}`, whether a
field is compared with a literal, with its members, or with what a variable is bound to already
(`query_mistaken`).  Values that are the same have their truth values at the same places only if no
number below the top of either equals a truth value (`isBool_at_of_same`).
-/

namespace PropertyGraph

namespace Value

/-- A place right below the top of a value. -/
inductive Place where
  | item (i : Nat)
  | name (k : String)
  | entry (k : Value) (proper : k.proper = true)

/-- What stands at a place right below the top. -/
def part? : Value → Place → Option Value
  | .list xs, .item i | .tuple xs, .item i => xs[i]?
  | .record fs, .name k => fs.lookup k
  | .mapping fs, .entry k _ => (fs.find? fun p => k.eqv p.1).map (·.2)
  | _, _ => none

/-- What stands where a path of places leads. -/
def at? (v : Value) : List Place → Option Value
  | [] => some v
  | p :: rest => (v.part? p).bind fun w => at? w rest

theorem proper_part {v w : Value} (hv : v.proper = true) {p : Place} (h : v.part? p = some w) :
    w.proper = true := by
  cases v with
  | list xs | tuple xs =>
    cases p with
    | item i =>
      exact proper_of_mem_items? hv rfl w (List.mem_of_getElem? h)
    | _ => cases h
  | record fs =>
    cases p with
    | name k =>
      have hfs : properFields fs = true := by simpa only [proper] using hv
      exact ((properFields_iff fs).1 hfs).1 _ (Record.mem_of_get? h)
    | _ => cases h
  | mapping fs =>
    cases p with
    | entry k hk =>
      have hfs : properMapping fs = true := by simpa only [proper] using hv
      obtain ⟨q, hq, rfl⟩ := Option.map_eq_some_iff.1 h
      exact (((properMapping_iff fs).1 hfs).1 q (List.mem_of_find?_eq_some hq)).2
    | _ => cases h
  | _ => cases p <;> cases h

/-! ### Equality place by place -/

theorem getElem?_of_eqvItems {vs ws : List Value} (h : eqvItems vs ws = true) {i : Nat} {v : Value}
    (hv : vs[i]? = some v) : ∃ w, ws[i]? = some w ∧ v.eqv w = true := by
  rw [eqvItems_iff] at h
  induction h generalizing i with
  | nil => cases hv
  | cons hhead _ ih =>
    cases i with
    | zero => exact ⟨_, rfl, Option.some.inj hv ▸ hhead⟩
    | succ i => exact ih hv

theorem find?_of_eqvMapping {fs gs : List (Value × Value)} (hf : properMapping fs = true)
    (hg : properMapping gs = true) (h : eqvMapping fs gs = true) {k : Value}
    (hk : k.proper = true) {p : Value × Value} (hp : fs.find? (fun p => k.eqv p.1) = some p) :
    ∃ q, gs.find? (fun q => k.eqv q.1) = some q ∧ p.2.eqv q.2 = true := by
  have hmem := List.mem_of_find?_eq_some hp
  have hkp : k.eqv p.1 = true := by simpa using List.find?_some hp
  have hp₁ := (((properMapping_iff fs).1 hf).1 p hmem).1
  obtain ⟨q, hq, heq⟩ := (eqvMapping_iff fs gs).1 h p hmem
  refine ⟨q, ?_, heq⟩
  -- `k` and the key of `p` are equal, so they equal the same keys of the other mapping
  rw [← hq]
  refine List.find?_congr fun r hr => Bool.eq_iff_iff.2 ?_
  have hr₁ := (((properMapping_iff gs).1 hg).1 r hr).1
  exact ⟨lawful_proper.trans hp₁ hk hr₁ (lawful_proper.symm hk hp₁ hkp),
    lawful_proper.trans hk hp₁ hr₁ hkp⟩

/-- Equal values have equal parts at the same places. -/
theorem part?_of_eqv {a b : Value} (ha : a.proper = true) (hb : b.proper = true)
    (h : a.eqv b = true) {p : Place} {x : Value} (hx : a.part? p = some x) :
    ∃ y, b.part? p = some y ∧ x.eqv y = true := by
  cases p with
  | item i =>
    cases a with
    | list xs =>
      cases b with
      | list ys => exact getElem?_of_eqvItems (by simpa only [eqv] using h) hx
      | _ => simp only [eqv, Bool.false_eq_true] at h
    | tuple xs =>
      cases b with
      | tuple ys => exact getElem?_of_eqvItems (by simpa only [eqv] using h) hx
      | _ => simp only [eqv, Bool.false_eq_true] at h
    | _ => cases hx
  | name k =>
    cases a with
    | record fs =>
      cases b with
      | record gs =>
        simp only [eqv, Bool.and_eq_true] at h
        exact (eqvFields_iff fs gs).1 h.2 _ (Record.mem_of_get? hx)
      | _ => simp only [eqv, Bool.false_eq_true] at h
    | _ => cases hx
  | entry k hk =>
    cases a with
    | mapping fs =>
      cases b with
      | mapping gs =>
        simp only [eqv, Bool.and_eq_true] at h
        simp only [proper] at ha hb
        obtain ⟨p, hp, rfl⟩ := Option.map_eq_some_iff.1 hx
        obtain ⟨q, hq, heq⟩ := find?_of_eqvMapping ha hb h.2 hk hp
        exact ⟨q.2, Option.map_eq_some_iff.2 ⟨q, hq, rfl⟩, heq⟩
      | _ => simp only [eqv, Bool.false_eq_true] at h
    | _ => cases hx

/-- Equal values have equal values wherever a path leads. -/
theorem at?_of_eqv {a b : Value} (ha : a.proper = true) (hb : b.proper = true)
    (h : a.eqv b = true) {path : List Place} {x : Value} (hx : a.at? path = some x) :
    x.proper = true ∧ ∃ y, b.at? path = some y ∧ y.proper = true ∧ x.eqv y = true := by
  induction path generalizing a b with
  | nil =>
    obtain rfl := Option.some.inj hx
    exact ⟨ha, b, rfl, hb, h⟩
  | cons p rest ih =>
    obtain ⟨v, hv, hx⟩ := Option.bind_eq_some_iff.1 hx
    obtain ⟨w, hw, hvw⟩ := part?_of_eqv ha hb h hv
    obtain ⟨hproper, y, hy, hrest⟩ := ih (proper_part ha hv) (proper_part hb hw) hvw hx
    exact ⟨hproper, y, Option.bind_eq_some_iff.2 ⟨w, hw, hy⟩, hrest⟩

/-! ### Truth values -/

/-- Below the top of a value, only truth values equal truth values. -/
def Unambiguous (v : Value) : Prop :=
  ∀ p rest x t, v.at? (p :: rest) = some x → x.eqv (.bool t) = true → x.isBool = true

theorem exists_of_isBool {v : Value} (h : v.isBool = true) : ∃ t, v = .bool t := by
  cases v with
  | bool t => exact ⟨t, rfl⟩
  | _ => cases h

/-- Where a value has a truth value, one that is the same has one too. -/
theorem isBool_of_same {a b : Value} (ha : a.proper = true) (hb : b.proper = true)
    (h : a.same b = true) (hclear : b.Unambiguous) {path : List Place} {x : Value}
    (hx : a.at? path = some x) (hbool : x.isBool = true) :
    ∃ y, b.at? path = some y ∧ y.isBool = true := by
  rw [same, Bool.and_eq_true, beq_iff_eq] at h
  cases path with
  | nil =>
    obtain rfl := Option.some.inj hx
    exact ⟨b, rfl, h.1 ▸ hbool⟩
  | cons p rest =>
    obtain ⟨hproper, y, hy, hproper', hxy⟩ := at?_of_eqv ha hb h.2 hx
    obtain ⟨t, rfl⟩ := exists_of_isBool hbool
    exact ⟨y, hy, hclear p rest y t hy (lawful_proper.symm hproper hproper' hxy)⟩

/-- Values that are the same have truth values at the same places, if below the top of them only
truth values equal truth values. -/
theorem isBool_at_of_same {a b : Value} (ha : a.proper = true) (hb : b.proper = true)
    (h : a.same b = true) (hclear : a.Unambiguous) (hclear' : b.Unambiguous) (path : List Place) :
    (a.at? path).map isBool = (b.at? path).map isBool := by
  have hback := same_symm ha hb h
  rcases hx : a.at? path with _ | x
  · rcases hy : b.at? path with _ | y
    · rfl
    · have hfound := at?_of_eqv hb ha (Bool.and_eq_true_iff.1 hback).2 hy
      obtain ⟨-, x, hx', -⟩ := hfound
      rw [hx] at hx'
      cases hx'
  · have hfound := at?_of_eqv ha hb (Bool.and_eq_true_iff.1 h).2 hx
    obtain ⟨-, y, hy, -⟩ := hfound
    rw [hy, Option.map_some, Option.map_some, Option.some.injEq, Bool.eq_iff_iff]
    constructor
    · intro hbool
      obtain ⟨y', hy', hbool'⟩ := isBool_of_same ha hb h hclear' hx hbool
      rw [hy] at hy'
      exact Option.some.inj hy' ▸ hbool'
    · intro hbool
      obtain ⟨x', hx', hbool'⟩ := isBool_of_same hb ha hback hclear hy hbool
      rw [hx] at hx'
      exact Option.some.inj hx' ▸ hbool'

theorem unambiguous_record {fs : List (String × Value)}
    (h : ∀ p ∈ fs, p.2.isBool = true ∨ ∃ n, p.2 = .int n ∧ 1 < n) :
    (Value.record fs).Unambiguous := by
  intro p rest x t hx heq
  obtain ⟨v, hv, hrest⟩ := Option.bind_eq_some_iff.1 hx
  cases p with
  | name k =>
    have hleaf : x = v := by
      cases rest with
      | nil => exact (Option.some.inj hrest).symm
      | cons q _ =>
        rcases h _ (Record.mem_of_get? hv) with hbool | ⟨n, hn, -⟩
        · obtain ⟨t, rfl⟩ := exists_of_isBool hbool
          cases hrest
        · obtain rfl : v = .int n := hn
          cases hrest
    subst hleaf
    rcases h _ (Record.mem_of_get? hv) with hbool | ⟨n, hn, hlt⟩
    · exact hbool
    · obtain rfl : x = .int n := hn
      have hcount : n = if t then 1 else 0 := by simpa [eqv, sameNumber, number?] using heq
      split at hcount <;> omega
  | _ => cases hv

/-- The order of names does not matter, and the truth values stand at the same name. -/
theorem isBool_at_of_same_reordered :
    (Value.record [("n", .int 7), ("on", .bool true)]).same
        (.record [("on", .bool true), ("n", .int 7)]) = true ∧
      ∀ path, ((Value.record [("n", .int 7), ("on", .bool true)]).at? path).map isBool =
        ((Value.record [("on", .bool true), ("n", .int 7)]).at? path).map isBool :=
  ⟨by decide, isBool_at_of_same (by decide) (by decide) (by decide)
    (unambiguous_record (by simp [isBool])) (unambiguous_record (by simp [isBool]))⟩

end Value

/-- Below the top, each of the three ways to compare takes `true` for 1: a field with a literal, a
member with a literal, and one field with another by way of a variable. -/
theorem query_mistaken :
    let on : Value := .record [("a", .bool true)]
    let one : Value := .record [("a", .int 1)]
    let base : FactBase := ⟨[[(.text "k", on), (.text "l", one), (.text "m", .list [on])]]⟩
    base.query [("k", .literal one)] = [[]] ∧
      base.query [("m", .literal one)] = [[]] ∧
      base.query [("k", .variable "X"), ("l", .variable "X")] = [[("X", on)]] ∧
      (on.at? [.name "a"]).map Value.isBool = some true ∧
      (one.at? [.name "a"]).map Value.isBool = some false :=
  ⟨rfl, rfl, rfl, rfl, rfl⟩

end PropertyGraph
