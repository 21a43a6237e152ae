import Mathlib.Data.List.Nodup
import Mathlib.Data.List.Perm.Subperm
import Mathlib.Data.String.Basic
import PropertyGraph.Json.Writer
import PropertyGraph.Proofs.Fact.Legibility
import PropertyGraph.Proofs.Number.Digits

/-!
# The text of a value tells the value

Values are *simple* when they are made of null, truth values, integers and texts by lists and
records.  Two of them have one text just when they are equal up to the order of names at every depth
(`text_eq_iff`).

The text of a simple value is legible before whatever may follow it in a list or a record: its first
character tells what kind of value it is, texts end at a quote that is not escaped, and the text of
a list or a record ends at its bracket.
-/

namespace PropertyGraph.Json

open Digits

/-! ### Characters -/

theorem unitEscape_eq {u : ℕ} (hu : u < 0x10000) :
    unitEscape u = '\\' :: 'u' :: fixed 16 4 u := by
  rw [unitEscape, Text.hexDigits, zeros_append_toDigits (by decide) hu (by decide)]

theorem legible_unitEscape : Legible unitEscape (· < 0x10000) (fun _ => True) := by
  intro u v r s hu hv _ _ h
  rw [unitEscape_eq hu, unitEscape_eq hv] at h
  obtain ⟨hdigits, hrest⟩ := List.append_inj (List.cons.inj (List.cons.inj h).2).2 (by simp)
  exact ⟨(fixed_inj (by decide) (by decide) hu hv).1 hdigits, hrest⟩

/-- A character is no half of a pair. -/
theorem toNat_lt_or (c : Char) : c.toNat < 0xd800 ∨ 0xe000 ≤ c.toNat ∧ c.toNat < 0x110000 := by
  have h : c.toNat < 0xd800 ∨ 0xdfff < c.toNat ∧ c.toNat < 0x110000 := c.valid
  omega

/-- The units of a character tell it, and where they end: the first unit of a pair is no character
by itself. -/
theorem legible_units :
    Legible (fun c => (units c).flatMap unitEscape) (fun _ => True) (fun _ => True) := by
  intro c d r s _ _ _ _ h
  have hc := toNat_lt_or c
  have hd := toNat_lt_or d
  simp only [units] at h
  split_ifs at h
  all_goals
    simp only [List.flatMap_cons, List.flatMap_nil, List.append_nil, List.append_assoc] at h
    obtain ⟨hfirst, hrest⟩ := legible_unitEscape (by omega) (by omega) trivial trivial h
  · exact ⟨Char.toNat_inj.1 hfirst, hrest⟩
  · omega
  · omega
  · obtain ⟨hsecond, hrs⟩ := legible_unitEscape (by omega) (by omega) trivial trivial hrest
    exact ⟨Char.toNat_inj.1 (by omega), hrs⟩

theorem head_units (c : Char) : ∃ cs, (units c).flatMap unitEscape = '\\' :: 'u' :: cs := by
  obtain ⟨u, us, hunits⟩ : ∃ u us, units c = u :: us := by
    simp only [units]
    split_ifs
    · exact ⟨_, _, rfl⟩
    · exact ⟨_, _, rfl⟩
  rw [hunits, List.flatMap_cons, unitEscape, List.cons_append, List.cons_append]
  exact ⟨_, rfl⟩

/-- The characters that a letter escapes, with the letter. -/
def letters : List (Char × Char) :=
  [(Text.doubleQuote, Text.doubleQuote), ('\\', '\\'), ('\n', 'n'), ('\r', 'r'), ('\t', 't'),
    ('\x0c', 'f'), ('\x08', 'b')]

theorem mem_letters_of_escapeLetter? {c e : Char} (h : escapeLetter? c = some e) :
    (c, e) ∈ letters := by
  unfold escapeLetter? at h
  split_ifs at h with hself hline hreturn htab hpage hback
  · rw [Bool.or_eq_true, beq_iff_eq, beq_iff_eq] at hself
    cases h
    rcases hself with rfl | rfl <;> decide
  all_goals
    cases h
    simp only [beq_iff_eq] at *
    subst c
    decide

/-- A character stands for itself, or is escaped by a letter or by its units. -/
theorem escaped_cases (c : Char) :
    (∃ e, (c, e) ∈ letters ∧ escaped c = ['\\', e]) ∨
      (escaped c = [c] ∧ c ≠ '\\' ∧ c ≠ Text.doubleQuote) ∨
      escaped c = (units c).flatMap unitEscape := by
  unfold escaped
  cases h : escapeLetter? c with
  | some e => exact .inl ⟨e, mem_letters_of_escapeLetter? h, rfl⟩
  | none =>
    have hne : c ≠ '\\' ∧ c ≠ Text.doubleQuote := by
      constructor <;> (rintro rfl; cases h)
    dsimp only
    split
    · exact .inr (.inl ⟨rfl, hne⟩)
    · exact .inr (.inr rfl)

theorem legible_escaped : Legible escaped (fun _ => True) (fun _ => True) := by
  have hapart : ∀ p ∈ letters, p.2 ≠ 'u' ∧ ∀ q ∈ letters, p.2 = q.2 → p.1 = q.1 := by decide
  intro c d r s _ _ _ _ h
  obtain ⟨cs, hcs⟩ := head_units c
  obtain ⟨ds, hds⟩ := head_units d
  rcases escaped_cases c with ⟨e, he, hc⟩ | ⟨hc, hslash, -⟩ | hc <;>
    rcases escaped_cases d with ⟨e', he', hd⟩ | ⟨hd, hslash', -⟩ | hd
  · rw [hc, hd] at h
    obtain ⟨hletter, hrs⟩ := List.cons.inj (List.cons.inj h).2
    exact ⟨(hapart _ he).2 _ he' hletter, hrs⟩
  · rw [hc, hd] at h
    exact absurd (List.cons.inj h).1.symm hslash'
  · rw [hc, hd, hds] at h
    exact absurd (List.cons.inj (List.cons.inj h).2).1 (hapart _ he).1
  · rw [hc, hd] at h
    exact absurd (List.cons.inj h).1 hslash
  · rw [hc, hd] at h
    exact List.cons.inj h
  · rw [hc, hd, hds] at h
    exact absurd (List.cons.inj h).1 hslash
  · rw [hc, hcs, hd] at h
    exact absurd (List.cons.inj (List.cons.inj h).2).1.symm (hapart _ he').1
  · rw [hc, hcs, hd] at h
    exact absurd (List.cons.inj h).1.symm hslash'
  · rw [hc, hd] at h
    exact legible_units trivial trivial trivial trivial h

theorem escaped_append_ne_quote (c : Char) (r s : List Char) :
    escaped c ++ r ≠ Text.doubleQuote :: s := by
  obtain ⟨cs, hcs⟩ := head_units c
  have hslash : '\\' ≠ Text.doubleQuote := by decide
  intro h
  rcases escaped_cases c with ⟨e, -, hc⟩ | ⟨hc, -, hquote⟩ | hc
  · rw [hc] at h
    exact hslash (List.cons.inj h).1
  · rw [hc] at h
    exact hquote (List.cons.inj h).1
  · rw [hc, hcs] at h
    exact hslash (List.cons.inj h).1

theorem legible_quoted : Legible quoted (fun _ => True) (fun _ => True) := by
  intro a b r s _ _ _ _ h
  obtain ⟨hab, hrs⟩ := legible_escaped.flatMap escaped_append_ne_quote (fun _ _ => trivial)
    (fun _ _ => trivial) trivial trivial (List.cons.inj h).2
  exact ⟨String.toList_inj.1 hab, hrs⟩

/-! ### Integers -/

/-- What may follow a value in a list or a record. -/
def Ended (r : List Char) : Prop := ∃ c ∈ r.head?, c = ',' ∨ c = ']' ∨ c = '\x7d'

/-- An integer is written by digits, with a sign in front or without. -/
theorem exists_digits (n : ℤ) :
    ∃ k, (toString n).toList = Nat.toDigits 10 k ∨
      (toString n).toList = '-' :: Nat.toDigits 10 k := by
  rw [toList_toString]
  split
  · exact ⟨n.toNat, .inl rfl⟩
  · exact ⟨(-n).toNat, .inr rfl⟩

theorem sign_or_digit_of_mem {n : ℤ} {c : Char} (hc : c ∈ (toString n).toList) :
    c = '-' ∨ c.isDigit = true := by
  obtain ⟨k, h | h⟩ := exists_digits n
  · exact .inr (isDigit_of_mem_toDigits (h ▸ hc))
  · rw [h, List.mem_cons] at hc
    exact hc.imp_right isDigit_of_mem_toDigits

theorem exists_cons_int (n : ℤ) : ∃ c cs, (toString n).toList = c :: cs := by
  obtain ⟨k, h | h⟩ := exists_digits n
  · exact List.exists_cons_of_ne_nil (h ▸ Nat.toDigits_ne_nil)
  · exact ⟨_, _, h⟩

theorem legible_int : Legible (fun n : ℤ => (toString n).toList) (fun _ => True) Ended := by
  have hends : ∀ {r}, Ended r → ∃ c ∈ r.head?, ¬ (c = '-' ∨ c.isDigit = true) := by
    rintro r ⟨c, hc, rfl | rfl | rfl⟩ <;> exact ⟨_, hc, by decide⟩
  have hplain : ∀ n : ℤ, ∀ c ∈ (toString n).toList, ¬ ¬ (c = '-' ∨ c.isDigit = true) :=
    fun n c hc => not_not_intro (sign_or_digit_of_mem hc)
  intro m n r s _ _ hr hs h
  obtain ⟨hmn, hrs⟩ := legible_upTo _ (hplain m) (hplain n) (hends hr) (hends hs) h
  exact ⟨toString_injective (String.toList_inj.1 hmn), hrs⟩

end PropertyGraph.Json

namespace PropertyGraph

/-! ### Simple values -/

namespace Value

/-- Values that are made of null, truth values, integers and texts, and no record repeats a name. -/
inductive Simple : Value → Prop
  | null : Simple .null
  | bool (b : Bool) : Simple (.bool b)
  | int (n : ℤ) : Simple (.int n)
  | text (s : String) : Simple (.text s)
  | list {vs : List Value} : (∀ v ∈ vs, Simple v) → Simple (.list vs)
  | record {fs : Record Value} :
    (Record.keys fs).Nodup → (∀ p ∈ fs, Simple p.2) → Simple (.record fs)

/-- Equal up to the order of names at every depth. -/
inductive Reordered : Value → Value → Prop
  | refl (v : Value) : Reordered v v
  | list {vs ws : List Value} : vs.length = ws.length →
    (∀ (i : ℕ) (v w : Value), vs[i]? = some v → ws[i]? = some w → Reordered v w) →
      Reordered (.list vs) (.list ws)
  | record {fs gs : Record Value} : (Record.keys fs).Perm (Record.keys gs) →
    (∀ name v w, (name, v) ∈ fs → (name, w) ∈ gs → Reordered v w) →
      Reordered (.record fs) (.record gs)

theorem Reordered.of_perm {fs gs : Record Value} (h : fs.Perm gs)
    (hnames : (Record.keys fs).Nodup) : (Value.record fs).Reordered (.record gs) := by
  refine .record (h.map _) fun name v w hv hw => ?_
  have hsame : v = w :=
    congrArg Prod.snd (List.inj_on_of_nodup_map hnames hv (h.mem_iff.2 hw) rfl)
  exact hsame ▸ .refl v

/-- What kind of value this is; the truth values are two kinds. -/
def kind : Value → ℕ
  | .null => 0
  | .bool true => 1
  | .bool false => 2
  | .int _ => 3
  | .text _ => 4
  | .list _ => 5
  | .record _ => 6
  | _ => 7

end Value

namespace Json

open Value

/-- What kind of value has a text that begins with this. -/
def kindOf (c : Char) : ℕ :=
  if c = 'n' then 0
  else if c = 't' then 1
  else if c = 'f' then 2
  else if c = '-' ∨ c.isDigit then 3
  else if c = Text.doubleQuote then 4
  else if c = '[' then 5
  else if c = '\x7b' then 6
  else 7

theorem kindOf_of_mem_int {n : ℤ} {c : Char} (hc : c ∈ (toString n).toList) : kindOf c = 3 := by
  have hdigit := sign_or_digit_of_mem hc
  have hne : ∀ d, ¬ (d = '-' ∨ d.isDigit = true) → c ≠ d := fun d hd h => hd (h ▸ hdigit)
  rw [kindOf, if_neg (hne 'n' (by decide)), if_neg (hne 't' (by decide)),
    if_neg (hne 'f' (by decide)), if_pos hdigit]

/-- The first character tells the kind. -/
theorem head_text {v : Value} (hv : v.Simple) : ∃ c cs, text v = c :: cs ∧ kindOf c = v.kind := by
  cases hv with
  | null => exact ⟨'n', _, rfl, by decide⟩
  | bool b => cases b <;> exact ⟨_, _, rfl, by decide⟩
  | int n =>
    obtain ⟨c, cs, hcs⟩ := exists_cons_int n
    exact ⟨c, cs, hcs, kindOf_of_mem_int (hcs ▸ List.mem_cons_self)⟩
  | text s => exact ⟨Text.doubleQuote, _, rfl, (by decide : kindOf Text.doubleQuote = 4)⟩
  | list => exact ⟨'[', _, rfl, (by decide : kindOf '[' = 5)⟩
  | record => exact ⟨'\x7b', _, rfl, (by decide : kindOf '\x7b' = 6)⟩

theorem kind_eq_of_text {v w : Value} (hv : v.Simple) (hw : w.Simple) {r s : List Char}
    (h : text v ++ r = text w ++ s) : v.kind = w.kind := by
  obtain ⟨c, cs, hcs, hkind⟩ := head_text hv
  obtain ⟨d, ds, hds, hkind'⟩ := head_text hw
  rw [hcs, hds] at h
  rw [← hkind, ← hkind', (List.cons.inj h).1]

/-- Simple values of one kind are the same, or made of parts in the same way. -/
theorem cases_of_kind {v w : Value} (hv : v.Simple) (hw : w.Simple) (h : v.kind = w.kind) :
    v = w ∨ (∃ m n, v = .int m ∧ w = .int n) ∨ (∃ s t, v = .text s ∧ w = .text t) ∨
      (∃ vs ws, v = .list vs ∧ w = .list ws) ∨ ∃ fs gs, v = .record fs ∧ w = .record gs := by
  rcases hv with _ | ⟨_ | _⟩ | m | a | @⟨vs, -⟩ | @⟨fs, -, -⟩ <;>
    rcases hw with _ | ⟨_ | _⟩ | n | b | @⟨ws, -⟩ | @⟨gs, -, -⟩
  any_goals (cases h; done)
  · exact .inl rfl
  · exact .inl rfl
  · exact .inl rfl
  · exact .inr (.inl ⟨m, n, rfl, rfl⟩)
  · exact .inr (.inr (.inl ⟨a, b, rfl, rfl⟩))
  · exact .inr (.inr (.inr (.inl ⟨vs, ws, rfl, rfl⟩)))
  · exact .inr (.inr (.inr (.inr ⟨fs, gs, rfl, rfl⟩)))

/-! ### Lists and records -/

section Parts

variable {P : List Char → Prop} (h : Legible id P Ended)

include h

theorem legible_items (hP : ∀ cs, P cs → ∃ c ds, cs = c :: ds ∧ c ≠ ']') :
    Legible (fun parts : List (List Char) => joined (parts.map id) ++ [']'])
      (fun parts => ∀ cs ∈ parts, P cs) (fun _ => True) := by
  refine h.intercalate_or_nil (fun r => ⟨',', rfl, .inl rfl⟩)
    (fun r _ => ⟨']', rfl, .inr (.inl rfl)⟩) (fun r s _ heq => ?_) (fun cs hcs r s _ heq => ?_)
  · exact absurd (List.cons.inj heq).1 (by decide)
  · obtain ⟨c, ds, rfl, hc⟩ := hP cs hcs
    exact hc (List.cons.inj heq).1

theorem legible_field : Legible field (fun p => P p.2) Ended := by
  rintro ⟨name, cs⟩ ⟨name', ds⟩ r s hcs hds hr hs heq
  simp only [field, List.append_assoc] at heq
  obtain ⟨rfl, hafter⟩ := legible_quoted trivial trivial trivial trivial heq
  obtain ⟨rfl, hrs⟩ := h hcs hds hr hs (List.append_cancel_left hafter)
  exact ⟨rfl, hrs⟩

theorem legible_fields :
    Legible (fun ps : List (String × List Char) => joined (ps.map field) ++ ['\x7d'])
      (fun ps => ∀ p ∈ ps, P p.2) (fun _ => True) := by
  refine (legible_field h).intercalate_or_nil (fun r => ⟨',', rfl, .inl rfl⟩)
    (fun r _ => ⟨'\x7d', rfl, .inr (.inr rfl)⟩) (fun r s _ heq => ?_) (fun p _ r s _ heq => ?_)
  · exact absurd (List.cons.inj heq).1 (by decide)
  · exact absurd (List.cons.inj heq).1 (by decide)

/-- The texts of its items are read off the text of a list. -/
theorem map_text_eq_of_list (hP : ∀ cs, P cs → ∃ c ds, cs = c :: ds ∧ c ≠ ']')
    {vs ws : List Value} (hvs : ∀ v ∈ vs, P (text v)) (hws : ∀ w ∈ ws, P (text w))
    {r s : List Char} (heq : text (.list vs) ++ r = text (.list ws) ++ s) :
    vs.map text = ws.map text ∧ r = s := by
  rw [text, text, texts_eq_map, texts_eq_map, ← List.map_id (vs.map text),
    ← List.map_id (ws.map text)] at heq
  exact legible_items h hP (List.forall_mem_map.2 hvs) (List.forall_mem_map.2 hws) trivial trivial
    (List.cons.inj heq).2

/-- The names and the texts of its fields are read off the text of a record. -/
theorem sorted_eq_of_record {fs gs : Record Value} (hfs : ∀ p ∈ fs, P (text p.2))
    (hgs : ∀ p ∈ gs, P (text p.2)) {r s : List Char}
    (heq : text (.record fs) ++ r = text (.record gs) ++ s) :
    sorted (fieldTexts fs) = sorted (fieldTexts gs) ∧ r = s := by
  have hall : ∀ {fs : Record Value}, (∀ p ∈ fs, P (text p.2)) →
      ∀ p ∈ sorted (fieldTexts fs), P p.2 := by
    intro fs hfs p hp
    rw [(sorted_perm _).mem_iff, fieldTexts_eq_map] at hp
    obtain ⟨q, hq, rfl⟩ := List.mem_map.1 hp
    exact hfs q hq
  rw [text, text] at heq
  exact legible_fields h (hall hfs) (hall hgs) trivial trivial (List.cons.inj heq).2

end Parts

/-! ### Values -/

/-- The texts of simple values below a size. -/
def Written (bound : ℕ) (cs : List Char) : Prop :=
  ∃ v, v.Simple ∧ sizeOf v < bound ∧ text v = cs

theorem head_written {bound : ℕ} {cs : List Char} (h : Written bound cs) :
    ∃ c ds, cs = c :: ds ∧ c ≠ ']' := by
  obtain ⟨v, hv, -, rfl⟩ := h
  obtain ⟨c, ds, hcs, hkind⟩ := head_text hv
  refine ⟨c, ds, hcs, ?_⟩
  rintro rfl
  have hother : v.kind = 7 := hkind.symm.trans (by decide)
  cases hv with
  | bool b => cases b <;> cases hother
  | _ => cases hother

theorem written_of_mem_list {bound : ℕ} {vs : List Value} (hvs : (Value.list vs).Simple)
    (hlt : sizeOf (Value.list vs) < bound + 1) : ∀ v ∈ vs, Written bound (text v) := by
  intro v hv
  cases hvs with
  | list hsimple =>
    have hsize := List.sizeOf_lt_of_mem hv
    rw [Value.list.sizeOf_spec] at hlt
    exact ⟨v, hsimple v hv, by omega, rfl⟩

theorem written_of_mem_record {bound : ℕ} {fs : Record Value} (hfs : (Value.record fs).Simple)
    (hlt : sizeOf (Value.record fs) < bound + 1) : ∀ p ∈ fs, Written bound (text p.2) := by
  rintro ⟨name, v⟩ hp
  cases hfs with
  | record _ hsimple =>
    have hsize := List.sizeOf_lt_of_mem hp
    rw [Prod.mk.sizeOf_spec] at hsize
    rw [Value.record.sizeOf_spec] at hlt
    exact ⟨v, hsimple _ hp, by omega, rfl⟩

/-- Simple values with one text are the same, or lists of parts with one text each, or records of
fields with one text each. -/
theorem parts_of_text {bound : ℕ} (h : Legible id (Written bound) Ended) {v w : Value}
    (hv : v.Simple) (hw : w.Simple) (hlt : sizeOf v < bound + 1) (hlt' : sizeOf w < bound + 1)
    {r s : List Char} (hr : Ended r) (hs : Ended s) (heq : text v ++ r = text w ++ s) :
    r = s ∧ (v = w ∨
      (∃ vs ws, v = .list vs ∧ w = .list ws ∧ vs.map text = ws.map text) ∨
      ∃ fs gs, v = .record fs ∧ w = .record gs ∧
        sorted (fieldTexts fs) = sorted (fieldTexts gs)) := by
  obtain rfl | ⟨m, n, rfl, rfl⟩ | ⟨a, b, rfl, rfl⟩ | ⟨vs, ws, rfl, rfl⟩ | ⟨fs, gs, rfl, rfl⟩ :=
    cases_of_kind hv hw (kind_eq_of_text hv hw heq)
  · exact ⟨List.append_cancel_left heq, .inl rfl⟩
  · obtain ⟨rfl, hrs⟩ := legible_int trivial trivial hr hs heq
    exact ⟨hrs, .inl rfl⟩
  · obtain ⟨rfl, hrs⟩ := legible_quoted trivial trivial trivial trivial heq
    exact ⟨hrs, .inl rfl⟩
  · obtain ⟨htexts, hrs⟩ := map_text_eq_of_list h (fun _ => head_written)
      (written_of_mem_list hv hlt) (written_of_mem_list hw hlt') heq
    exact ⟨hrs, .inr (.inl ⟨vs, ws, rfl, rfl, htexts⟩)⟩
  · obtain ⟨htexts, hrs⟩ := sorted_eq_of_record h (written_of_mem_record hv hlt)
      (written_of_mem_record hw hlt') heq
    exact ⟨hrs, .inr (.inr ⟨fs, gs, rfl, rfl, htexts⟩)⟩

theorem legible_written (bound : ℕ) : Legible id (Written bound) Ended := by
  induction bound with
  | zero =>
    rintro cs ds r s ⟨v, -, hlt, -⟩
    exact absurd hlt (Nat.not_lt_zero _)
  | succ bound ih =>
    rintro cs ds r s ⟨v, hv, hlt, rfl⟩ ⟨w, hw, hlt', rfl⟩ hr hs heq
    obtain ⟨hrs, rfl | ⟨vs, ws, rfl, rfl, htexts⟩ | ⟨fs, gs, rfl, rfl, htexts⟩⟩ :=
      parts_of_text ih hv hw hlt hlt' hr hs heq
    · exact ⟨rfl, hrs⟩
    · rw [text, text, texts_eq_map, texts_eq_map, htexts]
      exact ⟨rfl, hrs⟩
    · rw [text, text, htexts]
      exact ⟨rfl, hrs⟩

/-! ### The order of names -/

theorem mem_fieldTexts_iff {fs : Record Value} {p : String × List Char} :
    p ∈ fieldTexts fs ↔ ∃ v, (p.1, v) ∈ fs ∧ text v = p.2 := by
  obtain ⟨name, cs⟩ := p
  rw [fieldTexts_eq_map, List.mem_map]
  constructor
  · rintro ⟨⟨name, v⟩, hv, heq⟩
    cases heq
    exact ⟨v, hv, rfl⟩
  · rintro ⟨v, hv, rfl⟩
    exact ⟨(name, v), hv, rfl⟩

theorem keys_fieldTexts (fs : Record Value) : (fieldTexts fs).map (·.1) = Record.keys fs := by
  rw [fieldTexts_eq_map, List.map_map]
  rfl

/-- Where no name is repeated, sorting leaves no trace of the order. -/
theorem sorted_eq_of_perm {α : Type} {fs gs : List (String × α)} (h : fs.Perm gs)
    (hnames : (fs.map (·.1)).Nodup) : sorted fs = sorted gs := by
  have hsorted : ∀ hs : List (String × α), (sorted hs).Pairwise fun p q => p.1 ≤ q.1 := by
    intro hs
    have hpairwise : (sorted hs).Pairwise fun p q => decide (p.1 ≤ q.1) = true :=
      List.pairwise_mergeSort (fun p q r => by simpa using le_trans)
        (fun p q => by simpa using le_total p.1 q.1) hs
    exact hpairwise.imp of_decide_eq_true
  refine List.Perm.eq_of_pairwise ?_ (hsorted fs) (hsorted gs)
    ((sorted_perm fs).trans (h.trans (sorted_perm gs).symm))
  intro p q hp hq hpq hqp
  rw [(sorted_perm fs).mem_iff] at hp
  rw [(sorted_perm gs).mem_iff, ← h.mem_iff] at hq
  exact List.inj_on_of_nodup_map hnames hp hq (le_antisymm hpq hqp)

/-- Values that differ in the order of names only have one text. -/
theorem text_eq_of_reordered {v w : Value} (h : v.Reordered w) (hv : v.Simple) (hw : w.Simple) :
    text v = text w := by
  induction h with
  | refl => rfl
  | @list vs ws hlen hall ih =>
    cases hv with
    | list hvs =>
    cases hw with
    | list hws =>
    have htexts : vs.map text = ws.map text := by
      refine List.ext_getElem (by simpa using hlen) fun i hi hi' => ?_
      rw [List.getElem_map, List.getElem_map]
      rw [List.length_map] at hi hi'
      exact ih i _ _ (List.getElem?_eq_getElem hi) (List.getElem?_eq_getElem hi')
        (hvs _ (List.getElem_mem hi)) (hws _ (List.getElem_mem hi'))
    rw [text, text, texts_eq_map, texts_eq_map, htexts]
  | @record fs gs hnames hall ih =>
    cases hv with
    | record hfs hvs =>
    cases hw with
    | record hgs hws =>
    have hsub : fieldTexts fs ⊆ fieldTexts gs := by
      rintro ⟨name, cs⟩ hp
      obtain ⟨v, hv, rfl⟩ := mem_fieldTexts_iff.1 hp
      obtain ⟨⟨name, w⟩, hw, rfl⟩ := List.mem_map.1
        (hnames.mem_iff.1 (List.mem_map_of_mem hv : name ∈ Record.keys fs))
      exact mem_fieldTexts_iff.2 ⟨w, hw, (ih name v w hv hw (hvs _ hv) (hws _ hw)).symm⟩
    have honce : ((fieldTexts fs).map (·.1)).Nodup := keys_fieldTexts fs ▸ hfs
    have hlen : (fieldTexts gs).length ≤ (fieldTexts fs).length := by
      have hkeys := hnames.length_eq
      rw [← keys_fieldTexts, ← keys_fieldTexts, List.length_map, List.length_map] at hkeys
      exact hkeys.ge
    have hperm := (List.subperm_of_subset honce.of_map hsub).perm_of_length_le hlen
    rw [text, text, sorted_eq_of_perm hperm honce]

/-- Simple values with one text differ in the order of names only. -/
theorem reordered_of_text_eq {bound : ℕ} {v w : Value} (hv : v.Simple) (hw : w.Simple)
    (hlt : sizeOf v < bound) (h : text v = text w) : v.Reordered w := by
  induction bound generalizing v w with
  | zero => exact absurd hlt (Nat.not_lt_zero _)
  | succ bound ih =>
    have hcomma : Ended [','] := ⟨',', rfl, .inl rfl⟩
    obtain ⟨-, rfl | ⟨vs, ws, rfl, rfl, htexts⟩ | ⟨fs, gs, rfl, rfl, htexts⟩⟩ :=
      parts_of_text (legible_written (max (sizeOf v) (sizeOf w))) hv hw (by omega) (by omega) hcomma
        hcomma (congrArg (· ++ [',']) h)
    · exact .refl v
    · cases hv with
      | list hvs =>
      cases hw with
      | list hws =>
      refine .list (by simpa using congrArg List.length htexts) fun i v w hv hw => ?_
      have hsame : (vs.map text)[i]? = (ws.map text)[i]? := by rw [htexts]
      rw [List.getElem?_map, List.getElem?_map, hv, hw] at hsame
      have hsize := List.sizeOf_lt_of_mem (List.mem_of_getElem? hv)
      rw [Value.list.sizeOf_spec] at hlt
      exact ih (hvs v (List.mem_of_getElem? hv)) (hws w (List.mem_of_getElem? hw)) (by omega)
        (Option.some.inj hsame)
    · cases hv with
      | record hfs hvs =>
      cases hw with
      | record hgs hws =>
      have hperm : (fieldTexts fs).Perm (fieldTexts gs) :=
        (sorted_perm _).symm.trans (htexts ▸ sorted_perm _)
      refine .record ?_ fun name v w hv hw => ?_
      · rw [← keys_fieldTexts, ← keys_fieldTexts]
        exact hperm.map _
      · have hmem : (name, text v) ∈ fieldTexts gs :=
          hperm.mem_iff.1 (mem_fieldTexts_iff.2 ⟨v, hv, rfl⟩)
        obtain ⟨w', hw', htext⟩ := mem_fieldTexts_iff.1 hmem
        have hsame : w = w' := congrArg Prod.snd (List.inj_on_of_nodup_map hgs hw hw' rfl)
        have hsize := List.sizeOf_lt_of_mem hv
        rw [Prod.mk.sizeOf_spec] at hsize
        rw [Value.record.sizeOf_spec] at hlt
        exact ih (hvs _ hv) (hws _ hw) (by omega) (hsame ▸ htext.symm)

/-- Simple values have one text just when they are equal up to the order of names. -/
theorem text_eq_iff {v w : Value} (hv : v.Simple) (hw : w.Simple) :
    text v = text w ↔ v.Reordered w :=
  ⟨reordered_of_text_eq hv hw (Nat.lt_succ_self _), fun h => text_eq_of_reordered h hv hw⟩

/-! ### Simple values are writable -/

theorem allWritable_iff (vs : List Value) :
    allWritable vs = true ↔ ∀ v ∈ vs, writable v = true := by
  induction vs with
  | nil => simp [allWritable]
  | cons v rest ih => rw [allWritable, Bool.and_eq_true, ih, List.forall_mem_cons]

theorem fieldsWritable_iff (fs : Record Value) :
    fieldsWritable fs = true ↔ ∀ p ∈ fs, writable p.2 = true := by
  induction fs with
  | nil => simp [fieldsWritable]
  | cons p rest ih => rw [fieldsWritable, Bool.and_eq_true, ih, List.forall_mem_cons]

theorem writable_of_simple {v : Value} (hv : v.Simple) : writable v = true := by
  induction hv with
  | null | bool | int | text => rfl
  | list _ ih => exact (allWritable_iff _).2 ih
  | record _ _ ih => exact (fieldsWritable_iff _).2 ih

end Json

end PropertyGraph
