import Mathlib.Data.List.Forall2
import PropertyGraph.Embedding.Hashing
import PropertyGraph.Proofs.Number.Digits

/-!
# The cache of an encoder

The cache does not show.  Texts have different keys as long as no two of the digests fall together
(`eq_of_key_eq`), so that what is found under the key of a text is the vector of that text: the
cache is *faithful* to the texts that are asked for.  A call on a faithful cache gives the vectors
that the texts have afresh and leaves a faithful cache (`transparent_encode`), and so call after
call gives what its texts have afresh (`answers_of_faithful`).

A key leaves out whether vectors are scaled, and it need not tell: a cache belongs to one encoder.
-/

namespace PropertyGraph

/-! ### Digests -/

namespace Digest

theorem hexDigits_eq_fixed (w : UInt32) : Text.hexDigits 8 w.toNat = Digits.fixed 16 8 w.toNat :=
  Digits.zeros_append_toDigits (by decide) w.toNat_lt (by decide)

/-- Words are told apart by their digits. -/
theorem hexDigits_inj {w x : UInt32} :
    Text.hexDigits 8 w.toNat = Text.hexDigits 8 x.toNat ↔ w = x := by
  have hw : w.toNat < 16 ^ 8 := w.toNat_lt
  have hx : x.toNat < 16 ^ 8 := x.toNat_lt
  rw [hexDigits_eq_fixed, hexDigits_eq_fixed, Digits.fixed_inj (by decide) (by decide) hw hx,
    UInt32.toNat_inj]

/-- So are lists of words that are as long as each other. -/
theorem flatMap_hexDigits_inj {ws xs : List UInt32} (hlen : ws.length = xs.length)
    (h : ws.flatMap (fun w => Text.hexDigits 8 w.toNat) =
      xs.flatMap fun x => Text.hexDigits 8 x.toNat) : ws = xs := by
  induction ws generalizing xs with
  | nil => exact (List.eq_nil_of_length_eq_zero hlen.symm).symm
  | cons w ws ih =>
    cases xs with
    | nil => cases hlen
    | cons x xs =>
      rw [List.flatMap_cons, List.flatMap_cons] at h
      have hdigits : (Text.hexDigits 8 w.toNat).length = (Text.hexDigits 8 x.toNat).length := by
        rw [hexDigits_eq_fixed, hexDigits_eq_fixed, Digits.length_fixed, Digits.length_fixed]
      obtain ⟨hfirst, hrest⟩ := List.append_inj h hdigits
      rw [hexDigits_inj.1 hfirst, ih (Nat.succ.inj hlen) hrest]

theorem text_injective : Function.Injective text := by
  intro s t h
  have hwords : s.words = t.words := flatMap_hexDigits_inj rfl (String.ofList_injective h)
  obtain ⟨a, b, c, d, e, f, g, h⟩ := s
  simpa only [words, List.cons.injEq, and_true, ← Digest.mk.injEq] using hwords

/-- No two of some byte strings have one digest. -/
def Apart (inputs : List (List UInt8)) : Prop :=
  ∀ a ∈ inputs, ∀ b ∈ inputs, ofBytes a = ofBytes b → a = b

end Digest

namespace HashingEncoder

variable {e : HashingEncoder}

/-! ### Keys -/

/-- For one encoder, what is digested tells the text. -/
theorem bytes_injective (e : HashingEncoder) : Function.Injective e.bytes := by
  intro s t h
  have hpayload : e.payload s = e.payload t :=
    String.toByteArray_inj.1 (ByteArray.ext (Array.toList_inj.1 h))
  exact (String.append_right_inj _).1 hpayload

theorem vector?_eq_ok_iff {s : String} {v : Vector Float e.dimension} :
    e.vector? s = .ok v ↔ e.checkRoom = .ok () ∧ e.vector s = v := by
  rw [vector?]
  cases h : e.checkRoom <;> simp [bind, Except.bind, pure, Except.pure]

theorem tooLong_le_of_longInteger (h : Value.longInteger e.dimension = true) :
    tooLong ≤ e.dimension := by
  have hdigits : Nat.pow 10 Numeral.maxDigits ≤ e.dimension := of_decide_eq_true h
  have hmore : ∀ n, 19 ≤ n → Nat.pow 10 19 ≤ Nat.pow 10 n :=
    fun n hn => Nat.pow_le_pow_right (by decide) hn
  have hlong : tooLong ≤ Nat.pow 10 19 := by decide
  exact Nat.le_trans hlong (Nat.le_trans (hmore Numeral.maxDigits (by decide)) hdigits)

/-- Where a text has a vector, its key can be written. -/
theorem key_of_vector? {s : String} {v : Vector Float e.dimension} (h : e.vector? s = .ok v) :
    e.key s = .ok (Digest.ofBytes (e.bytes s)).text := by
  rw [key, if_neg]
  intro hlong
  have hroom := (vector?_eq_ok_iff.1 h).1
  rw [checkRoom, if_pos (tooLong_le_of_longInteger hlong)] at hroom
  cases hroom

theorem key_eq_ok {s k : String} (h : e.key s = .ok k) :
    (Digest.ofBytes (e.bytes s)).text = k := by
  rw [key] at h
  split at h
  · cases h
  · exact Except.ok.inj h

/-- Where digests are apart, texts with one key are one text. -/
theorem eq_of_key_eq {used : List String} (hapart : Digest.Apart (used.map e.bytes))
    {s t k : String} (hs : s ∈ used) (ht : t ∈ used) (hks : e.key s = .ok k)
    (hkt : e.key t = .ok k) : s = t := by
  have hdigest : Digest.ofBytes (e.bytes s) = Digest.ofBytes (e.bytes t) :=
    Digest.text_injective ((key_eq_ok hks).trans (key_eq_ok hkt).symm)
  exact e.bytes_injective
    (hapart _ (List.mem_map_of_mem hs) _ (List.mem_map_of_mem ht) hdigest)

/-! ### Faithful caches -/

/-- A vector is the one that a text has on an encoder without a cache, with as many components as
the dimension says. -/
def Afresh (e : HashingEncoder) (s : String) (v : Vector Float e.dimension) : Prop :=
  e.vector? s = .ok v ∧ v.toList.length = e.dimension

theorem afresh_iff {s : String} {v : Vector Float e.dimension} :
    e.Afresh s v ↔ e.vector? s = .ok v :=
  and_iff_left v.length_toList

theorem rightUnique_afresh (e : HashingEncoder) : Relator.RightUnique e.Afresh := by
  intro s v w hv hw
  rw [afresh_iff] at hv hw
  exact Except.ok.inj (hv.symm.trans hw)

/-- What is found under the key of a text that is used is the vector of that text. -/
def Faithful (used : List String) (cache : Cache e) : Prop :=
  ∀ s ∈ used, ∀ k v, e.key s = .ok k → Record.get? cache k = some v → e.Afresh s v

theorem faithful_nil (used : List String) : Faithful used ([] : Cache e) := by
  intro s _ k v _ hget
  cases hget

/-! ### Answers -/

/-- A call for one text is a call for several. -/
theorem answer_eq (cache : Cache e) (c : Call) : e.answer cache c = e.encode cache c.asked := by
  cases c with
  | texts ss => rfl
  | text s =>
    rw [answer, Call.asked, encode]
    cases e.encodeOne cache s <;> rfl

section Answers

variable {used : List String} (hapart : Digest.Apart (used.map e.bytes)) {cache : Cache e}

include hapart

theorem Faithful.set (h : Faithful used cache) {s k : String} (hs : s ∈ used)
    (hk : e.key s = .ok k) {v : Vector Float e.dimension} (hv : e.Afresh s v) :
    Faithful used (Record.set cache k v) := by
  intro t ht k' w hk' hget
  by_cases hkk' : k = k'
  · subst hkk'
    rw [Record.get?_set_self, Option.some.injEq] at hget
    rw [← hget, eq_of_key_eq hapart ht hs hk' hk]
    exact hv
  · rw [Record.get?_set_of_ne hkk'] at hget
    exact h t ht k' w hk' hget

/-- A text gets the vector that it has afresh, or it has none and gets none. -/
theorem encodeOne_of_faithful (h : Faithful used cache) {s : String} (hs : s ∈ used) :
    (∃ v cache', e.encodeOne cache s = .ok (v, cache') ∧ e.Afresh s v ∧ Faithful used cache') ∨
      (∃ f, e.encodeOne cache s = .error f) ∧ ∀ v, ¬ e.Afresh s v := by
  cases hk : e.key s with
  | error f =>
    refine .inr ⟨⟨f, by rw [encodeOne, hk]; rfl⟩, fun v hv => ?_⟩
    have hkey := key_of_vector? (afresh_iff.1 hv)
    rw [hk] at hkey
    cases hkey
  | ok k =>
    cases hget : Record.get? cache k with
    | some v =>
      refine .inl ⟨v, cache, ?_, h s hs k v hk hget, h⟩
      simp [encodeOne, hk, hget, bind, Except.bind, pure, Except.pure]
    | none =>
      cases hv : e.vector? s with
      | ok v =>
        have hfresh := afresh_iff.2 hv
        refine .inl ⟨v, Record.set cache k v, ?_, hfresh, h.set hapart hs hk hfresh⟩
        simp [encodeOne, hk, hget, hv, bind, Except.bind, pure, Except.pure]
      | error f =>
        refine .inr ⟨⟨f, ?_⟩, fun w hw => ?_⟩
        · simp [encodeOne, hk, hget, hv, bind, Except.bind]
        · cases hv.symm.trans (afresh_iff.1 hw)

/-- What comes of a call for some texts: the vectors that they have afresh, and a faithful cache; or
a failure, where one of them has no vector. -/
inductive Transparent (used texts : List String) :
    Result (List (Vector Float e.dimension) × Cache e) → Prop
  | given {vs : List (Vector Float e.dimension)} {cache : Cache e} :
      List.Forall₂ e.Afresh texts vs → Faithful used cache →
        Transparent used texts (.ok (vs, cache))
  | failed {f : Failure} : (∀ vs, ¬ List.Forall₂ e.Afresh texts vs) →
      Transparent used texts (.error f)

theorem transparent_encode (h : Faithful used cache) {texts : List String} (htexts : texts ⊆ used) :
    Transparent used texts (e.encode cache texts) := by
  induction texts generalizing cache with
  | nil => exact .given .nil h
  | cons s rest ih =>
    rw [List.cons_subset] at htexts
    rcases encodeOne_of_faithful hapart h htexts.1 with
      ⟨v, cache₁, hone, hv, h₁⟩ | ⟨⟨f, hone⟩, hnone⟩
    · have hrest := ih h₁ htexts.2
      have hstep : e.encode cache (s :: rest) =
          e.encode cache₁ rest >>= fun r => .ok (v :: r.1, r.2) := by
        rw [encode, hone]
        rfl
      rw [hstep]
      generalize e.encode cache₁ rest = r at hrest ⊢
      cases hrest with
      | given hvs h₂ => exact .given (.cons hv hvs) h₂
      | failed hnone =>
        refine .failed fun vs hvs => ?_
        cases hvs with
        | cons _ hvs => exact hnone _ hvs
    · rw [encode, hone]
      refine .failed fun vs hvs => ?_
      cases hvs with
      | cons hv _ => exact hnone _ hv

theorem answers_of_faithful (h : Faithful used cache) {calls : List Call}
    (hcalls : ∀ c ∈ calls, c.asked ⊆ used) :
    List.Forall₂ (fun c r => ∀ vs, r = .ok vs ↔ List.Forall₂ e.Afresh c.asked vs) calls
      (e.answers cache calls) := by
  induction calls generalizing cache with
  | nil => exact .nil
  | cons c rest ih =>
    rw [List.forall_mem_cons] at hcalls
    have hanswer := transparent_encode hapart h hcalls.1
    rw [← answer_eq] at hanswer
    rw [answers]
    generalize e.answer cache c = r at hanswer ⊢
    cases hanswer with
    | @given vs cache₁ hvs h₁ =>
      refine .cons (fun ws => ?_) (ih h₁ hcalls.2)
      rw [Except.ok.injEq]
      exact ⟨fun hws => hws ▸ hvs, fun hws => e.rightUnique_afresh.forall₂ hvs hws⟩
    | failed hnone => exact .cons (fun ws => iff_of_false nofun (hnone ws)) (ih h hcalls.2)

end Answers

/-! ### Every history of calls -/

/-- Whatever an encoder is asked for, one call after another: where no two digests of what it is
asked for fall together, a call gives the vector of each text in order, as it is worked out afresh,
and it fails only where a text has no vector. -/
theorem answers_afresh (e : HashingEncoder) (calls : List Call)
    (hapart : Digest.Apart ((calls.flatMap Call.asked).map e.bytes)) :
    List.Forall₂ (fun c r => ∀ vs, r = .ok vs ↔ List.Forall₂ e.Afresh c.asked vs) calls
      (e.answers [] calls) := by
  refine answers_of_faithful hapart (faithful_nil _) fun c hc s hs => ?_
  exact List.mem_flatMap.2 ⟨c, hc, hs⟩

/-- An encoder of three components. -/
def small : HashingEncoder := { dimension := 3, normalize := true, dimension_pos := by decide }

/-- Texts of the same characters, asked for again in one call and in another. -/
def repeatedCalls : List Call := [.texts ["ab", "ba", "ab"], .text "ba", .texts []]

theorem answers_of_repeatedCalls :
    Digest.Apart ((repeatedCalls.flatMap Call.asked).map small.bytes) ∧
      small.answers [] repeatedCalls =
        [.ok [small.vector "ab", small.vector "ba", small.vector "ab"], .ok [small.vector "ba"],
          .ok []] := by
  have hapart : Digest.Apart ((repeatedCalls.flatMap Call.asked).map small.bytes) := by
    unfold Digest.Apart
    decide +kernel
  have hfresh : ∀ c : Call, List.Forall₂ small.Afresh c.asked (c.asked.map small.vector) := by
    intro c
    rw [List.forall₂_map_right_iff, List.forall₂_same]
    exact fun s _ => afresh_iff.2 (vector?_eq_ok_iff.2 ⟨rfl, rfl⟩)
  have hanswers : List.Forall₂ (fun c r => .ok (c.asked.map small.vector) = r) repeatedCalls
      (small.answers [] repeatedCalls) :=
    (answers_afresh small repeatedCalls hapart).imp fun c r hr => ((hr _).2 (hfresh c)).symm
  rw [← List.forall₂_map_left_iff, List.forall₂_eq_eq_eq] at hanswers
  exact ⟨hapart, hanswers.symm⟩

end HashingEncoder

end PropertyGraph
