import Mathlib.Data.List.Nodup
import Mathlib.Data.List.Pairwise
import PropertyGraph.Bus

/-!
# The course of a bus

What can happen to a bus: somebody subscribes, a subscription is ended, all are ended, or something
is emitted, and then the listeners that the event had are called one after another, and while one of
them is called all of this can happen again.  A *course* is a list of such happenings from one
state to another.  Nothing is assumed of listeners: an emission may be over at any time.

Over a whole course no token is handed out twice and the entries are those that were handed out, in
the order of their tokens (`Course.orderly`); and what was taken away stays away, whatever comes
later (`Course.stays_away`).  `endsJust` says what ending a subscription does.
-/

namespace PropertyGraph.Bus

variable {α : Type}

/-- What is left of an emission: its number and those who are still to be called. -/
structure Emission (α : Type) where
  number : Nat
  left : List (Entry α)

/-- A bus in use. -/
structure State (α : Type) where
  bus : Bus α
  /-- How many emissions were begun. -/
  begun : Nat
  /-- The emissions that are not over, the latest first. -/
  pending : List (Emission α)

/-- A bus that was not used yet. -/
def State.first : State α := ⟨empty, 0, []⟩

/-- Something that happens to a bus, with what comes of it. -/
inductive Happening (α : Type) where
  | subscribed (s : Subscription) (listener : α)
  | unsubscribed (s : Subscription) (held : Bool)
  | cleared
  | emitted (number : Nat) (event : Event)
  | called (number : Nat) (e : Entry α)
  | finished

/-- What happens next. -/
inductive Next (m : State α) : Happening α → State α → Prop
  | subscribe (event : Event) (listener : α) :
    Next m (.subscribed (m.bus.subscribe event listener).1 listener)
      { m with bus := (m.bus.subscribe event listener).2 }
  | unsubscribe (s : Subscription) :
    Next m (.unsubscribed s (m.bus.unsubscribe s).1) { m with bus := (m.bus.unsubscribe s).2 }
  | clear : Next m .cleared { m with bus := m.bus.clear }
  | emit (event : Event) :
    Next m (.emitted m.begun event) { m with
      begun := m.begun + 1
      pending := ⟨m.begun, m.bus.entriesOf event⟩ :: m.pending }
  | call {n : Nat} {e : Entry α} {left : List (Entry α)} {rest : List (Emission α)} :
    m.pending = ⟨n, e :: left⟩ :: rest →
      Next m (.called n e) { m with pending := ⟨n, left⟩ :: rest }
  | finish {x : Emission α} {rest : List (Emission α)} :
    m.pending = x :: rest → Next m .finished { m with pending := rest }

/-- What happens from one state to another. -/
inductive Course : State α → List (Happening α) → State α → Prop
  | nil (m : State α) : Course m [] m
  | cons {m m' m'' : State α} {h : Happening α} {hs : List (Happening α)} :
    Next m h m' → Course m' hs m'' → Course m (h :: hs) m''

namespace Course

theorem single {m m' : State α} {h : Happening α} (hnext : Next m h m') : Course m [h] m' :=
  .cons hnext (.nil m')

theorem trans {m m' m'' : State α} {hs hs' : List (Happening α)} (h : Course m hs m')
    (h' : Course m' hs' m'') : Course m (hs ++ hs') m'' := by
  induction h with
  | nil => exact h'
  | cons hnext _ ih => exact .cons hnext (ih h')

/-- A course can be cut wherever one likes. -/
theorem split {m m'' : State α} {hs hs' : List (Happening α)} (h : Course m (hs ++ hs') m'') :
    ∃ m', Course m hs m' ∧ Course m' hs' m'' := by
  induction hs generalizing m with
  | nil => exact ⟨m, .nil m, h⟩
  | cons x hs ih =>
    cases h with
    | cons hnext hrest =>
      obtain ⟨m', hleft, hright⟩ := ih hrest
      exact ⟨m', .cons hnext hleft, hright⟩

end Course

/-! ### Ending a subscription -/

theorem holds_iff (b : Bus α) (s : Subscription) :
    b.holds s = true ↔ ∃ e ∈ b.entries, e.subscription = s := by
  simp [holds]

theorem mem_entriesOf_iff (b : Bus α) (event : Event) (e : Entry α) :
    e ∈ b.entriesOf event ↔ e ∈ b.entries ∧ e.subscription.event = event := by
  simp [entriesOf]

theorem unsubscribe_of_holds {b : Bus α} {s : Subscription} (h : b.holds s = true) :
    ∃ before e after, b.entries = before ++ e :: after ∧ e.subscription = s ∧
      (b.unsubscribe s).2 = { b with entries := before ++ after } := by
  obtain ⟨e, he, hs⟩ := (holds_iff b s).1 h
  obtain ⟨e', before, after, -, hs', hentries, herased⟩ :=
    List.exists_of_eraseP (p := fun e : Entry α => e.subscription = s) he (by simpa using hs)
  refine ⟨before, e', after, hentries, by simpa using hs', ?_⟩
  rw [unsubscribe, herased]

theorem unsubscribe_of_not_holds {b : Bus α} {s : Subscription} (h : b.holds s = false) :
    (b.unsubscribe s).2 = b := by
  have habsent : ∀ e ∈ b.entries, ¬ e.subscription = s := by simpa [holds] using h
  rw [unsubscribe, List.eraseP_of_forall_not (by simpa using habsent)]

/-- Ending a subscription says whether its token is there under its event.  If it is, just its entry
goes and all others stay as they are; otherwise nothing changes. -/
structure EndsJust (b : Bus α) (s : Subscription) : Prop where
  held_iff : (b.unsubscribe s).1 = true ↔ ∃ e ∈ b.entriesOf s.event, e.subscription.token = s.token
  ended : (b.unsubscribe s).1 = true → ∃ before e after, b.entries = before ++ e :: after ∧
    e.subscription = s ∧ (b.unsubscribe s).2 = { b with entries := before ++ after }
  unheld : (b.unsubscribe s).1 = false → (b.unsubscribe s).2 = b
  others : ∀ event ≠ s.event, (b.unsubscribe s).2.entriesOf event = b.entriesOf event

theorem endsJust (b : Bus α) (s : Subscription) : b.EndsJust s where
  held_iff := by
    refine (holds_iff b s).trans ⟨?_, ?_⟩
    · rintro ⟨e, he, rfl⟩
      exact ⟨e, (mem_entriesOf_iff _ _ _).2 ⟨he, rfl⟩, rfl⟩
    · rintro ⟨e, he, htoken⟩
      obtain ⟨he, hevent⟩ := (mem_entriesOf_iff _ _ _).1 he
      refine ⟨e, he, ?_⟩
      cases hsub : e.subscription
      simp_all
  ended := unsubscribe_of_holds
  unheld := unsubscribe_of_not_holds
  others := by
    intro event hne
    cases hheld : b.holds s with
    | false => rw [unsubscribe_of_not_holds hheld]
    | true =>
      obtain ⟨before, e, after, hentries, rfl, hgone⟩ := unsubscribe_of_holds hheld
      rw [hgone, entriesOf, entriesOf, hentries]
      simp [Ne.symm hne]

/-- No two entries have one token. -/
theorem Ordered.token_ne {b : Bus α} (h : b.Ordered) {before after : List (Entry α)}
    {e : Entry α} (hentries : b.entries = before ++ e :: after) :
    ∀ f ∈ before ++ after, f.subscription.token ≠ e.subscription.token := by
  intro f hf heq
  have hnodup : (b.entries.map fun e => e.subscription.token).Nodup :=
    h.increasing.imp Nat.ne_of_lt
  rw [hentries, List.map_append, List.map_cons, List.nodup_middle, List.nodup_cons,
    ← List.map_append] at hnodup
  exact hnodup.1 (List.mem_map.2 ⟨f, hf, heq⟩)

/-! ### What is so in every state -/

/-- The subscription that is handed out, if one is. -/
def Happening.issued? : Happening α → Option Subscription
  | subscribed s _ => some s
  | _ => none

/-- After what happened so far: every token was handed out once, with the tokens growing, and is
below the next one; the entries are among what was handed out, in the same order; and emissions are
numbered as they begin. -/
structure Kept (past : List (Happening α)) (m : State α) : Prop where
  ordered : m.bus.Ordered
  issued : (past.filterMap Happening.issued?).Pairwise fun s t => s.token < t.token
  below : ∀ s ∈ past.filterMap Happening.issued?, s.token < m.bus.nextToken
  recorded : ∀ e ∈ m.bus.entries, .subscribed e.subscription e.listener ∈ past
  numbered : ∀ x ∈ m.pending, x.number < m.begun

theorem kept_first : Kept [] (State.first : State α) :=
  ⟨ordered_empty, .nil, nofun, nofun, nofun⟩

namespace Kept

variable {past : List (Happening α)} {m m' : State α} {h : Happening α}

/-- What hands out nothing and adds no entry leaves all in order. -/
theorem of_subset (hm : Kept past m) (hissued : h.issued? = none) (hordered : m'.bus.Ordered)
    (hnext : m'.bus.nextToken = m.bus.nextToken) (hentries : m'.bus.entries ⊆ m.bus.entries)
    (hnumbered : ∀ x ∈ m'.pending, x.number < m'.begun) : Kept (past ++ [h]) m' := by
  have hsame : (past ++ [h]).filterMap Happening.issued? = past.filterMap Happening.issued? := by
    simp [hissued]
  refine ⟨hordered, ?_, ?_, ?_, hnumbered⟩
  · rw [hsame]
    exact hm.issued
  · rw [hsame, hnext]
    exact hm.below
  · exact fun e he => List.mem_append_left _ (hm.recorded e (hentries he))

theorem subscribed (hm : Kept past m) (event : Event) (listener : α) :
    Kept (past ++ [.subscribed (m.bus.subscribe event listener).1 listener])
      { m with bus := (m.bus.subscribe event listener).2 } := by
  have hissued :
      (past ++ [Happening.subscribed (m.bus.subscribe event listener).1 listener]).filterMap
        Happening.issued? = past.filterMap Happening.issued? ++ [⟨event, m.bus.nextToken⟩] := by
    simp [Happening.issued?, subscribe]
  refine ⟨hm.ordered.subscribe event listener, ?_, ?_, ?_, hm.numbered⟩
  · rw [hissued, List.pairwise_append]
    refine ⟨hm.issued, List.pairwise_singleton _ _, ?_⟩
    intro s hs t ht
    rw [List.mem_singleton.1 ht]
    exact hm.below s hs
  · rw [hissued]
    intro s hs
    show s.token < m.bus.nextToken + 1
    rcases List.mem_append.1 hs with hs | hs
    · have := hm.below s hs
      omega
    · rw [List.mem_singleton.1 hs]
      exact Nat.lt_succ_self _
  · intro e he
    rcases List.mem_append.1 he with he | he
    · exact List.mem_append_left _ (hm.recorded e he)
    · rw [List.mem_singleton.1 he]
      exact List.mem_append_right _ List.mem_cons_self

theorem next (hm : Kept past m) (hnext : Next m h m') : Kept (past ++ [h]) m' := by
  cases hnext with
  | subscribe event listener => exact hm.subscribed event listener
  | unsubscribe s =>
    exact hm.of_subset rfl (hm.ordered.unsubscribe s) rfl List.eraseP_subset hm.numbered
  | clear => exact hm.of_subset rfl hm.ordered.clear rfl (List.nil_subset _) hm.numbered
  | emit event =>
    refine hm.of_subset rfl hm.ordered rfl (List.Subset.refl _) ?_
    intro x hx
    show x.number < m.begun + 1
    rcases List.mem_cons.1 hx with rfl | hx
    · exact Nat.lt_succ_self m.begun
    · have := hm.numbered x hx
      omega
  | @call n e left rest hpending =>
    have hnumbered := hm.numbered
    rw [hpending, List.forall_mem_cons] at hnumbered
    exact hm.of_subset rfl hm.ordered rfl (List.Subset.refl _) (List.forall_mem_cons.2 hnumbered)
  | finish hpending =>
    refine hm.of_subset rfl hm.ordered rfl (List.Subset.refl _) fun x hx => ?_
    exact hm.numbered x (hpending ▸ List.mem_cons_of_mem _ hx)

theorem course {hs : List (Happening α)} (hm : Kept past m) (h : Course m hs m') :
    Kept (past ++ hs) m' := by
  induction h generalizing past with
  | nil => rwa [List.append_nil]
  | cons hnext _ ih =>
    have hrest := ih (hm.next hnext)
    rwa [List.append_assoc, List.singleton_append] at hrest

end Kept

/-! ### What was taken away -/

/-- A token that was handed out and is there no more; no emission from the one with a given number
on is going to call the listener that had it. -/
structure Gone (number token : Nat) (m : State α) : Prop where
  issued : token < m.bus.nextToken
  absent : ∀ e ∈ m.bus.entries, e.subscription.token ≠ token
  begun : number ≤ m.begun
  uncalled : ∀ x ∈ m.pending, number ≤ x.number → ∀ e ∈ x.left, e.subscription.token ≠ token

/-- Whether something happens that may happen once a token is gone: it is not taken away again,
under whatever event, and no emission from the one with a given number on calls its listener. -/
def Happening.Spares (number token : Nat) : Happening α → Prop
  | unsubscribed s held => s.token = token → held = false
  | emitted n _ => number ≤ n
  | called n e => number ≤ n → e.subscription.token ≠ token
  | _ => True

namespace Gone

variable {number token : Nat} {m m' : State α} {h : Happening α}

/-- Nothing changes for what is gone if no entry is added and no emission is begun. -/
theorem of_subset (hm : Gone number token m) (hnext : m'.bus.nextToken = m.bus.nextToken)
    (hentries : m'.bus.entries ⊆ m.bus.entries) (hbegun : m'.begun = m.begun)
    (huncalled : ∀ x ∈ m'.pending, number ≤ x.number →
      ∀ e ∈ x.left, e.subscription.token ≠ token) : Gone number token m' where
  issued := hnext ▸ hm.issued
  absent := fun e he => hm.absent e (hentries he)
  begun := hbegun ▸ hm.begun
  uncalled := huncalled

theorem subscribed (hm : Gone number token m) (event : Event) (listener : α) :
    Gone number token { m with bus := (m.bus.subscribe event listener).2 } where
  issued := Nat.lt_succ_of_lt hm.issued
  absent := by
    intro e he
    rcases List.mem_append.1 he with he | he
    · exact hm.absent e he
    · -- the new token is not the old one
      rw [List.mem_singleton.1 he]
      rintro rfl
      exact Nat.lt_irrefl _ hm.issued
  begun := hm.begun
  uncalled := hm.uncalled

theorem emitted (hm : Gone number token m) (event : Event) :
    Gone number token { m with
      begun := m.begun + 1
      pending := ⟨m.begun, m.bus.entriesOf event⟩ :: m.pending } where
  issued := hm.issued
  absent := hm.absent
  begun := Nat.le_succ_of_le hm.begun
  uncalled := by
    refine List.forall_mem_cons.2 ⟨fun _ e he => ?_, hm.uncalled⟩
    exact hm.absent e ((mem_entriesOf_iff _ _ _).1 he).1

theorem next (hm : Gone number token m) (hnext : Next m h m') :
    Gone number token m' ∧ h.Spares number token := by
  cases hnext with
  | subscribe event listener => exact ⟨hm.subscribed event listener, trivial⟩
  | unsubscribe t =>
    refine ⟨hm.of_subset rfl List.eraseP_subset rfl hm.uncalled, ?_⟩
    rintro rfl
    show m.bus.holds t = false
    rw [Bool.eq_false_iff, ne_eq, holds_iff]
    rintro ⟨e, he, rfl⟩
    exact hm.absent e he rfl
  | clear => exact ⟨hm.of_subset rfl (List.nil_subset _) rfl hm.uncalled, trivial⟩
  | emit event => exact ⟨hm.emitted event, hm.begun⟩
  | @call n e left rest hpending =>
    have huncalled := hm.uncalled
    rw [hpending, List.forall_mem_cons] at huncalled
    obtain ⟨hfirst, hrest⟩ := huncalled
    refine ⟨hm.of_subset rfl (List.Subset.refl _) rfl (List.forall_mem_cons.2 ⟨?_, hrest⟩), ?_⟩
    · exact fun hn f hf => hfirst hn f (List.mem_cons_of_mem _ hf)
    · exact fun hn => hfirst hn e List.mem_cons_self
  | finish hpending =>
    refine ⟨hm.of_subset rfl (List.Subset.refl _) rfl fun x hx => ?_, trivial⟩
    exact hm.uncalled x (hpending ▸ List.mem_cons_of_mem _ hx)

/-- What is gone stays so in the whole of a course. -/
theorem course {hs : List (Happening α)} (hm : Gone number token m) (h : Course m hs m') :
    Gone number token m' ∧ ∀ h ∈ hs, h.Spares number token := by
  induction h with
  | nil => exact ⟨hm, nofun⟩
  | cons hnext _ ih =>
    obtain ⟨hm', hspares⟩ := hm.next hnext
    obtain ⟨hgone, hrest⟩ := ih hm'
    exact ⟨hgone, List.forall_mem_cons.2 ⟨hspares, hrest⟩⟩

end Gone

/-- Whether something takes a token away, after what happened before: its subscription is ended, or
all are and it is one of those that were handed out. -/
def Happening.Removes (before : List (Happening α)) (token : Nat) : Happening α → Prop
  | unsubscribed s held => s.token = token ∧ held = true
  | cleared => ∃ s ∈ before.filterMap Happening.issued?, s.token = token
  | _ => False

theorem Kept.gone {before : List (Happening α)} {h : Happening α} {m m' : State α}
    {token : Nat} (hm : Kept before m) (hnext : Next m h m') (hremoves : h.Removes before token) :
    Gone m'.begun token m' := by
  have hnumbered : ∀ x ∈ m.pending, m.begun ≤ x.number →
      ∀ e ∈ x.left, e.subscription.token ≠ token := by
    intro x hx hle
    have := hm.numbered x hx
    omega
  cases hnext with
  | unsubscribe t =>
    obtain ⟨rfl, hheld⟩ := hremoves
    obtain ⟨front, e, back, hentries, rfl, hgone⟩ := unsubscribe_of_holds hheld
    have he : e ∈ m.bus.entries := by
      rw [hentries]
      exact List.mem_append_right _ List.mem_cons_self
    refine ⟨hm.ordered.below e he, ?_, Nat.le_refl _, hnumbered⟩
    rw [hgone]
    exact hm.ordered.token_ne hentries
  | clear =>
    obtain ⟨s, hs, rfl⟩ := hremoves
    exact ⟨hm.below s hs, nofun, Nat.le_refl _, hnumbered⟩
  | _ => cases hremoves

/-! ### Courses from the first state -/

/-- After all that happened, tokens were handed out once, in growing order; the entries are some of
those that were handed out, under the events that they were handed out for, and all of them, like
those of each event, are in the order of their tokens. -/
structure Orderly (hs : List (Happening α)) (b : Bus α) : Prop where
  once : ((hs.filterMap Happening.issued?).map (·.token)).Pairwise (· < ·)
  recorded : ∀ e ∈ b.entries, .subscribed e.subscription e.listener ∈ hs
  increasing : (b.entries.map fun e => e.subscription.token).Pairwise (· < ·)
  each : ∀ event, ((b.entriesOf event).map fun e => e.subscription.token).Pairwise (· < ·)

/-- No subscription with a token is ended in the course of some happenings, and no emission that
begins among them calls a listener with it. -/
def Spared (token : Nat) (hs : List (Happening α)) : Prop :=
  (∀ s, .unsubscribed s true ∈ hs → s.token ≠ token) ∧
    ∀ n event, .emitted n event ∈ hs → ∀ e, .called n e ∈ hs → e.subscription.token ≠ token

namespace Course

variable {hs before after : List (Happening α)} {m : State α}

theorem kept (h : Course .first hs m) : Kept hs m := kept_first.course h

theorem orderly (h : Course .first hs m) : Orderly hs m.bus := by
  have hkept := h.kept
  refine ⟨List.pairwise_map.2 hkept.issued, hkept.recorded, hkept.ordered.increasing, ?_⟩
  exact fun event => hkept.ordered.increasing.sublist (List.filter_sublist.map _)

/-- What was taken away stays away. -/
theorem stays_away {h : Happening α} (hcourse : Course .first (before ++ h :: after) m)
    {token : Nat} (hremoves : h.Removes before token) : Spared token after := by
  obtain ⟨m', hbefore, hafter⟩ := hcourse.split
  cases hafter with
  | cons hnext hrest =>
    have hspares := ((hbefore.kept.gone hnext hremoves).course hrest).2
    constructor
    · intro s hs htoken
      exact absurd (hspares _ hs htoken) (by decide)
    · exact fun n event hemitted e hcalled => hspares _ hcalled (hspares _ hemitted)

end Course

end PropertyGraph.Bus
