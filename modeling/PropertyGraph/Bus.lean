import PropertyGraph.Event

/-!
# Event buses

A bus keeps the listeners of every event in the order in which they subscribed.  A subscription is
known by its token; tokens are counted from one and never given out again.
-/

namespace PropertyGraph

/-- What a subscription is known by. -/
structure Subscription where
  event : Event
  token : Nat
deriving DecidableEq, Repr

/-- A listener with its subscription. -/
structure Bus.Entry (α : Type) where
  subscription : Subscription
  listener : α

/-- The subscriptions to all events. -/
structure Bus (α : Type) where
  entries : List (Bus.Entry α)
  nextToken : Nat

namespace Bus

variable {α : Type}

/-- A bus without listeners. -/
def empty : Bus α := ⟨[], 1⟩

/-- Adds a listener at the end of those of an event. -/
def subscribe (b : Bus α) (event : Event) (listener : α) : Subscription × Bus α :=
  let s : Subscription := ⟨event, b.nextToken⟩
  (s, ⟨b.entries ++ [⟨s, listener⟩], b.nextToken + 1⟩)

/-- Whether a subscription is there. -/
def holds (b : Bus α) (s : Subscription) : Bool := b.entries.any fun e => e.subscription = s

/-- Takes a subscription away; says whether it was there. -/
def unsubscribe (b : Bus α) (s : Subscription) : Bool × Bus α :=
  (b.holds s, { b with entries := b.entries.eraseP fun e => e.subscription = s })

/-- The entries of an event, in order. -/
def entriesOf (b : Bus α) (event : Event) : List (Entry α) :=
  b.entries.filter fun e => e.subscription.event = event

/-- The number of listeners of an event. -/
def count (b : Bus α) (event : Event) : Nat := (b.entriesOf event).length

/-- Takes every subscription away; the tokens go on from where they were. -/
def clear (b : Bus α) : Bus α := { b with entries := [] }

/-- Every token was given out once: tokens grow along the entries and lie below the next one. -/
structure Ordered (b : Bus α) : Prop where
  increasing : (b.entries.map fun e => e.subscription.token).Pairwise (· < ·)
  below : ∀ e ∈ b.entries, e.subscription.token < b.nextToken

theorem ordered_empty : (empty : Bus α).Ordered :=
  ⟨List.Pairwise.nil, fun _ h => absurd h (by simp [empty])⟩

theorem Ordered.subscribe {b : Bus α} (h : b.Ordered) (event : Event) (listener : α) :
    (b.subscribe event listener).2.Ordered := by
  refine ⟨?_, ?_⟩
  · simp only [Bus.subscribe, List.map_append, List.map_cons, List.map_nil, List.pairwise_append]
    refine ⟨h.increasing, by simp, ?_⟩
    intro t ht u hu
    obtain ⟨e, he, rfl⟩ := List.mem_map.1 ht
    simp only [List.mem_singleton] at hu
    exact hu ▸ h.below e he
  · intro e he
    simp only [Bus.subscribe, List.mem_append, List.mem_singleton] at he ⊢
    rcases he with he | rfl
    · exact Nat.lt_succ_of_lt (h.below e he)
    · exact Nat.lt_succ_self _

theorem Ordered.unsubscribe {b : Bus α} (h : b.Ordered) (s : Subscription) :
    (b.unsubscribe s).2.Ordered :=
  ⟨h.increasing.sublist (List.eraseP_sublist.map _),
    fun e he => h.below e (List.mem_of_mem_eraseP he)⟩

theorem Ordered.clear {b : Bus α} (_ : b.Ordered) : b.clear.Ordered :=
  ⟨List.Pairwise.nil, fun _ he => absurd he (by simp [Bus.clear])⟩

end Bus

end PropertyGraph
