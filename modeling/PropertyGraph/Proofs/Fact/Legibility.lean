import Mathlib.Data.List.Basic
import PropertyGraph.Fact.Statement

/-!
# Legible writing

A way of writing is *legible* when what is written can be told from anything that may follow it
(`Legible`).  Texts between quotes are, whatever follows, for no character of a text can be mistaken
for its end; what is written plainly is before a mark that it does not hold.  A list of things that
are legible before what separates them, and before what closes the list, is legible itself
(`Legible.intercalate`).

This gives the arguments of a statement, statements, and whole texts one after another: statements
that are plain can be read off the text that they are written as (`Statement.eq_of_render_eq`).
-/

namespace PropertyGraph

open Text (Point)

/-! ### Legible writing -/

section Legible

variable {α β : Type} {write : α → List β} {P : α → Prop} {Follows Ends : List β → Prop}

/-- Things of the kind `P` can be told from one another, and from what follows them, wherever
something follows that may. -/
def Legible (write : α → List β) (P : α → Prop) (Follows : List β → Prop) : Prop :=
  ∀ ⦃a b : α⦄ ⦃r s : List β⦄, P a → P b → Follows r → Follows s →
    write a ++ r = write b ++ s → a = b ∧ r = s

/-- What holds no mark is legible where a mark follows. -/
theorem legible_upTo (Mark : β → Prop) :
    Legible id (fun cs => ∀ c ∈ cs, ¬ Mark c) (fun r => ∃ c ∈ r.head?, Mark c) := by
  intro cs ds r s hcs hds hr hs h
  induction cs generalizing ds with
  | nil =>
    obtain ⟨c, hc, hmark⟩ := hr
    cases ds with
    | nil => exact ⟨rfl, h⟩
    | cons d ds =>
      obtain rfl : r = d :: (ds ++ s) := h
      exact absurd (Option.some.inj hc ▸ hmark) (hds d List.mem_cons_self)
  | cons c cs ih =>
    rw [List.forall_mem_cons] at hcs
    cases ds with
    | nil =>
      obtain ⟨d, hd, hmark⟩ := hs
      obtain rfl : c :: (cs ++ r) = s := h
      exact absurd (Option.some.inj hd ▸ hmark) hcs.1
    | cons d ds =>
      rw [List.forall_mem_cons] at hds
      obtain ⟨rfl, htail⟩ : c = d ∧ cs ++ r = ds ++ s := List.cons.inj h
      obtain ⟨rfl, hrest⟩ := ih hcs.2 hds.2 htail
      exact ⟨rfl, hrest⟩

/-- Things that are legible before a separator, and before what closes them, are so as a list, if
the two cannot be mistaken for each other. -/
theorem Legible.intercalate (h : Legible write P Follows) {separator close : List β}
    (hseparator : ∀ r, Follows (separator ++ r)) (hclose : ∀ r, Ends r → Follows (close ++ r))
    (hne : ∀ r s, Ends s → separator ++ r ≠ close ++ s) :
    Legible (fun as => separator.intercalate (as.map write) ++ close)
      (fun as => as ≠ [] ∧ ∀ a ∈ as, P a) Ends := by
  rintro as bs r s ⟨has, hP⟩ ⟨hbs, hQ⟩ hr hs heq
  obtain ⟨a, as, rfl⟩ := List.exists_cons_of_ne_nil has
  obtain ⟨b, bs, rfl⟩ := List.exists_cons_of_ne_nil hbs
  -- after the first thing stands a separator or what closes the list, and something else differs
  induction as generalizing a b bs with
  | nil =>
    cases bs with
    | nil =>
      simp only [List.map_cons, List.map_nil, List.intercalate_singleton, List.append_assoc] at heq
      obtain ⟨rfl, heq⟩ := h (hP a List.mem_cons_self) (hQ b List.mem_cons_self) (hclose r hr)
        (hclose s hs) heq
      exact ⟨rfl, List.append_cancel_left (List.append_cancel_left heq)⟩
    | cons b' bs =>
      simp only [List.map_cons, List.map_nil, List.intercalate_singleton,
        List.intercalate_cons_cons, List.append_assoc] at heq
      obtain ⟨-, heq⟩ := h (hP a List.mem_cons_self) (hQ b List.mem_cons_self) (hclose r hr)
        (hseparator _) heq
      exact absurd heq.symm (hne _ _ hr)
  | cons a' as ih =>
    cases bs with
    | nil =>
      simp only [List.map_cons, List.map_nil, List.intercalate_singleton,
        List.intercalate_cons_cons, List.append_assoc] at heq
      obtain ⟨-, heq⟩ := h (hP a List.mem_cons_self) (hQ b List.mem_cons_self) (hseparator _)
        (hclose s hs) heq
      exact absurd heq (hne _ _ hs)
    | cons b' bs =>
      simp only [List.map_cons, List.intercalate_cons_cons, List.append_assoc] at heq
      obtain ⟨rfl, heq⟩ := h (hP a List.mem_cons_self) (hQ b List.mem_cons_self) (hseparator _)
        (hseparator _) heq
      obtain ⟨hrest, hrs⟩ := ih a' (List.cons_ne_nil _ _)
        (fun x hx => hP x (List.mem_cons_of_mem _ hx)) b' bs (List.cons_ne_nil _ _)
        (fun x hx => hQ x (List.mem_cons_of_mem _ hx))
        (by
          simp only [List.map_cons, List.append_assoc]
          exact List.append_cancel_left (List.append_cancel_left heq))
      exact ⟨congrArg (a :: ·) hrest, hrs⟩

/-- Where none of the things can be mistaken for what closes the list, the list may be empty. -/
theorem Legible.intercalate_or_nil (h : Legible write P Follows) {separator close : List β}
    (hseparator : ∀ r, Follows (separator ++ r)) (hclose : ∀ r, Ends r → Follows (close ++ r))
    (hne : ∀ r s, Ends s → separator ++ r ≠ close ++ s)
    (hnil : ∀ a, P a → ∀ r s, Ends s → write a ++ r ≠ close ++ s) :
    Legible (fun as : List α => separator.intercalate (as.map write) ++ close)
      (fun as => ∀ a ∈ as, P a) Ends := by
  have hopens : ∀ (a : α) (as : List α) (r : List β),
      ∃ t, separator.intercalate ((a :: as).map write) ++ close ++ r = write a ++ t := by
    intro a as r
    cases as with
    | nil => exact ⟨close ++ r, by simp [List.append_assoc]⟩
    | cons b bs =>
      refine ⟨separator ++ (separator.intercalate ((b :: bs).map write) ++ close ++ r), ?_⟩
      simp [List.intercalate_cons_cons, List.append_assoc]
  intro as bs r s has hbs hr hs heq
  cases as with
  | nil =>
    cases bs with
    | nil => exact ⟨rfl, List.append_cancel_left heq⟩
    | cons b bs =>
      obtain ⟨t, ht⟩ := hopens b bs s
      exact absurd (ht.symm.trans heq.symm) (hnil b (hbs b List.mem_cons_self) t r hr)
  | cons a as =>
    cases bs with
    | nil =>
      obtain ⟨t, ht⟩ := hopens a as r
      exact absurd (ht.symm.trans heq) (hnil a (has a List.mem_cons_self) t s hs)
    | cons b bs =>
      exact h.intercalate hseparator hclose hne ⟨List.cons_ne_nil _ _, has⟩
        ⟨List.cons_ne_nil _ _, hbs⟩ hr hs heq

/-- Things that are legible whatever follows are so one after another before what closes them, if
none of them begins with that. -/
theorem Legible.flatMap (h : Legible write P fun _ => True) {close : β}
    (hclose : ∀ a r s, write a ++ r ≠ close :: s) :
    Legible (fun as : List α => as.flatMap write ++ [close]) (fun as => ∀ a ∈ as, P a)
      fun _ => True := by
  intro as bs r s has hbs _ _ heq
  simp only [List.append_assoc, List.singleton_append] at heq
  induction as generalizing bs with
  | nil =>
    cases bs with
    | nil => exact ⟨rfl, (List.cons.inj heq).2⟩
    | cons b bs =>
      rw [List.flatMap_cons, List.append_assoc] at heq
      exact absurd heq.symm (hclose b _ r)
  | cons a as ih =>
    rw [List.forall_mem_cons] at has
    rw [List.flatMap_cons, List.append_assoc] at heq
    cases bs with
    | nil => exact absurd heq (hclose a _ s)
    | cons b bs =>
      rw [List.forall_mem_cons] at hbs
      rw [List.flatMap_cons, List.append_assoc] at heq
      obtain ⟨rfl, htail⟩ := h has.1 hbs.1 trivial trivial heq
      obtain ⟨rfl, hrs⟩ := ih has.2 hbs.2 htail
      exact ⟨rfl, hrs⟩

end Legible

/-! ### Arguments -/

namespace Argument

theorem legible_escaped : Legible escaped (fun _ => True) (fun _ => True) := by
  intro p q r s _ _ _ _ h
  unfold escaped at h
  split at h <;> split at h
  · simpa using h
  · rename_i hq
    exact absurd (.inl (List.cons.inj h).1.symm) hq
  · rename_i hp _
    exact absurd (.inl (List.cons.inj h).1) hp
  · simpa using h

theorem escaped_append_ne_quote (p : Point) (r s : List Point) :
    escaped p ++ r ≠ .char Text.doubleQuote :: s := by
  unfold escaped
  split
  · simp [Text.doubleQuote]
  · rename_i hp
    exact fun h => hp (.inr (List.cons.inj h).1)

/-- In a text a quote is escaped, and so is what escapes it, so that the first quote that is not
ends the text. -/
theorem legible_text :
    Legible (fun ps : List Point => ps.flatMap escaped ++ [Point.char Text.doubleQuote])
      (fun ps => ∀ p ∈ ps, True) (fun _ => True) :=
  legible_escaped.flatMap escaped_append_ne_quote

/-- Whether a point begins a text, or may stand after an argument. -/
def Mark (p : Point) : Prop := p = .char Text.doubleQuote ∨ p = .char ',' ∨ p = .char ')'

/-- What may stand after an argument. -/
def Ended (r : List Point) : Prop := ∃ p ∈ r.head?, p = .char ',' ∨ p = .char ')'

/-- An argument that holds no mark, unless it is a text. -/
def Plain : Argument → Prop
  | .text _ => True
  | .token s => ∀ c ∈ s.toList, ¬ Mark (.char c)

theorem legible_argument : Legible points Plain Ended := by
  have hquote : ∀ {s : String} {r : List Point}, (token s).Plain → Ended r → ∀ t,
      (token s).points ++ r ≠ .char Text.doubleQuote :: t := by
    rintro s r hs ⟨p, hp, hend⟩ t h
    rcases hc : s.toList with _ | ⟨c, cs⟩
    · simp only [points, hc, List.map_nil, List.nil_append] at h
      rw [h, List.head?_cons] at hp
      obtain rfl := Option.some.inj hp
      simp [Text.doubleQuote] at hend
    · simp only [points, hc, List.map_cons, List.cons_append] at h
      exact hs c (by rw [hc]; exact List.mem_cons_self) (.inl (List.cons.inj h).1)
  have hended : ∀ {r}, Ended r → ∃ p ∈ r.head?, Mark p := fun ⟨p, hp, hend⟩ => ⟨p, hp, .inr hend⟩
  rintro (ps | s) (qs | t) r u ha hb hr hu h
  · simp only [points, List.cons_append] at h
    obtain ⟨rfl, hru⟩ := legible_text (fun _ _ => trivial) (fun _ _ => trivial) trivial trivial
      (List.cons.inj h).2
    exact ⟨rfl, hru⟩
  · exact absurd h.symm (hquote hb hu _)
  · exact absurd h (hquote ha hr _)
  · have hplain : ∀ {s : String}, (token s).Plain →
        ∀ p ∈ s.toList.map Point.char, ¬ Mark p := by
      intro s hs p hp
      obtain ⟨c, hc, rfl⟩ := List.mem_map.1 hp
      exact hs c hc
    obtain ⟨hst, hru⟩ := legible_upTo Mark (hplain ha) (hplain hb) (hended hr) (hended hu) h
    have hinj : Function.Injective Point.char := fun _ _ => Point.char.inj
    rw [String.toList_inj.1 (List.map_injective_iff.2 hinj hst)]
    exact ⟨rfl, hru⟩

end Argument

/-! ### Statements -/

namespace Statement

/-- A statement about a type without a parenthesis in its name, with arguments that are plain. -/
structure Plain (s : Statement) : Prop where
  type : '(' ∉ s.type.toList
  arguments : s.arguments ≠ []
  plain : ∀ a ∈ s.arguments, a.Plain

theorem legible_arguments :
    Legible (fun as : List Argument => [.char ',', .char ' '].intercalate
        (as.map Argument.points) ++ [.char ')', .char '.'])
      (fun as => as ≠ [] ∧ ∀ a ∈ as, a.Plain) (fun _ => True) :=
  Argument.legible_argument.intercalate (fun _ => ⟨_, rfl, .inl rfl⟩)
    (fun _ _ => ⟨_, rfl, .inr rfl⟩) (by simp)

theorem legible_points : Legible points Plain (fun _ => True) := by
  rintro ⟨type, as⟩ ⟨type', bs⟩ r s ha hb _ _ h
  have hname : ∀ {name : String}, '(' ∉ name.toList →
      ∀ p ∈ name.toList.map Point.char, ¬ p = .char '(' := by
    intro name hn p hp heq
    obtain ⟨c, hc, rfl⟩ := List.mem_map.1 hp
    exact hn (Point.char.inj heq ▸ hc)
  simp only [points, List.append_assoc, List.cons_append] at h
  obtain ⟨htype, hafter⟩ := legible_upTo (· = .char '(') (hname ha.type) (hname hb.type)
    ⟨_, rfl, rfl⟩ ⟨_, rfl, rfl⟩ h
  have hinj : Function.Injective Point.char := fun _ _ => Point.char.inj
  obtain rfl := String.toList_inj.1 (List.map_injective_iff.2 hinj htype)
  have hrest := legible_arguments (r := r) (s := s) ⟨ha.arguments, ha.plain⟩
    ⟨hb.arguments, hb.plain⟩ trivial trivial
  simp only [List.append_assoc] at hrest
  obtain ⟨rfl, hrs⟩ := hrest (List.cons.inj hafter).2
  exact ⟨rfl, hrs⟩

theorem points_ne_nil (s : Statement) : s.points ≠ [] := by simp [points]

/-- Plain statements that are written alike are the same. -/
theorem eq_of_render_eq {ss ts : List Statement} (hs : ∀ s ∈ ss, s.Plain) (ht : ∀ t ∈ ts, t.Plain)
    (h : render ss = render ts) : ss = ts := by
  have hlegible : Legible (fun us => [.char '\n'].intercalate (us.map points) ++ [])
      (fun us => us ≠ [] ∧ ∀ u ∈ us, u.Plain) (· = []) :=
    legible_points.intercalate (fun _ => trivial) (fun _ _ => trivial) (by simp)
  have hempty : ∀ {us : List Statement}, render us = [] → us = [] := by
    intro us hus
    rcases us with _ | ⟨u, _ | ⟨v, us⟩⟩
    · rfl
    · simp [render, points_ne_nil] at hus
    · simp [render] at hus
  rcases eq_or_ne ss [] with rfl | hne
  · exact (hempty h.symm).symm
  rcases eq_or_ne ts [] with rfl | hne'
  · exact hempty h
  refine (hlegible ⟨hne, hs⟩ ⟨hne', ht⟩ rfl rfl ?_).1
  simp only [List.append_nil]
  exact h

end Statement

end PropertyGraph
