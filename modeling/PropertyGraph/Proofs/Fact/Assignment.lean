import PropertyGraph.Proofs.Fact.Choices

/-!
# Variables that are given a value

A query may be answered in two steps: a solution of a first pattern gives a variable its value, and
that value then stands in a second pattern.  `mem_query_assign_iff` is the law behind this: a
pattern in which a value stands for a variable has just the solutions of the pattern with the
variable that bind it to the same value, without that binding.  The picks of the other variables
are the same on both sides; those of the variable itself are all the same as the value, and so
agree with each other.
-/

namespace PropertyGraph

/-- A term with a value in the place of a variable. -/
def Term.assign (name : String) (v : Value) : Term → Term
  | .variable other => if other = name then .literal v else .variable other
  | t => t

namespace Pattern

/-- A pattern with a value in the place of a variable, wherever this occurs. -/
def assign (name : String) (v : Value) (pattern : Pattern) : Pattern :=
  Record.mapValues (Term.assign name v) pattern

/-- What is picked for the other variables. -/
def others (name : String) (ps : List Pick) : List Pick := ps.filter fun p => p.name != name

section Assigned

variable {name : String} {v : Value}

/-! ### What variables meet -/

theorem assign_cons_other {key other : String} (h : other ≠ name) (rest : Pattern) :
    assign name v ((key, .variable other) :: rest) =
      (key, .variable other) :: assign name v rest := by
  simp [assign, Record.mapValues, Term.assign, h]

theorem assign_cons_self (key : String) (rest : Pattern) :
    assign name v ((key, .variable name) :: rest) = (key, .literal v) :: assign name v rest := by
  simp [assign, Record.mapValues, Term.assign]

/-- The other variables meet what they met before. -/
theorem met_assign (fact : Fact) (pattern : Pattern) :
    met fact (assign name v pattern) = (met fact pattern).filter fun m => m.1 != name := by
  induction pattern with
  | nil => rfl
  | cons p rest ih =>
    obtain ⟨key, term⟩ := p
    rcases term with other | w | t
    · by_cases hother : other = name
      · subst hother
        rw [assign_cons_self]
        refine ih.trans ?_
        cases hkey : fact.get? key with
        | none => rw [met, hkey]
        | some u =>
          rw [met_variable rest hkey, List.filter_cons_of_neg]
          simp
      · rw [assign_cons_other hother]
        cases hkey : fact.get? key with
        | none => rw [met, met, hkey, ih]
        | some u =>
          rw [met_variable _ hkey, met_variable rest hkey, List.filter_cons_of_pos, ih]
          simpa using hother
    · exact ih
    · exact ih

/-- The terms accept what they meet when the value is accepted wherever the variable stood. -/
theorem accepts_assign_iff (fact : Fact) (pattern : Pattern) :
    (∀ p ∈ assign name v pattern, ∃ u, fact.get? p.1 = some u ∧ p.2.accepts u = true) ↔
      (∀ p ∈ pattern, ∃ u, fact.get? p.1 = some u ∧ p.2.accepts u = true) ∧
        ∀ m ∈ met fact pattern, m.1 = name → m.2.meets v = true := by
  have hterm : ∀ p ∈ pattern,
      (∃ u, fact.get? p.1 = some u ∧ (p.2.assign name v).accepts u = true) ↔
        (∃ u, fact.get? p.1 = some u ∧ p.2.accepts u = true) ∧
          (p.2 = .variable name → ∀ u, fact.get? p.1 = some u → u.meets v = true) := by
    rintro ⟨key, term⟩ -
    cases hkey : fact.get? key with
    | none => simp
    | some u =>
      rcases term with other | w | t
      · by_cases hother : other = name <;> simp [Term.assign, Term.accepts, hother]
      · simp [Term.assign]
      · simp [Term.assign]
  have hassign : (∀ p ∈ assign name v pattern, ∃ u, fact.get? p.1 = some u ∧
      p.2.accepts u = true) ↔ ∀ p ∈ pattern, ∃ u, fact.get? p.1 = some u ∧
        (p.2.assign name v).accepts u = true := List.forall_mem_map
  rw [hassign, forall₂_congr hterm, forall₂_and]
  refine and_congr_right fun _ => ?_
  constructor
  · intro h m hm hname
    obtain ⟨key, hkey, hu⟩ := (mem_met_iff fact pattern m).1 hm
    exact h (key, .variable m.1) hkey (by rw [hname]) m.2 hu
  · rintro h ⟨key, term⟩ hp rfl u hu
    exact h (name, u) ((mem_met_iff fact pattern _).2 ⟨key, hp, hu⟩) rfl

/-! ### What is picked -/

theorem others_mem_choices {ms : List (String × Value)} {ps : List Pick} (h : ps ∈ choices ms) :
    others name ps ∈ choices (ms.filter fun m => m.1 != name) := by
  rw [mem_choices_iff] at h ⊢
  induction h with
  | nil => exact .nil
  | @cons p m ps ms hp _ ih =>
    have hname := name_of_mem_options hp
    by_cases hm : m.1 = name
    · rw [others, List.filter_cons_of_neg (by simp [hname, hm]),
        List.filter_cons_of_neg (by simp [hm])]
      exact ih
    · rw [others, List.filter_cons_of_pos (by simp [hname, hm]),
        List.filter_cons_of_pos (by simp [hm])]
      exact .cons hp ih

/-- Where a value is accepted wherever the variable stands, picks for the other variables can be
completed by picks that are the same as the value. -/
theorem exists_completion {ms : List (String × Value)}
    (hms : ∀ m ∈ ms, m.1 = name → m.2.meets v = true) {qs : List Pick}
    (h : qs ∈ choices (ms.filter fun m => m.1 != name)) :
    ∃ ps ∈ choices ms, others name ps = qs ∧
      ∀ p ∈ ps, p.name = name → v.same p.value = true := by
  simp only [mem_choices_iff] at h ⊢
  induction ms generalizing qs with
  | nil =>
    obtain rfl := List.forall₂_nil_right_iff.1 h
    exact ⟨[], .nil, rfl, nofun⟩
  | cons m rest ih =>
    rw [List.forall_mem_cons] at hms
    by_cases hm : m.1 = name
    · rw [List.filter_cons_of_neg (by simp [hm])] at h
      obtain ⟨ps, hps, hqs, hsame⟩ := ih hms.2 h
      -- what the variable meets here accepts the value, so that one of its options is the same
      obtain ⟨p, hp, hpv⟩ := (meets_iff m.1 m.2 v).1 (hms.1 hm)
      have hname := name_of_mem_options hp
      refine ⟨p :: ps, .cons hp hps, ?_, List.forall_mem_cons.2 ⟨fun _ => hpv, hsame⟩⟩
      rw [others, List.filter_cons_of_neg (by simp [hname, hm])]
      exact hqs
    · rw [List.filter_cons_of_pos (by simp [hm]), List.forall₂_cons_right_iff] at h
      obtain ⟨p, qs, hp, h, rfl⟩ := h
      obtain ⟨ps, hps, hqs, hsame⟩ := ih hms.2 h
      have hname := name_of_mem_options hp
      have hother : p.name ≠ name := fun heq => hm (hname.symm.trans heq)
      refine ⟨p :: ps, .cons hp hps, ?_,
        List.forall_mem_cons.2 ⟨fun heq => absurd heq hother, hsame⟩⟩
      rw [others, List.filter_cons_of_pos (by simp [hother])]
      exact congrArg (p :: ·) hqs

/-- A value is accepted wherever something is picked that is the same. -/
theorem meets_of_picked {ms : List (String × Value)} {ps : List Pick} (h : ps ∈ choices ms)
    (hsame : ∀ p ∈ ps, p.name = name → v.same p.value = true) :
    ∀ m ∈ ms, m.1 = name → m.2.meets v = true := by
  rw [mem_choices_iff] at h
  induction h with
  | nil => exact nofun
  | @cons p m ps ms hp _ ih =>
    rw [List.forall_mem_cons] at hsame ⊢
    refine ⟨fun hm => (meets_iff m.1 m.2 v).2 ⟨p, hp, ?_⟩, ih hsame.2⟩
    exact hsame.1 ((name_of_mem_options hp).trans hm)

theorem exists_picked {ms : List (String × Value)} {ps : List Pick} (h : ps ∈ choices ms)
    {m : String × Value} (hm : m ∈ ms) : ∃ p ∈ ps, p.name = m.1 := by
  rw [mem_choices_iff] at h
  induction h with
  | nil => cases hm
  | @cons p m' ps ms hp _ ih =>
    rcases List.mem_cons.1 hm with rfl | hm
    · exact ⟨p, List.mem_cons_self, name_of_mem_options hp⟩
    · obtain ⟨q, hq, hname⟩ := ih hm
      exact ⟨q, List.mem_cons_of_mem p hq, hname⟩

/-! ### Agreement and bindings -/

/-- Picks agree when those of the other variables do, and those of the variable are all the same as
one value. -/
theorem agreeing_of_others (hv : v.proper = true) {ps : List Pick}
    (hproper : ∀ p ∈ ps, p.value.proper = true)
    (hsame : ∀ p ∈ ps, p.name = name → v.same p.value = true)
    (h : Agreeing (others name ps)) : Agreeing ps := by
  induction ps with
  | nil => exact .nil
  | cons p ps ih =>
    rw [List.forall_mem_cons] at hproper hsame
    by_cases hp : p.name = name
    · rw [others, List.filter_cons_of_neg (by simp [hp])] at h
      refine .cons (fun q hq hname => ?_) (ih hproper.2 hsame.2 h)
      -- both picks are the same as the value, and so are the same as each other
      have hback := Value.same_symm hv hproper.1 (hsame.1 hp)
      exact Value.same_trans hproper.1 hv (hproper.2 q hq) hback
        (hsame.2 q hq (hname.symm.trans hp))
    · rw [others, List.filter_cons_of_pos (by simp [hp])] at h
      obtain ⟨hfirst, hrest⟩ := List.pairwise_cons.1 h
      refine .cons (fun q hq hname => ?_) (ih hproper.2 hsame.2 hrest)
      have hother : q.name ≠ name := fun heq => hp (hname.trans heq)
      exact hfirst q (List.mem_filter.2 ⟨hq, by simpa using hother⟩) hname

theorem eraseDups_filter (q : String → Bool) (names : List String) :
    (names.filter q).eraseDups = names.eraseDups.filter q := by
  induction names using List.reverseRecOn with
  | nil => rfl
  | append_singleton names last ih =>
    rw [List.filter_append, eraseDups_append_singleton]
    by_cases hq : q last = true
    · rw [List.filter_cons_of_pos hq, List.filter_nil, eraseDups_append_singleton, ih]
      by_cases hmem : last ∈ names.eraseDups
      · rw [if_pos hmem, if_pos (List.mem_filter.2 ⟨hmem, hq⟩)]
      · rw [if_neg hmem, if_neg fun h => hmem (List.mem_filter.1 h).1, List.filter_append,
          List.filter_cons_of_pos hq, List.filter_nil]
    · rw [List.filter_cons_of_neg hq, List.filter_nil, List.append_nil, ih]
      by_cases hmem : last ∈ names.eraseDups
      · rw [if_pos hmem]
      · rw [if_neg hmem, List.filter_append, List.filter_cons_of_neg hq, List.filter_nil,
          List.append_nil]

theorem erase_tabulate (names : List String) (f : String → Option Value) :
    Record.erase (tabulate names f) name = tabulate (names.filter fun k => k != name) f := by
  rw [Record.erase, tabulate, List.filter_filterMap, tabulate, List.filterMap_filter]
  refine List.filterMap_congr fun k _ => ?_
  by_cases hk : k = name <;> cases f k <;> simp [hk]

/-- Without its binding of the variable, a solution binds what is picked for the others. -/
theorem erase_bound (ps : List Pick) :
    Record.erase (bound ps) name = bound (others name ps) := by
  have hnames : (others name ps).map (·.name) =
      (ps.map (·.name)).filter fun k => k != name := by
    rw [List.filter_map]
    rfl
  rw [bound_eq_tabulate, bound_eq_tabulate, erase_tabulate, hnames, eraseDups_filter]
  refine tabulate_congr fun k hk => ?_
  have hother : k ≠ name := by simpa using (List.mem_filter.1 hk).2
  have hown : (others name ps).filter (fun p => p.name == k) =
      ps.filter fun p => p.name == k := by
    rw [others, List.filter_filter]
    refine List.filter_congr fun p _ => ?_
    by_cases hp : p.name = k <;> simp [hp, hother]
  rw [valueOf?, valueOf?, hown]

/-! ### Solutions -/

/-- In one fact, a value in the place of a variable leaves the solutions that bind the variable to
the same value. -/
theorem mem_reference_assign_iff {fact : Fact} (hfact : ∀ p ∈ fact, p.2.proper = true)
    (hv : v.proper = true) {pattern : Pattern} (hname : ∃ key, (key, .variable name) ∈ pattern)
    (b : Bindings) :
    b ∈ (assign name v pattern).reference fact ↔
      ∃ s ∈ pattern.reference fact,
        (∃ w, Record.get? s name = some w ∧ v.same w = true) ∧ Record.erase s name = b := by
  have hproper : ∀ {ps}, ps ∈ choices (met fact pattern) → ∀ p ∈ ps, p.value.proper = true :=
    proper_of_mem_choices fun m hm => proper_of_mem_met hfact hm
  simp only [mem_reference_iff, accepts_assign_iff, met_assign]
  constructor
  · rintro ⟨⟨haccepts, hmeets⟩, qs, hqs, hagree, rfl⟩
    obtain ⟨ps, hps, rfl, hsame⟩ := exists_completion hmeets hqs
    refine ⟨bound ps, ⟨haccepts, ps, hps, ?_, rfl⟩, ?_, erase_bound ps⟩
    · exact agreeing_of_others hv (hproper hps) hsame hagree
    · -- the variable occurs, so that something is picked for it
      obtain ⟨key, hkey⟩ := hname
      obtain ⟨u, hu, -⟩ := haccepts _ hkey
      have hmet : (name, u) ∈ met fact pattern := (mem_met_iff fact pattern _).2 ⟨key, hkey, hu⟩
      obtain ⟨p, hp, rfl⟩ := exists_picked hps hmet
      obtain ⟨w, hw⟩ := Option.isSome_iff_exists.1 (isSome_valueOf? hp)
      obtain ⟨q, hq, hqname, rfl⟩ := exists_of_valueOf? hw
      exact ⟨q.value, (get?_bound ps p.name).trans hw, hsame q hq hqname⟩
  · rintro ⟨s, ⟨haccepts, ps, hps, hagree, rfl⟩, ⟨w, hw, hvw⟩, rfl⟩
    obtain ⟨q, hq, hqname, rfl⟩ := exists_of_valueOf? ((get?_bound ps name).symm.trans hw)
    -- the variable is bound to one of its picks, and the others agree with that one
    have hsame : ∀ p ∈ ps, p.name = name → v.same p.value = true := by
      intro p hp hpname
      by_cases hqp : q = p
      · exact hqp ▸ hvw
      · have hboth := hagree.same (hproper hps) hq hp hqp (hqname.trans hpname.symm)
        exact Value.same_trans hv (hproper hps q hq) (hproper hps p hp) hvw hboth
    refine ⟨⟨haccepts, meets_of_picked hps hsame⟩, others name ps, others_mem_choices hps, ?_, ?_⟩
    · exact hagree.sublist List.filter_sublist
    · exact (erase_bound ps).symm

end Assigned

end Pattern

namespace FactBase

/-- A pattern in which a value stands for a variable has just the solutions of the pattern with the
variable that bind it to the same value, without that binding. -/
theorem mem_query_assign_iff (facts : List Fact) (pattern : Pattern) (name : String) (v : Value)
    (hfacts : ∀ fact ∈ facts, ∀ p ∈ fact, p.2.proper = true) (hv : v.proper = true)
    (hname : ∃ key, (key, .variable name) ∈ pattern) (b : Bindings) :
    b ∈ query ⟨facts⟩ (pattern.assign name v) ↔
      ∃ s ∈ query ⟨facts⟩ pattern,
        (∃ w, Record.get? s name = some w ∧ v.same w = true) ∧ Record.erase s name = b := by
  have hmem : ∀ (q : Pattern) (s : Bindings),
      s ∈ query ⟨facts⟩ q ↔ ∃ fact ∈ facts, s ∈ q.reference fact := by
    intro q s
    rw [query, List.mem_flatMap]
    exact exists_congr fun fact => and_congr_right fun hfact => by
      rw [Pattern.solutions_eq_reference (hfacts fact hfact)]
  simp only [hmem]
  constructor
  · rintro ⟨fact, hfact, hb⟩
    obtain ⟨s, hs, hsame⟩ := (Pattern.mem_reference_assign_iff (hfacts fact hfact) hv hname b).1 hb
    exact ⟨s, ⟨fact, hfact, hs⟩, hsame⟩
  · rintro ⟨s, ⟨fact, hfact, hs⟩, hsame⟩
    refine ⟨fact, hfact, ?_⟩
    exact (Pattern.mem_reference_assign_iff (hfacts fact hfact) hv hname b).2 ⟨s, hs, hsame⟩

/-- Three facts that rate things, once and again. -/
def ratings : List Fact := [
  [(.text "first", .int 1), (.text "again", .list [.float 1, .bool true, .int 1]),
    (.text "by", .text "a"), (.text "for", .tuple [.text "b", .text "a"])],
  [(.text "first", .list [.int 2, .int 1]), (.text "again", .int 1), (.text "by", .text "b"),
    (.text "for", .list [.text "b"])],
  [(.text "first", .bool true), (.text "again", .list [.bool true]), (.text "by", .text "c"),
    (.text "for", .text "c")]]

/-- What was rated the same twice by somebody, for that person too. -/
def steady : Pattern :=
  [("first", .variable "rating"), ("by", .variable "who"), ("again", .variable "rating"),
    ("for", .variable "who")]

/-- The rating 1.0 is the same as 1 and as 1.0, but not as a truth value. -/
theorem query_steady_assign :
    (∀ fact ∈ ratings, ∀ p ∈ fact, p.2.proper = true) ∧ (Value.float 1).proper = true ∧
      (∃ key, (key, .variable "rating") ∈ steady) ∧
      (query ⟨ratings⟩ steady).length = 4 ∧
      (query ⟨ratings⟩ (steady.assign "rating" (.float 1))).length = 2 ∧
      ∀ b, b ∈ query ⟨ratings⟩ (steady.assign "rating" (.float 1)) ↔
        ∃ s ∈ query ⟨ratings⟩ steady, (∃ w, Record.get? s "rating" = some w ∧
          (Value.float 1).same w = true) ∧ Record.erase s "rating" = b :=
  have hproper : ∀ fact ∈ ratings, ∀ p ∈ fact, p.2.proper = true := by decide +kernel
  have hfloat : (Value.float 1).proper = true := by decide +kernel
  have hname : ∃ key, (key, .variable "rating") ∈ steady := ⟨"first", List.mem_cons_self⟩
  ⟨hproper, hfloat, hname, by decide +kernel, by decide +kernel,
    mem_query_assign_iff ratings steady "rating" (.float 1) hproper hfloat hname⟩

end FactBase

end PropertyGraph
