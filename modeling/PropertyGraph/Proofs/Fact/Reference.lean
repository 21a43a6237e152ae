import Mathlib.Data.List.Lex
import Mathlib.Data.List.Pairwise
import PropertyGraph.Fact
import PropertyGraph.Proofs.Json.Reader

/-!
# What a query is to give

The solutions of a pattern against a fact, said without recursion on bindings.  The fact must have
every key, and every literal must accept what it finds there.  Each key of a variable then picks a
value: a member, by an index, where the value is a sequence, and the value as a whole elsewhere.
The choices of indices are taken in lexicographic order, and a choice counts when all picks of one
variable are the same.  `solve_eq_extensions` says that the search finds just these, whatever was
picked before, and `query_eq_reference` that a query gives just these, fact by fact.
-/

namespace PropertyGraph

/-- Whether a term accepts what a fact has for its key. -/
def Term.accepts : Term → Value → Bool
  | .variable _, _ => true
  | .literal w, v => v.meets w
  | .quotedTerm _, _ => false

/-- What a key of a variable picks. -/
structure Pick where
  name : String
  /-- Whether the value is a member of what the fact has. -/
  member : Bool
  value : Value

theorem Fields.exists_of_get? {fs : Fields} {name : String} {v : Value}
    (h : fs.get? name = some v) : ∃ p ∈ fs, p.2 = v := by
  obtain ⟨p, hp, hv⟩ := Option.map_eq_some_iff.1 h
  exact ⟨p, List.mem_of_find?_eq_some hp, hv⟩

namespace Pattern

/-! ### Choices -/

/-- The variables, key by key, with what a fact has there. -/
def met (fact : Fact) : Pattern → List (String × Value)
  | [] => []
  | (key, .variable name) :: rest =>
    match fact.get? key with
    | some v => (name, v) :: met fact rest
    | none => met fact rest
  | _ :: rest => met fact rest

/-- How many members there are to choose from, wherever a variable meets a sequence. -/
def bounds (ms : List (String × Value)) : List Nat :=
  ms.filterMap fun p => p.2.items?.map List.length

/-- The choices of an index below each bound, in lexicographic order. -/
def indices : List Nat → List (List Nat)
  | [] => [[]]
  | n :: rest => (List.range n).flatMap fun i => (indices rest).map (i :: ·)

/-- What is picked by a choice of indices. -/
def picks : List (String × Value) → List Nat → List Pick
  | [], _ => []
  | (name, v) :: rest, is =>
    match v.items?, is with
    | some items, i :: is => ⟨name, true, items.getD i .null⟩ :: picks rest is
    | some _, [] => picks rest []
    | none, is => ⟨name, false, v⟩ :: picks rest is

theorem mem_indices_iff (ns is : List Nat) :
    is ∈ indices ns ↔ List.Forall₂ (fun i n => i < n) is ns := by
  induction ns generalizing is with
  | nil => simp [indices]
  | cons n rest ih =>
    cases is with
    | nil => simp [indices]
    | cons i is => simp [indices, ih]

theorem indices_increasing (ns : List Nat) :
    (indices ns).Pairwise (List.Lex (fun i j => i < j)) := by
  induction ns with
  | nil => exact List.pairwise_singleton _ _
  | cons n rest ih =>
    rw [indices, List.pairwise_flatMap]
    constructor
    · intro i _
      exact List.pairwise_map.2 (ih.imp fun h => .cons h)
    · refine List.pairwise_lt_range.imp ?_
      intro i j hij is his js hjs
      obtain ⟨_, -, rfl⟩ := List.mem_map.1 his
      obtain ⟨_, -, rfl⟩ := List.mem_map.1 hjs
      exact .rel hij

/-! ### Bindings -/

/-- All picks of one variable are the same. -/
def Agreeing (ps : List Pick) : Prop :=
  ps.Pairwise fun p q => p.name = q.name → p.value.same q.value = true

instance : DecidablePred Agreeing := fun ps =>
  inferInstanceAs (Decidable (ps.Pairwise fun p q => p.name = q.name → p.value.same q.value = true))

/-- The value of a variable: the last member that was picked for it, or else its first value. -/
def valueOf? (ps : List Pick) (name : String) : Option Value :=
  let own := ps.filter fun p => p.name == name
  ((own.reverse.find? (·.member)).or own.head?).map (·.value)

/-- The variables in the order in which they occur first, each with its value. -/
def bound (ps : List Pick) : Bindings :=
  (ps.map (·.name)).eraseDups.filterMap fun name => (valueOf? ps name).map fun v => (name, v)

/-- The solutions of a pattern against a fact. -/
def reference (pattern : Pattern) (fact : Fact) : List Bindings :=
  if pattern.all fun p => (fact.get? p.1).any p.2.accepts then
    (((indices (bounds (met fact pattern))).map (picks (met fact pattern))).filter
      fun ps => Agreeing ps).map bound
  else []

/-! ### Records from lists of names -/

/-- A record of some names, each with its value if it has one. -/
def tabulate (names : List String) (f : String → Option Value) : Bindings :=
  names.filterMap fun name => (f name).map fun v => (name, v)

theorem tabulate_cons {name : String} {f : String → Option Value} {v : Value}
    (h : f name = some v) (names : List String) :
    tabulate (name :: names) f = (name, v) :: tabulate names f := by
  rw [tabulate, List.filterMap_cons, h]
  rfl

theorem tabulate_congr {names : List String} {f g : String → Option Value}
    (h : ∀ name ∈ names, f name = g name) : tabulate names f = tabulate names g :=
  List.filterMap_congr fun name hname => by rw [h name hname]

theorem get?_tabulate (names : List String) (f : String → Option Value) (name : String) :
    Record.get? (tabulate names f) name = if name ∈ names then f name else none := by
  induction names with
  | nil => rfl
  | cons other rest ih =>
    cases hf : f other with
    | none =>
      have hskip : tabulate (other :: rest) f = tabulate rest f := by simp [tabulate, hf]
      rw [hskip, ih]
      by_cases hname : name = other
      · simp [hname, hf]
      · simp [hname]
    | some v =>
      rw [tabulate_cons hf, Record.get?_cons, ih]
      by_cases hname : name = other
      · simp [hname, hf]
      · simp [hname, Ne.symm hname]

/-- A name may be given its value before or after the record is made. -/
theorem set_tabulate {names : List String} {f : String → Option Value}
    (hf : ∀ name ∈ names, (f name).isSome) (hn : names.Nodup) (name : String) (v : Value) :
    Record.set (tabulate names f) name v =
      tabulate (if name ∈ names then names else names ++ [name])
        fun other => if other = name then some v else f other := by
  induction names with
  | nil => simp [tabulate, Record.set]
  | cons other rest ih =>
    rw [List.forall_mem_cons] at hf
    rw [List.nodup_cons] at hn
    obtain ⟨w, hw⟩ := Option.isSome_iff_exists.1 hf.1
    rw [tabulate_cons hw, Record.set]
    by_cases hname : other = name
    · subst hname
      rw [if_pos rfl, if_pos List.mem_cons_self, tabulate_cons (if_pos rfl)]
      -- the name does not come again
      refine congrArg _ (tabulate_congr fun k hk => ?_)
      rw [if_neg]
      rintro rfl
      exact hn.1 hk
    · have hmem : name ∈ other :: rest ↔ name ∈ rest := by simp [Ne.symm hname]
      rw [if_neg hname, ih hf.2 hn.2]
      simp only [hmem]
      split
      · exact (tabulate_cons ((if_neg hname).trans hw) _).symm
      · exact (tabulate_cons ((if_neg hname).trans hw) _).symm

theorem set_of_get?_eq_some {r : Bindings} {name : String} {v : Value}
    (h : Record.get? r name = some v) : Record.set r name v = r := by
  induction r with
  | nil => cases h
  | cons p rest ih =>
    obtain ⟨other, w⟩ := p
    rw [Record.get?_cons] at h
    rw [Record.set]
    by_cases hname : other = name
    · rw [if_pos hname] at h ⊢
      rw [Option.some.inj h]
    · rw [if_neg hname] at h ⊢
      rw [ih h]

theorem nodup_eraseDups : ∀ names : List String, names.eraseDups.Nodup
  | [] => List.nodup_nil
  | name :: rest => by
    rw [List.eraseDups_cons, List.nodup_cons]
    refine ⟨fun hmem => ?_, nodup_eraseDups _⟩
    have hne := (List.mem_filter.1 (List.mem_eraseDups.1 hmem)).2
    simp at hne
termination_by names => names.length
decreasing_by exact Nat.lt_succ_of_le (List.length_filter_le _ rest)

theorem eraseDups_append_singleton (names : List String) (name : String) :
    (names ++ [name]).eraseDups =
      if name ∈ names.eraseDups then names.eraseDups else names.eraseDups ++ [name] := by
  rw [List.eraseDups_append]
  by_cases hmem : name ∈ names <;> simp [List.removeAll, hmem, List.eraseDups_cons]

/-! ### How bindings grow -/

theorem valueOf?_append (ps : List Pick) (p : Pick) (name : String) :
    valueOf? (ps ++ [p]) name =
      if p.name = name then if p.member then some p.value else (valueOf? ps name).or (some p.value)
      else valueOf? ps name := by
  by_cases hname : p.name = name
  · cases hmember : p.member <;> simp [valueOf?, List.filter_append, hname, hmember]
  · simp [valueOf?, List.filter_append, hname]

/-- The value of a variable is that of one of its picks. -/
theorem exists_of_valueOf? {ps : List Pick} {name : String} {v : Value}
    (h : valueOf? ps name = some v) : ∃ p ∈ ps, p.name = name ∧ p.value = v := by
  rw [valueOf?, Option.map_eq_some_iff] at h
  obtain ⟨p, hp, hv⟩ := h
  have hown : p ∈ ps.filter fun p => p.name == name := by
    rcases Option.or_eq_some_iff.1 hp with hp | ⟨-, hp⟩
    · exact List.mem_reverse.1 (List.mem_of_find?_eq_some hp)
    · exact List.mem_of_mem_head? hp
  rw [List.mem_filter, beq_iff_eq] at hown
  exact ⟨p, hown.1, hown.2, hv⟩

theorem isSome_valueOf? {ps : List Pick} {p : Pick} (hp : p ∈ ps) :
    (valueOf? ps p.name).isSome := by
  have hown : p ∈ ps.filter fun q => q.name == p.name := by
    rw [List.mem_filter, beq_iff_eq]
    exact ⟨hp, rfl⟩
  obtain ⟨q, hq⟩ := Option.isSome_iff_exists.1 (List.isSome_head?.2 (List.ne_nil_of_mem hown))
  rw [valueOf?, Option.isSome_map, Option.isSome_or, hq]
  exact Bool.or_true _

theorem bound_eq_tabulate (ps : List Pick) :
    bound ps = tabulate (ps.map (·.name)).eraseDups (valueOf? ps) := rfl

theorem get?_bound (ps : List Pick) (name : String) :
    Record.get? (bound ps) name = valueOf? ps name := by
  rw [bound_eq_tabulate, get?_tabulate]
  split
  · rfl
  · rename_i hname
    cases hv : valueOf? ps name with
    | none => rfl
    | some v =>
      obtain ⟨p, hp, rfl, -⟩ := exists_of_valueOf? hv
      exact absurd (List.mem_eraseDups.2 (List.mem_map_of_mem hp)) hname

/-- One more pick sets the value of its variable. -/
theorem bound_append {ps : List Pick} {p : Pick} {v : Value}
    (hv : valueOf? (ps ++ [p]) p.name = some v) :
    bound (ps ++ [p]) = Record.set (bound ps) p.name v := by
  have hsome : ∀ name ∈ (ps.map (·.name)).eraseDups, (valueOf? ps name).isSome := by
    intro name hname
    obtain ⟨q, hq, rfl⟩ := List.mem_map.1 (List.mem_eraseDups.1 hname)
    exact isSome_valueOf? hq
  have hvalues : ∀ name, valueOf? (ps ++ [p]) name =
      if name = p.name then some v else valueOf? ps name := by
    intro name
    by_cases hname : name = p.name
    · rw [if_pos hname, hname, hv]
    · rw [if_neg hname, valueOf?_append, if_neg (Ne.symm hname)]
  rw [bound_eq_tabulate, bound_eq_tabulate, set_tabulate hsome (nodup_eraseDups _), List.map_append,
    List.map_singleton, eraseDups_append_singleton]
  exact tabulate_congr fun name _ => hvalues name

theorem bound_append_member (ps : List Pick) (name : String) (v : Value) :
    bound (ps ++ [⟨name, true, v⟩]) = Record.set (bound ps) name v := by
  refine bound_append ?_
  rw [valueOf?_append, if_pos rfl, if_pos rfl]

theorem bound_append_whole (ps : List Pick) (name : String) (v : Value) :
    bound (ps ++ [⟨name, false, v⟩]) =
      if Record.has (bound ps) name then bound ps else Record.set (bound ps) name v := by
  rw [Record.has, get?_bound]
  cases hw : valueOf? ps name with
  | none =>
    refine bound_append ?_
    rw [valueOf?_append, if_pos rfl, hw]
    rfl
  | some w =>
    have hbound : bound (ps ++ [⟨name, false, v⟩]) = Record.set (bound ps) name w := by
      refine bound_append ?_
      rw [valueOf?_append, if_pos rfl, hw]
      rfl
    rw [hbound, set_of_get?_eq_some ((get?_bound ps name).trans hw)]
    rfl

/-! ### Agreement -/

theorem agreeing_append_iff (ps : List Pick) (p : Pick) :
    Agreeing (ps ++ [p]) ↔
      Agreeing ps ∧ ∀ q ∈ ps, q.name = p.name → q.value.same p.value = true := by
  rw [Agreeing, List.pairwise_append]
  simp [Agreeing]

/-- Two picks of one variable are the same, in whatever order they were made. -/
theorem Agreeing.same {ps : List Pick} (h : Agreeing ps)
    (hproper : ∀ p ∈ ps, p.value.proper = true) {p q : Pick} (hp : p ∈ ps) (hq : q ∈ ps)
    (hne : p ≠ q) (hname : p.name = q.name) : p.value.same q.value = true := by
  have hboth : ps.Pairwise fun p q => p.name = q.name →
      p.value.same q.value = true ∧ q.value.same p.value = true := by
    refine h.imp_of_mem fun hp hq hsame hname => ⟨hsame hname, ?_⟩
    exact Value.same_symm (hproper _ hp) (hproper _ hq) (hsame hname)
  have hsymm : Std.Symm fun p q : Pick => p.name = q.name →
      p.value.same q.value = true ∧ q.value.same p.value = true :=
    ⟨fun _ _ hsame hname => (hsame hname.symm).symm⟩
  exact (hboth.forall hp hq hne hname).1

/-- The bindings admit a value for a variable exactly when it is the same as all that was picked
for the variable so far. -/
theorem admits_bound_iff {ps : List Pick} (hps : Agreeing ps)
    (hproper : ∀ p ∈ ps, p.value.proper = true) (name : String) {v : Value}
    (hv : v.proper = true) :
    Bindings.admits (bound ps) name v = true ↔
      ∀ p ∈ ps, p.name = name → p.value.same v = true := by
  rw [Bindings.admits, get?_bound]
  cases hw : valueOf? ps name with
  | none =>
    refine iff_of_true rfl ?_
    rintro p hp rfl
    have hsome := isSome_valueOf? hp
    rw [hw] at hsome
    cases hsome
  | some w =>
    obtain ⟨q, hq, hname, rfl⟩ := exists_of_valueOf? hw
    constructor
    · intro hsame p hp hpname
      by_cases hpq : p = q
      · exact hpq ▸ hsame
      · have hboth := hps.same hproper hp hq hpq (hpname.trans hname.symm)
        exact Value.same_trans (hproper p hp) (hproper q hq) hv hboth hsame
    · intro hall
      exact hall q hq hname

/-! ### The search -/

section Search

variable (fact : Fact) (rest : Pattern) (done : List Pick)

/-- The solutions that the rest of a pattern has after some picks. -/
def extensions : List Bindings :=
  if rest.all fun p => (fact.get? p.1).any p.2.accepts then
    (((indices (bounds (met fact rest))).map fun is => done ++ picks (met fact rest) is).filter
      fun ps => Agreeing ps).map bound
  else []

variable {fact done}

theorem extensions_nil (h : Agreeing done) : extensions fact [] done = [bound done] := by
  simp [extensions, met, bounds, indices, picks, h]

theorem extensions_of_not_agreeing (h : ¬ Agreeing done) : extensions fact rest done = [] := by
  unfold extensions
  split
  · have hnone : ((indices (bounds (met fact rest))).map fun is =>
        done ++ picks (met fact rest) is).filter (fun ps => Agreeing ps) = [] := by
      rw [List.filter_eq_nil_iff]
      intro ps hps hagree
      obtain ⟨is, -, rfl⟩ := List.mem_map.1 hps
      exact h ((of_decide_eq_true hagree).sublist (List.sublist_append_left done _))
    rw [hnone]
    rfl
  · rfl

theorem extensions_missing {key : String} (hkey : fact.get? key = none) (term : Term) :
    extensions fact ((key, term) :: rest) done = [] := by
  rw [extensions, List.all_cons, hkey]
  rfl

theorem extensions_refused {key : String} {term : Term} {v : Value} (hkey : fact.get? key = some v)
    (hterm : term.accepts v = false) : extensions fact ((key, term) :: rest) done = [] := by
  rw [extensions, List.all_cons, hkey, Option.any_some, hterm]
  rfl

theorem extensions_literal {key : String} {v w : Value} (hkey : fact.get? key = some v)
    (hmeets : v.meets w = true) :
    extensions fact ((key, .literal w) :: rest) done = extensions fact rest done := by
  rw [extensions, List.all_cons, hkey, Option.any_some, Term.accepts, hmeets]
  rfl

theorem met_variable {key name : String} {v : Value} (hkey : fact.get? key = some v) :
    met fact ((key, .variable name) :: rest) = (name, v) :: met fact rest := by
  rw [met, hkey]

theorem picks_whole {name : String} {v : Value} (hitems : v.items? = none)
    (ms : List (String × Value)) (is : List Nat) :
    picks ((name, v) :: ms) is = ⟨name, false, v⟩ :: picks ms is := by
  rw [picks]
  exact hitems

theorem picks_members {name : String} {v : Value} {items : List Value}
    (hitems : v.items? = some items) (ms : List (String × Value)) (i : Nat) (is : List Nat) :
    picks ((name, v) :: ms) (i :: is) = ⟨name, true, items.getD i .null⟩ :: picks ms is := by
  rw [picks]
  exact hitems

theorem extensions_whole {key name : String} {v : Value} (hkey : fact.get? key = some v)
    (hitems : v.items? = none) :
    extensions fact ((key, .variable name) :: rest) done =
      extensions fact rest (done ++ [⟨name, false, v⟩]) := by
  have hbounds : bounds ((name, v) :: met fact rest) = bounds (met fact rest) := by
    simp [bounds, hitems]
  simp only [extensions, List.all_cons, hkey, Option.any_some, Term.accepts, Bool.true_and,
    met_variable rest hkey, hbounds, picks_whole hitems, List.append_assoc, List.singleton_append]

/-- All indices into a list give all of its items. -/
theorem flatMap_range_getD {α β : Type} (xs : List α) (d : α) (g : α → List β) :
    ((List.range xs.length).flatMap fun i => g (xs.getD i d)) = xs.flatMap g := by
  have hxs : (List.range xs.length).map (fun i => xs.getD i d) = xs := by
    refine List.ext_getElem (by simp) fun i h h' => ?_
    simp [h']
  rw [← List.flatMap_map, hxs]

theorem extensions_members {key name : String} {v : Value} {items : List Value}
    (hkey : fact.get? key = some v) (hitems : v.items? = some items) :
    extensions fact ((key, .variable name) :: rest) done =
      items.flatMap fun item => extensions fact rest (done ++ [⟨name, true, item⟩]) := by
  have hbounds : bounds ((name, v) :: met fact rest) =
      items.length :: bounds (met fact rest) := by
    simp [bounds, hitems]
  simp only [extensions, List.all_cons, hkey, Option.any_some, Term.accepts, Bool.true_and]
  split
  · simp only [met_variable rest hkey, hbounds, indices, List.map_flatMap, List.filter_flatMap,
      List.map_map, Function.comp_def, picks_members hitems, List.append_assoc,
      List.singleton_append]
    exact flatMap_range_getD items .null fun item =>
      (((indices (bounds (met fact rest))).map fun is =>
        done ++ ⟨name, true, item⟩ :: picks (met fact rest) is).filter fun ps => Agreeing ps).map
          bound
  · simp

/-- The search finds the solutions that the rest of the pattern has after what was picked. -/
theorem solve_eq_extensions (hfact : ∀ p ∈ fact, p.2.proper = true) (hdone : Agreeing done)
    (hproper : ∀ p ∈ done, p.value.proper = true) :
    solve fact rest (bound done) = extensions fact rest done := by
  induction rest generalizing done with
  | nil => rw [solve, extensions_nil hdone]
  | cons p rest ih =>
    -- what is admitted is searched on with one more pick, and the rest has no solutions
    have hpick : ∀ p : Pick, p.value.proper = true →
        (if Bindings.admits (bound done) p.name p.value then solve fact rest (bound (done ++ [p]))
          else []) = extensions fact rest (done ++ [p]) := by
      intro p hp
      have hadmits := admits_bound_iff hdone hproper p.name hp
      have hmore : ∀ q ∈ done ++ [p], q.value.proper = true := by
        intro q hq
        rcases List.mem_append.1 hq with hq | hq
        · exact hproper q hq
        · exact List.mem_singleton.1 hq ▸ hp
      split
      · rename_i h
        exact ih ((agreeing_append_iff done p).2 ⟨hdone, hadmits.1 h⟩) hmore
      · rename_i h
        rw [extensions_of_not_agreeing]
        exact fun hagree => h (hadmits.2 ((agreeing_append_iff done p).1 hagree).2)
    obtain ⟨key, term⟩ := p
    rw [solve]
    cases hkey : fact.get? key with
    | none => rw [extensions_missing rest hkey]
    | some v =>
      have hv : v.proper = true := by
        obtain ⟨p, hp, rfl⟩ := Fields.exists_of_get? hkey
        exact hfact p hp
      rcases term with name | w | t
      · dsimp only
        cases hitems : v.items? with
        | some items =>
          rw [extensions_members rest hkey hitems]
          refine List.flatMap_congr fun item hitem => ?_
          rw [← bound_append_member]
          exact hpick ⟨name, true, item⟩ (Value.proper_of_mem_items? hv hitems item hitem)
        | none =>
          rw [extensions_whole rest hkey hitems, ← hpick ⟨name, false, v⟩ hv, bound_append_whole]
      · dsimp only
        cases hmeets : v.meets w with
        | false =>
          have hrefused : Term.accepts (.literal w) v = false := hmeets
          exact (extensions_refused rest hkey hrefused).symm
        | true => exact (ih hdone hproper).trans (extensions_literal rest hkey hmeets).symm
      · exact (extensions_refused rest hkey rfl).symm

end Search

theorem solutions_eq_reference {fact : Fact} (hfact : ∀ p ∈ fact, p.2.proper = true)
    (pattern : Pattern) : pattern.solutions fact = pattern.reference fact :=
  solve_eq_extensions pattern hfact List.Pairwise.nil nofun

end Pattern

namespace FactBase

/-- A query gives the solutions of the reference, fact by fact.  The choices are all those of an
index below each bound, in lexicographic order. -/
theorem query_eq_reference (facts : List Fact) (pattern : Pattern)
    (h : ∀ fact ∈ facts, ∀ p ∈ fact, p.2.proper = true) :
    query ⟨facts⟩ pattern = facts.flatMap pattern.reference ∧
      (∀ ns is, is ∈ Pattern.indices ns ↔ List.Forall₂ (fun i n => i < n) is ns) ∧
        ∀ ns, (Pattern.indices ns).Pairwise (List.Lex fun i j => i < j) := by
  refine ⟨?_, Pattern.mem_indices_iff, Pattern.indices_increasing⟩
  exact List.flatMap_congr fun fact hfact => Pattern.solutions_eq_reference (h fact hfact) pattern

/-- Two facts about who likes whom. -/
def likings : List Fact := [
  [(.text "who", .text "a"), (.text "likes", .list [.text "b", .text "a", .text "a"]),
    (.text "since", .record [("year", .int 1), ("month", .int 2)])],
  [(.text "who", .tuple [.text "a", .text "b"]), (.text "likes", .list [.text "b", .int 1])]]

/-- Who likes themselves. -/
def selfish : Pattern := [("who", .variable "x"), ("likes", .variable "x")]

/-- The first fact has two solutions, one for each equal member, and the second has one. -/
theorem query_selfish :
    (∀ fact ∈ likings, ∀ p ∈ fact, p.2.proper = true) ∧
      (query ⟨likings⟩ selfish).length = 3 ∧
      query ⟨likings⟩ selfish = likings.flatMap selfish.reference ∧
      (∀ ns is, is ∈ Pattern.indices ns ↔ List.Forall₂ (fun i n => i < n) is ns) ∧
      ∀ ns, (Pattern.indices ns).Pairwise (List.Lex fun i j => i < j) :=
  have hproper : ∀ fact ∈ likings, ∀ p ∈ fact, p.2.proper = true := by decide +kernel
  ⟨hproper, by decide +kernel, query_eq_reference likings selfish hproper⟩

/-! ### Facts that are read -/

theorem proper_of_recordsOf {vs : List Value} (h : ∀ v ∈ vs, v.proper = true) :
    ∀ fact ∈ (recordsOf vs).1, ∀ p ∈ fact, p.2.proper = true := by
  induction vs with
  | nil => exact fun fact hfact => by cases hfact
  | cons v rest ih =>
    rw [List.forall_mem_cons] at h
    rw [recordsOf]
    cases hv : v.fields? with
    | none => exact fun fact hfact => by cases hfact
    | some fs => exact List.forall_mem_cons.2 ⟨Value.proper_of_fields? h.1 hv, ih h.2⟩

/-- What a JSON text adds to a fact base is proper. -/
theorem proper_loadJson {b : FactBase} (hb : ∀ fact ∈ b.facts, ∀ p ∈ fact, p.2.proper = true)
    (s : String) : ∀ fact ∈ (b.loadJson s).1.facts, ∀ p ∈ fact, p.2.proper = true := by
  unfold loadJson
  split
  · exact hb
  · exact hb
  · rename_i items hread
    have hitems := Value.proper_of_mem_items? (Json.proper_of_read hread) rfl
    exact List.forall_mem_append.2 ⟨hb, proper_of_recordsOf hitems⟩
  · exact hb

/-- So a query of facts that were read gives the solutions of the reference. -/
theorem query_loadJson (s : String) (pattern : Pattern) :
    (empty.loadJson s).1.query pattern =
      (empty.loadJson s).1.facts.flatMap pattern.reference := by
  have hempty : ∀ fact ∈ empty.facts, ∀ p ∈ fact, p.2.proper = true := by
    intro fact hfact
    cases hfact
  exact List.flatMap_congr fun fact hfact =>
    Pattern.solutions_eq_reference (proper_loadJson hempty s fact hfact) pattern

end FactBase

end PropertyGraph
