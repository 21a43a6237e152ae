import PropertyGraph.Proofs.Fact.Legibility
import PropertyGraph.Proofs.Graph.Loading
import PropertyGraph.Proofs.Number.Digits

/-!
# What the text of a graph says

Two graphs that are written as one text are stated alike: the same types in the same order, and
values that are the same texts, or that are no texts and are written in the same way
(`lines_writtenAlike`).  The values may be any; of the schema it is asked that no name of a type
holds a parenthesis.

What is no text is written with letters, digits, signs and points only (`figures_of_token`), so that
the statements of a graph are plain and can be read off its text.
-/

namespace PropertyGraph

open Text (Point)

/-! ### Tokens -/

/-- Whether a character stands in numbers and in the words that are written plainly. -/
def figure (c : Char) : Bool := c.isAlphanum || c == '-' || c == '+' || c == '.' || c == '_'

def Figures (cs : List Char) : Prop := cs.all figure = true

instance (cs : List Char) : Decidable (Figures cs) := inferInstanceAs (Decidable (_ = true))

namespace Figures

theorem mem {cs : List Char} (h : Figures cs) : ∀ c ∈ cs, figure c = true := List.all_eq_true.1 h

theorem of_mem {cs : List Char} (h : ∀ c ∈ cs, figure c = true) : Figures cs :=
  List.all_eq_true.2 h

theorem append {cs ds : List Char} (hc : Figures cs) (hd : Figures ds) : Figures (cs ++ ds) :=
  of_mem (List.forall_mem_append.2 ⟨hc.mem, hd.mem⟩)

theorem cons {c : Char} {cs : List Char} (hc : figure c = true) (hcs : Figures cs) :
    Figures (c :: cs) :=
  of_mem (List.forall_mem_cons.2 ⟨hc, hcs.mem⟩)

theorem of_subset {cs ds : List Char} (h : cs ⊆ ds) (hd : Figures ds) : Figures cs :=
  of_mem fun c hc => hd.mem c (h hc)

theorem replicate {c : Char} (hc : figure c = true) (n : Nat) : Figures (List.replicate n c) := by
  refine of_mem fun d hd => ?_
  rwa [List.eq_of_mem_replicate hd]

theorem digits (n : Nat) : Figures (Decimal.digitsText n) := by
  refine of_mem fun c hc => ?_
  have hdigit : c.isDigit = true := Nat.isDigit_of_mem_toDigits (by decide) (by decide) hc
  simp [figure, Char.isAlphanum, hdigit]

theorem exponentText (n : Int) : Figures (FloatText.exponentText n) := by
  unfold FloatText.exponentText
  apply cons
  · split <;> decide
  · split
    · exact cons (by decide) (digits _)
    · exact digits _

theorem positional {cs : List Char} (hcs : Figures cs) (point : Int) :
    Figures (FloatText.positional cs point) := by
  have hzero : figure '0' = true := by decide
  have hpoint : figure '.' = true := by decide
  unfold FloatText.positional
  split
  · exact cons hzero (cons hpoint ((replicate hzero _).append hcs))
  dsimp only
  split
  · exact (hcs.append (replicate hzero _)).append (cons hpoint (cons hzero rfl))
  · exact (of_subset (List.take_subset _ _) hcs).append
      (cons hpoint (of_subset (List.drop_subset _ _) hcs))

theorem scientific {cs : List Char} (hcs : Figures cs) (n : Int) :
    Figures (FloatText.scientific cs n) := by
  have he : figure 'e' = true := by decide
  unfold FloatText.scientific
  split
  · exact hcs
  · exact cons (hcs.mem _ List.mem_cons_self) (cons he (exponentText n))
  · obtain ⟨hc, hrest⟩ := List.forall_mem_cons.1 hcs.mem
    exact cons hc (cons (by decide) ((of_mem hrest).append (cons he (exponentText n))))

theorem layOut (style : FloatStyle) (d : Decimal) : Figures (FloatText.layOut style d) := by
  have hsignificant : Figures
      (((Decimal.digitsText d.digits).reverse.dropWhile (· == '0')).reverse) := by
    refine of_subset (fun c hc => ?_) (digits d.digits)
    exact List.mem_reverse.1 ((List.dropWhile_sublist _).subset (List.mem_reverse.1 hc))
  unfold FloatText.layOut
  dsimp only
  split
  · exact positional hsignificant _
  · exact scientific hsignificant _

theorem floatText (x : Float) : Figures (Value.floatText x).toList := by
  have hsign : Figures (if (Exact.decode x).1 then ['-'] else []) := by
    split
    · decide
    · decide
  unfold Value.floatText FloatText.shortest
  split
  · decide
  dsimp only
  split
  · rw [String.toList_append, String.toList_ofList]
    exact hsign.append (by decide)
  split
  · rw [String.toList_ofList]
    exact hsign.append (by decide)
  · rw [String.toList_ofList]
    exact hsign.append (layOut _ _)

theorem integer (n : Int) : Figures (toString n).toList := by
  have hnatural (k : Nat) : Figures k.repr.toList := by
    rw [Nat.repr_eq_ofList_toDigits, String.toList_ofList]
    exact digits k
  rw [Int.toString_eq_repr, Int.repr_eq_if]
  split
  · exact hnatural _
  · rw [String.toList_append]
    exact append (by decide) (hnatural _)

end Figures

theorem not_mark_of_figure {c : Char} (h : figure c = true) : ¬ Argument.Mark (.char c) := by
  rintro (hc | hc | hc) <;> rw [Text.Point.char.inj hc] at h <;> exact absurd h (by decide)

/-- Values that are the same text, or that are no texts and have one token. -/
inductive Value.WrittenAlike (v w : Value) : Prop
  | texts {ps : List Point} (hv : v.points? = some ps) (hw : w.points? = some ps)
  | tokens {s : String} (hv : v.points? = none) (hw : w.points? = none) (hs : v.token = .ok s)
      (ht : w.token = .ok s)

namespace Value

theorem token_int_eq_ok_iff (n : Int) (s : String) :
    token (.int n) = .ok s ↔ longInteger n = false ∧ toString n = s := by
  rw [token, integerToken]
  cases longInteger n <;> simp

theorem figures_of_token {v : Value} {s : String} (h : v.token = .ok s) : Figures s.toList := by
  cases v with
  | bool b => cases b <;> obtain rfl := Except.ok.inj h <;> decide
  | int n =>
    obtain ⟨-, rfl⟩ := (token_int_eq_ok_iff n s).1 h
    exact Figures.integer n
  | float x =>
    obtain rfl := Except.ok.inj h
    unfold floatToken
    split
    · exact Figures.integer _
    · exact Figures.floatText x
  | _ =>
    obtain rfl := Except.ok.inj h
    decide

theorem argument_eq_text_iff (v : Value) (ps : List Point) :
    v.argument = .ok (.text ps) ↔ v.points? = some ps := by
  rw [argument]
  cases v.points? with
  | some qs => simp
  | none => cases v.token <;> simp [Except.map]

theorem argument_eq_token_iff (v : Value) (s : String) :
    v.argument = .ok (.token s) ↔ v.points? = none ∧ v.token = .ok s := by
  rw [argument]
  cases v.points? with
  | some qs => simp
  | none => cases v.token <;> simp [Except.map]

theorem plain_of_argument {v : Value} {a : Argument} (h : v.argument = .ok a) : a.Plain := by
  cases a with
  | text ps => trivial
  | token s =>
    have htoken := ((argument_eq_token_iff v s).1 h).2
    exact fun c hc => not_mark_of_figure ((figures_of_token htoken).mem c hc)

theorem writtenAlike_of_argument {v w : Value} {a : Argument} (hv : v.argument = .ok a)
    (hw : w.argument = .ok a) : WrittenAlike v w := by
  cases a with
  | text ps => exact .texts ((argument_eq_text_iff v ps).1 hv) ((argument_eq_text_iff w ps).1 hw)
  | token s =>
    obtain ⟨hv, hvs⟩ := (argument_eq_token_iff v s).1 hv
    obtain ⟨hw, hws⟩ := (argument_eq_token_iff w s).1 hw
    exact .tokens hv hw hvs hws

theorem WrittenAlike.int_inj {m n : Int} (h : WrittenAlike (.int m) (.int n)) : m = n := by
  obtain ⟨hm, -⟩ | ⟨-, -, hm, hn⟩ := h
  · cases hm
  · have hm := ((token_int_eq_ok_iff m _).1 hm).2
    have hn := ((token_int_eq_ok_iff n _).1 hn).2
    exact Digits.toString_injective (hm.trans hn.symm)

theorem WrittenAlike.bool_inj {b c : Bool} (h : WrittenAlike (.bool b) (.bool c)) : b = c := by
  obtain ⟨hb, -⟩ | ⟨-, -, hb, hc⟩ := h
  · cases hb
  · have hinj : ∀ b c : Bool,
        (if b then "true" else "false") = (if c then "true" else "false") → b = c := by decide
    exact hinj b c (Except.ok.inj (hb.trans hc.symm))

/-- What is neither a text nor a number is written as an underscore. -/
theorem token_of_other {v : Value} (htext : v.points? = none) (hnumber : v.number? = none) :
    v.token = .ok "_" := by
  cases v with
  | text | points => cases htext
  | bool | int | float => cases hnumber
  | _ => rfl

end Value

/-! ### What a graph states -/

/-- What is stated of an entity of a type, if the type is declared: its name, and the values that
are the arguments. -/
def declaredLine? (types : Record α) (type : Value) (values : α → List Value) :
    Option (String × List Value) :=
  match type with
  | .text name => (Record.get? types name).map fun t => (name, values t)
  | _ => none

def Node.line? (s : Schema) (n : Node) : Option (String × List Value) :=
  declaredLine? s.nodeTypes n.type fun t => n.id :: Statement.fieldValues t.fields n.data

def Edge.line? (s : Schema) (e : Edge) : Option (String × List Value) :=
  declaredLine? s.edgeTypes e.type fun t =>
    e.source :: e.target :: Statement.fieldValues t.fields e.data

/-- What is stated of the nodes and of the edges whose types are declared, in order. -/
def lines (s : Schema) (nodes : List Node) (edges : List Edge) : List (String × List Value) :=
  nodes.filterMap (Node.line? s) ++ edges.filterMap (Edge.line? s)

/-- A statement says what a line does. -/
def Says (l : String × List Value) (st : Statement) : Prop :=
  Statement.ofValues l.1 l.2 = .ok st

theorem mapM_eq_ok_iff {α β : Type} {f : α → Result β} {as : List α} {bs : List β} :
    as.mapM f = .ok bs ↔ List.Forall₂ (fun a b => f a = .ok b) as bs := by
  induction as generalizing bs with
  | nil => simp [pure, Except.pure, eq_comm]
  | cons a as ih =>
    simp only [List.mapM_cons, bind_eq_ok_iff, ih, List.forall₂_cons_left_iff]
    constructor
    · rintro ⟨b, hb, bs', hbs, hpure⟩
      exact ⟨b, bs', hb, hbs, (Except.ok.inj hpure).symm⟩
    · rintro ⟨b, bs', hb, hbs, rfl⟩
      exact ⟨b, hb, bs', hbs, rfl⟩

/-- Skipping alike on both sides keeps what is related together. -/
theorem forall₂_filterMap {α β γ : Type} {S : γ → β → Prop}
    {line? : α → Option γ} {write? : α → Result (Option β)}
    (h : ∀ a o, write? a = .ok o → Option.Rel S (line? a) o) {as : List α} {os : List (Option β)}
    (hos : List.Forall₂ (fun a o => write? a = .ok o) as os) :
    List.Forall₂ S (as.filterMap line?) (os.filterMap id) := by
  induction hos with
  | nil => exact .nil
  | @cons a o as os hao _ ih =>
    have hrel := h a o hao
    cases hl : line? a with
    | none =>
      rw [hl] at hrel
      cases hrel
      rw [List.filterMap_cons_none hl]
      exact ih
    | some l =>
      rw [hl] at hrel
      cases hrel with
      | some hlo => rw [List.filterMap_cons_some hl]; exact .cons hlo ih

/-- Lists that are related to one and the same list are related. -/
theorem forall₂_of_common {α β : Type} {R : α → β → Prop} {S : α → α → Prop}
    (hS : ∀ {a a' b}, R a b → R a' b → S a a') {as as' : List α} {bs : List β}
    (h : List.Forall₂ R as bs) (h' : List.Forall₂ R as' bs) : List.Forall₂ S as as' := by
  induction h generalizing as' with
  | nil =>
    cases h'
    exact .nil
  | cons hab _ ih =>
    cases h' with
    | cons hab' hrest => exact .cons (hS hab hab') (ih hrest)

namespace Statement

theorem says_ofDeclared? {types : Record α} {type : Value} {values : α → List Value}
    {o : Option Statement} (h : ofDeclared? types type values = .ok o) :
    Option.Rel Says (declaredLine? types type values) o := by
  obtain ⟨found, hfound, h⟩ := bind_eq_ok_iff.1 h
  unfold declaredLine?
  split
  · rename_i name
    obtain rfl := Except.ok.inj hfound
    cases hget : types.get? name with
    | none =>
      rw [hget] at h
      obtain rfl := Except.ok.inj h
      exact .none
    | some t =>
      rw [hget] at h
      obtain ⟨st, hst, h⟩ := bind_eq_ok_iff.1 h
      obtain rfl := Except.ok.inj h
      exact .some hst
  · rename_i hother
    cases found with
    | none =>
      obtain rfl := Except.ok.inj h
      exact .none
    | some p => exact absurd ((Graph.declared?_eq_some_iff types type p).1 hfound).1 (hother p.1)

theorem says_ofGraph {s : Schema} {nodes : List Node} {edges : List Edge} {ss : List Statement}
    (h : ofGraph s nodes edges = .ok ss) : List.Forall₂ Says (lines s nodes edges) ss := by
  obtain ⟨ns, hns, h⟩ := bind_eq_ok_iff.1 h
  obtain ⟨es, hes, h⟩ := bind_eq_ok_iff.1 h
  obtain rfl := Except.ok.inj h
  exact List.rel_append
    (forall₂_filterMap (fun n o => says_ofDeclared?) (mapM_eq_ok_iff.1 hns))
    (forall₂_filterMap (fun e o => says_ofDeclared?) (mapM_eq_ok_iff.1 hes))

theorem of_says {l : String × List Value} {st : Statement} (h : Says l st) :
    st.type = l.1 ∧ List.Forall₂ (fun v a => v.argument = .ok a) l.2 st.arguments := by
  obtain ⟨as, has, h⟩ := bind_eq_ok_iff.1 h
  obtain rfl := Except.ok.inj h
  exact ⟨rfl, mapM_eq_ok_iff.1 has⟩

theorem plain_of_says {l : String × List Value} {st : Statement} (h : Says l st)
    (htype : '(' ∉ l.1.toList) (hvalues : l.2 ≠ []) : st.Plain := by
  obtain ⟨hname, has⟩ := of_says h
  refine ⟨hname ▸ htype, ?_,
    Graph.forall_mem_of_forall₂ has fun v _ a ha => Value.plain_of_argument ha⟩
  intro hnil
  rw [hnil, List.forall₂_nil_right_iff] at has
  exact hvalues has

end Statement

theorem mem_keys_of_declaredLine? {types : Record α} {type : Value} {values : α → List Value}
    {l : String × List Value} (h : declaredLine? types type values = some l) :
    l.1 ∈ Record.keys types ∧ ∃ t, l.2 = values t := by
  unfold declaredLine? at h
  split at h
  · obtain ⟨t, ht, rfl⟩ := Option.map_eq_some_iff.1 h
    refine ⟨?_, t, rfl⟩
    by_contra habsent
    rw [(Record.get?_eq_none_iff types _).2 habsent] at ht
    cases ht
  · cases h

theorem mem_lines {s : Schema} {nodes : List Node} {edges : List Edge} {l : String × List Value}
    (h : l ∈ lines s nodes edges) :
    l.1 ∈ Record.keys s.nodeTypes ++ Record.keys s.edgeTypes ∧ l.2 ≠ [] := by
  rw [lines, List.mem_append, List.mem_filterMap, List.mem_filterMap] at h
  rcases h with ⟨n, -, hn⟩ | ⟨e, -, he⟩
  · obtain ⟨hname, t, hvalues⟩ := mem_keys_of_declaredLine? hn
    exact ⟨List.mem_append_left _ hname, by simp [hvalues]⟩
  · obtain ⟨hname, t, hvalues⟩ := mem_keys_of_declaredLine? he
    exact ⟨List.mem_append_right _ hname, by simp [hvalues]⟩

/-- Lines that one statement says are alike. -/
theorem alike_of_says {l l' : String × List Value} {st : Statement} (h : Says l st)
    (h' : Says l' st) : l.1 = l'.1 ∧ List.Forall₂ Value.WrittenAlike l.2 l'.2 := by
  obtain ⟨htype, has⟩ := Statement.of_says h
  obtain ⟨htype', has'⟩ := Statement.of_says h'
  refine ⟨htype.symm.trans htype', forall₂_of_common ?_ has has'⟩
  exact Value.writtenAlike_of_argument

/-- If no name of a type holds a parenthesis, two graphs that are written as one text are stated
alike: their lines are about the same types in the same order, and their arguments are the same
texts, or no texts and written alike.  Integers and truth values are the same then, and all that is
neither a text nor a number is written as an underscore. -/
theorem lines_writtenAlike {s : Schema}
    (hnames : ∀ name ∈ Record.keys s.nodeTypes ++ Record.keys s.edgeTypes, '(' ∉ name.toList)
    {nodes nodes' : List Node} {edges edges' : List Edge} {text : List Point}
    (h : renderGraph s nodes edges = .ok text) (h' : renderGraph s nodes' edges' = .ok text) :
    List.Forall₂ (fun l l' => l.1 = l'.1 ∧ List.Forall₂ Value.WrittenAlike l.2 l'.2)
        (lines s nodes edges) (lines s nodes' edges') ∧
      (∀ m n : Int, Value.WrittenAlike (.int m) (.int n) → m = n) ∧
      (∀ b c : Bool, Value.WrittenAlike (.bool b) (.bool c) → b = c) ∧
      ∀ v : Value, v.points? = none → v.number? = none → v.token = .ok "_" := by
  have hstated : ∀ {nodes : List Node} {edges : List Edge},
      renderGraph s nodes edges = .ok text → ∃ ss, List.Forall₂ Says (lines s nodes edges) ss ∧
        (∀ st ∈ ss, st.Plain) ∧ Statement.render ss = text := by
    intro nodes edges h
    obtain ⟨ss, hss, h⟩ := bind_eq_ok_iff.1 h
    have hsays := Statement.says_ofGraph hss
    refine ⟨ss, hsays, Graph.forall_mem_of_forall₂ hsays fun l hl st hst => ?_, Except.ok.inj h⟩
    obtain ⟨hname, hvalues⟩ := mem_lines hl
    exact Statement.plain_of_says hst (hnames _ hname) hvalues
  obtain ⟨ss, hsays, hplain, hrender⟩ := hstated h
  obtain ⟨ss', hsays', hplain', hrender'⟩ := hstated h'
  obtain rfl := Statement.eq_of_render_eq hplain hplain' (hrender.trans hrender'.symm)
  refine ⟨forall₂_of_common ?_ hsays hsays', ?_, ?_, ?_⟩
  · exact alike_of_says
  · exact fun _ _ => Value.WrittenAlike.int_inj
  · exact fun _ _ => Value.WrittenAlike.bool_inj
  · exact fun _ => Value.token_of_other

/-! ### One text of two graphs -/

/-- Notes with a line and a page, which cite one another. -/
def noteSchema : Schema where
  nodeTypes := [("note", ⟨"note", "", [], [("line", .string), ("page", .number)], none⟩)]
  edgeTypes := [("cites", ⟨"cites", "", ⟨"note", true, false⟩, ⟨"note", true, false⟩, [],
    [("in full", .boolean)], none⟩)]

def note (id : String) (data : Record Value) : Node :=
  ⟨.text id, .text "note", .ofRecord data, .null, .null, none⟩

def citation (source target : String) (data : Record Value) : Edge :=
  ⟨.null, .text "cites", .text source, .text target, .ofRecord data, .null, .null⟩

/-- A line that looks like the end of a statement and the start of another. -/
def crookedLine : Value := .text "\\\", 1).\nnote(\"b"

def notes : List Node :=
  [note "a" [("line", crookedLine), ("page", .int 1)],
    note "b)" [("line", .text ""), ("page", .null)]]

/-- The same in another order, with a page that is missing and an aside that is not declared. -/
def rearrangedNotes : List Node :=
  [note "a" [("page", .int 1), ("line", crookedLine)],
    note "b)" [("aside", .bool true), ("line", .text "")]]

def crookedText : List Point :=
  ("note(\"a\", \"\\\\\\\", 1).\nnote(\\\"b\", 1).\n" ++
    "note(\"b)\", \"\", _).\ncites(\"a\", \"b)\", true).").toList.map .char

theorem renderGraph_of_toOption {s : Schema} {nodes : List Node} {edges : List Edge}
    {text : List Point} (h : (renderGraph s nodes edges).toOption = some text) :
    renderGraph s nodes edges = .ok text := by
  cases hr : renderGraph s nodes edges <;> rw [hr] at h <;> cases h
  rfl

theorem lines_writtenAlike_notes :
    (∀ name ∈ Record.keys noteSchema.nodeTypes ++ Record.keys noteSchema.edgeTypes,
        '(' ∉ name.toList) ∧
      renderGraph noteSchema notes [citation "a" "b)" [("in full", .bool true)]] =
        .ok crookedText ∧
      renderGraph noteSchema rearrangedNotes [citation "a" "b)" [("in full", .bool true)]] =
        .ok crookedText ∧
      List.Forall₂ (fun l l' => l.1 = l'.1 ∧ List.Forall₂ Value.WrittenAlike l.2 l'.2)
        (lines noteSchema notes [citation "a" "b)" [("in full", .bool true)]])
        (lines noteSchema rearrangedNotes [citation "a" "b)" [("in full", .bool true)]]) := by
  have hnames : ∀ name ∈ Record.keys noteSchema.nodeTypes ++ Record.keys noteSchema.edgeTypes,
      '(' ∉ name.toList := by decide
  have hnotes : renderGraph noteSchema notes [citation "a" "b)" [("in full", .bool true)]] =
      .ok crookedText := by
    apply renderGraph_of_toOption
    decide +kernel
  have hrearranged : renderGraph noteSchema rearrangedNotes
      [citation "a" "b)" [("in full", .bool true)]] = .ok crookedText := by
    apply renderGraph_of_toOption
    decide +kernel
  exact ⟨hnames, hnotes, hrearranged, (lines_writtenAlike hnames hnotes hrearranged).1⟩

end PropertyGraph
