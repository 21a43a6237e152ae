import PropertyGraph.Proofs.Graph.Acceptance
import PropertyGraph.Proofs.Session.Revision

/-!
# Acceptance in a session

In every session that can come about from an empty one with a schema, while identifiers and types
are texts, the update of a node that is there hangs on the changes and on the type of the node
alone, and not on its data (`updateNode_accepted`).  What is not accepted leaves everything as it
was, listeners and history included.
-/

namespace PropertyGraph.Session

open PropertyGraph.Graph

variable {depth : Nat} {s : Session} {n : Node} {changes : Record Value}

/-- An update of a node is accepted exactly if its changes are acceptable for the type of the node,
and it succeeds then unless a listener fails; if not, nothing happens.  Of the data the given fields
take their new values in their places; identifier and type stay, and so does everything else in the
graph, as long as the listeners leave it alone.  What comes of the update is the node that is found
then. -/
theorem updateNode_accepted {schema : Schema} {policy : Policy} {provider : Option Provider}
    (hs : Moves (start (some schema) policy provider) s) (htext : s.textual = true)
    {before after : List Node} (hsplit : s.graph.nodes = before ++ n :: after)
    (ha : ∀ fs, Entity.changedData? changes = some fs → fs.Apart) :
    let update := Command.updateNode n.id (.record changes)
    let done := carryOut (run (depth + 1) update) s
    ∃ name t, n.type = .text name ∧ schema.nodeType? name = some t ∧
      ((∀ f, done.1 = .error f → ¬ FromListener (run depth) s f done.2) →
        (done.1.isOk = true ↔ Entity.Acceptable t.fields changes)) ∧
      (¬ Entity.Acceptable t.fields changes → ∃ f, done = (.error f, s)) ∧
      (Entity.Acceptable t.fields changes → LeftAlone (run depth) (run (depth + 1) update) s →
        ∃ m, Entity.Renews changes n m ∧
          Comes depth update s { s.graph with nodes := before ++ m :: after }
            (.ok (.node (some m))) ∧
          done.2.answer (.node n.id) = .ok (.node (some m))) := by
  intro update done
  have hv : Valid (some schema) s.graph := hs.valid htext
  have hschema : s.schema = some schema := hs.schema_eq
  have hn : n ∈ s.graph.nodes := hsplit ▸ List.mem_append_right before List.mem_cons_self
  obtain ⟨name, t, htype, ht, -⟩ := (hv.conforming schema rfl).nodes n hn
  have haccepted := hv.exists_updateNode_iff hn htype ht ha
  refine ⟨name, t, htype, ht, ?_⟩
  by_cases hacceptable : Entity.Acceptable t.fields changes
  · obtain ⟨g, m, h⟩ := haccepted.2 hacceptable
    obtain ⟨hrenews, hg⟩ := hv.renews_of_updateNode hn htype ht ha h hsplit
    rw [← hschema] at hv h
    have hrevises : Revises s.schema s.graph n.id changes .node g (.node m) := .node h
    refine ⟨fun hunfailing => iff_of_true ?_ hacceptable, absurd hacceptable, fun _ hleft => ?_⟩
    · have hrun := carryOut_run_update hrevises depth
      have hok : done.1 = .ok (.node (some m)) := by
        refine (committed_or_fromListener hrevises.step hrun (moving_run depth)).resolve_right ?_
        rintro ⟨f, hf, hfrom⟩
        exact hunfailing f hf hfrom
      rw [hok]
      rfl
    · have hcomes := comes_of_revises hrevises hleft
      have hdone : done.2.graph = g := hcomes.graph
      have hfound : g.node? n.id = some m := by
        refine ((hrevises.valid hv).sound.node?_eq_some_iff n.id m).2 ⟨?_, hrenews.id⟩
        rw [hg]
        exact List.mem_append_right before List.mem_cons_self
      refine ⟨m, hrenews, hg ▸ hcomes, ?_⟩
      show Except.ok (Outcome.node (done.2.graph.node? n.id)) = _
      rw [hdone, hfound]
  · rw [← hschema] at hv haccepted
    have hid : n.id ∈ (s.graph.roster .node).ids :=
      (ids_roster_node s.graph).symm ▸ List.mem_map_of_mem hn
    obtain ⟨f, hf⟩ : ∃ f, done = (.error f, s) := by
      refine (revises_or_refused hv hid changes depth).resolve_left ?_
      rintro ⟨g, _, ⟨h⟩⟩
      exact hacceptable (haccepted.1 ⟨g, _, h⟩)
    refine ⟨fun _ => iff_of_false ?_ hacceptable, fun _ => ⟨f, hf⟩, (absurd · hacceptable)⟩
    rw [hf]
    exact nofun

/-- Items with a label and a weight. -/
def weighedType : NodeType where
  name := "item"
  description := ""
  synonyms := []
  fields := [("label", .string), ("weight", .number)]
  access := none

/-- An item and its weight, as a document. -/
def weighedItem (id : String) (weight : Int) : Value :=
  .record [("id", .text id), ("type", .text "item"),
    ("data", .record [("weight", .int weight), ("label", .text id)])]

/-- Three items, the first two of which are paired, while `counter` listens. -/
def weighed : Session :=
  { afterAll 1 [.addNodes (.list [weighedItem "a" 1, weighedItem "b" 2, weighedItem "c" 3]),
      .addEdge (pair "ab" "a" "b")]
      (start (some { pairSchema with nodeTypes := [("item", weighedType)] }) plainPolicy none) with
    bus := (Bus.empty.subscribe .nodeUpdated counter).2 }

/-- An item as it is held. -/
def held (id : String) (weight : Int) : Node :=
  ⟨.text id, .text "item", [(.text "weight", .int weight), (.text "label", .text id)], .null, .null,
    none⟩

/-- Gives an item another weight and a vector; the identifier is passed over. -/
def reweighing : Record Value :=
  [("id", .text "z"), ("embedding", .tuple [.float 0.5, .bool true]),
    ("data", .record [("weight", .float 2.5)])]

theorem acceptable_reweighing : Entity.Acceptable weighedType.fields reweighing where
  fields := by decide
  vector v hv _ := by
    obtain rfl := Option.some.inj hv
    refine ⟨_, rfl, List.forall_mem_cons.2 ⟨⟨_, rfl⟩, List.forall_mem_singleton.2 ⟨_, rfl⟩⟩⟩
  data fs hfs := by
    obtain rfl := Option.some.inj hfs
    exact List.forall_mem_singleton.2 ⟨"weight", .number, rfl, rfl, rfl⟩

/-- The item in the middle is weighed again, and a weight that is a text is refused. -/
theorem weighed_updateNode_accepted :
    let update := Command.updateNode (.text "b") (.record reweighing)
    let misfit : Record Value := [("data", .record [("weight", .text "2")])]
    weighed.textual = true ∧ weighed.graph.nodes = [held "a" 1] ++ held "b" 2 :: [held "c" 3] ∧
      (∃ m, Entity.Renews reweighing (held "b" 2) m ∧
        Comes 2 update weighed { weighed.graph with nodes := [held "a" 1] ++ m :: [held "c" 3] }
          (.ok (.node (some m))) ∧
        (carryOut (run 3 update) weighed).2.answer (.node (.text "b")) = .ok (.node (some m))) ∧
      ∃ f, carryOut (run 3 (.updateNode (.text "b") (.record misfit))) weighed =
        (.error f, weighed) := by
  intro update misfit
  have hmoves : Moves (start (some { pairSchema with nodeTypes := [("item", weighedType)] })
      plainPolicy none) weighed :=
    (moves_afterAll 1 _ _).tail (.listening _ _)
  have htext : weighed.textual = true := by decide +kernel
  have hsplit : weighed.graph.nodes = [held "a" 1] ++ held "b" 2 :: [held "c" 3] := by rfl
  have hspares : weighed.HeardBy fun _ listener => listener.Spares := by
    simp [weighed, HeardBy, Bus.subscribe, Bus.empty, counter_spares]
  have hapart : ∀ changes r, Entity.changedData? changes = some (Fields.ofRecord r) →
      (Record.keys r).Nodup →
        ∀ fs, Entity.changedData? changes = some fs → fs.Apart := by
    intro changes r hr hkeys fs hfs
    obtain rfl := Option.some.inj (hr.symm.trans hfs)
    exact Fields.apart_ofRecord hkeys
  refine ⟨htext, hsplit, ?_, ?_⟩
  · obtain ⟨name, t, hname, ht, -, -, hrenewed⟩ :=
      @updateNode_accepted 2 weighed (held "b" 2) reweighing _ plainPolicy none hmoves htext _ _
        hsplit (hapart _ _ rfl (by decide))
    obtain rfl := Value.text.inj hname
    obtain rfl := Option.some.inj ht
    exact hrenewed acceptable_reweighing (leftAlone_of_spares hspares 2 _)
  · obtain ⟨name, t, hname, ht, -, hrefused, -⟩ :=
      @updateNode_accepted 2 weighed (held "b" 2) misfit _ plainPolicy none hmoves htext _ _
        hsplit (hapart _ _ rfl (by decide))
    obtain rfl := Value.text.inj hname
    obtain rfl := Option.some.inj ht
    refine hrefused fun h => ?_
    obtain ⟨name, kind, hlabel, hkind, haccepts⟩ := h.data _ rfl _ List.mem_cons_self
    obtain rfl := Value.text.inj hlabel
    obtain rfl := Option.some.inj hkind
    cases haccepts

end PropertyGraph.Session
