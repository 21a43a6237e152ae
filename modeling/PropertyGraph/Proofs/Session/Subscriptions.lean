import PropertyGraph.Proofs.Bus.Course
import PropertyGraph.Proofs.Session.Dispatch

/-!
# Subscriptions

Whatever commands are given to a session, by listeners too and however they fail, its bus goes along
a course, on which the events that are told and the calls of listeners are those of the history, and
which has all that came of the commands of listeners for subscriptions (`onCourse_run`).  So
everything that is so of courses is so of runs: `subscriptions_kept` puts together what this means
for subscriptions and their tokens.
-/

namespace PropertyGraph

open Bus (Course Next Happening)

/-- What a history says about a bus. -/
inductive Remark where
  | told (event : Event)
  | called (token : Nat) (name : String)
  /-- A listener subscribed somebody. -/
  | subscribed (s : Subscription)
  /-- A listener ended a subscription, if it was there. -/
  | ended (event : String) (token : Int) (held : Bool)
deriving DecidableEq

/-- Whether an event was told, or a listener called. -/
def Remark.isDispatch : Remark → Bool
  | told _ | called _ _ => true
  | _ => false

def Occurrence.remark? : Occurrence → Option Remark
  | .told event _ => some (.told event)
  | .called token name _ _ => some (.called token name)
  | .did _ (.subscribe _ _) (.ok (.subscribed s)) _ => some (.subscribed s)
  | .did _ (.unsubscribe event token) (.ok (.flag held)) _ =>
    if 0 ≤ token then some (.ended event token held) else none
  | _ => none

def Bus.Happening.remark? : Happening Listener → Option Remark
  | .emitted _ event => some (.told event)
  | .called _ e => some (.called e.subscription.token e.listener.name)
  | .subscribed s _ => some (.subscribed s)
  | .unsubscribed s held => some (.ended s.event.name s.token held)
  | _ => none

namespace Session

/-- A log says of what happened who was told and called, and of subscriptions only what came of the
commands of listeners. -/
structure Records (log : List Occurrence) (hs : List (Happening Listener)) : Prop where
  dispatched : (log.filterMap Occurrence.remark?).filter Remark.isDispatch =
    (hs.filterMap Happening.remark?).filter Remark.isDispatch
  said : (log.filterMap Occurrence.remark?).Sublist (hs.filterMap Happening.remark?)

theorem Records.append {log log' : List Occurrence} {hs hs' : List (Happening Listener)}
    (h : Records log hs) (h' : Records log' hs') : Records (log ++ log') (hs ++ hs') where
  dispatched := by
    simp only [List.filterMap_append, List.filter_append, h.dispatched, h'.dispatched]
  said := by simpa only [List.filterMap_append] using h.said.append h'.said

/-- From one state of a bus to another by what is written down in a log. -/
def Along (m : Bus.State Listener) (log : List Occurrence) (m' : Bus.State Listener) : Prop :=
  ∃ hs, Course m hs m' ∧ Records log hs

namespace Along

variable {m m' m'' : Bus.State Listener} {log log' : List Occurrence} {h : Happening Listener}

theorem quiet (hlog : log.filterMap Occurrence.remark? = []) (m : Bus.State Listener) :
    Along m log m := ⟨[], .nil m, by rw [hlog]; rfl, by rw [hlog]; exact .slnil⟩

theorem trans (h : Along m log m') (h' : Along m' log' m'') : Along m (log ++ log') m'' := by
  obtain ⟨hs, hcourse, hrecords⟩ := h
  obtain ⟨hs', hcourse', hrecords'⟩ := h'
  exact ⟨hs ++ hs', hcourse.trans hcourse', hrecords.append hrecords'⟩

/-- Something that is not written down. -/
theorem unwritten (hnext : Next m h m')
    (hsilent : ([h].filterMap Happening.remark?).filter Remark.isDispatch = []) : Along m [] m' :=
  ⟨[h], .single hnext, hsilent.symm, List.nil_sublist _⟩

/-- Something that is written down. -/
theorem written {o : Occurrence} (hnext : Next m h m') (hsame : o.remark? = h.remark?) :
    Along m [o] m' := by
  have hremarks : [o].filterMap Occurrence.remark? = [h].filterMap Happening.remark? := by
    simp only [List.filterMap_cons, hsame, List.filterMap_nil]
  refine ⟨[h], .single hnext, ?_, ?_⟩
  · rw [hremarks]
  · rw [hremarks]

end Along

/-- What happened between two sessions is a course of the bus, whatever is to be called when it is
over. -/
def OnCourse (s t : Session) : Prop :=
  ∃ log, t.history = s.history ++ log ∧ ∀ begun pending, ∃ begun',
    Along ⟨s.bus, begun, pending⟩ log ⟨t.bus, begun', pending⟩

theorem OnCourse.of_quiet {s t : Session} (hbus : t.bus = s.bus) {log : List Occurrence}
    (hhistory : t.history = s.history ++ log)
    (hlog : log.filterMap Occurrence.remark? = []) : OnCourse s t := by
  refine ⟨log, hhistory, fun begun pending => ⟨begun, ?_⟩⟩
  rw [hbus]
  exact .quiet hlog _

theorem OnCourse.of_next {s : Session} {bus : Bus Listener} {latest : Record Subscription}
    {h : Happening Listener}
    (hsilent : ([h].filterMap Happening.remark?).filter Remark.isDispatch = [])
    (hnext : ∀ begun pending, Next ⟨s.bus, begun, pending⟩ h ⟨bus, begun, pending⟩) :
    OnCourse s { s with bus, latest } :=
  ⟨[], (List.append_nil _).symm, fun begun pending =>
    ⟨begun, .unwritten (hnext begun pending) hsilent⟩⟩

instance : IsPreorder Session OnCourse where
  refl s := .of_quiet rfl (List.append_nil _).symm rfl
  trans s t u h h' := by
    obtain ⟨log, hlog, hst⟩ := h
    obtain ⟨log', hlog', htu⟩ := h'
    refine ⟨log ++ log', by rw [hlog', hlog, List.append_assoc], fun begun pending => ?_⟩
    obtain ⟨begun', hst⟩ := hst begun pending
    obtain ⟨begun'', htu⟩ := htu begun' pending
    exact ⟨begun'', hst.trans htu⟩

/-! ### Telling -/

section Telling

variable {inner : Command → Act Outcome} {payload : List Payload} {e : Bus.Entry Listener}
  {es : List (Bus.Entry Listener)} {event : Event} {s t : Session} {r : Result Unit}

/-- The next of an emission is called, and then it does what it does. -/
theorem Called.along (h : Called inner OnCourse payload e s r t) :
    ∃ log, t.history = s.history ++ log ∧ ∀ n left begun pending, ∃ begun',
      Along ⟨s.bus, begun, ⟨n, e :: left⟩ :: pending⟩ log
        ⟨t.bus, begun', ⟨n, left⟩ :: pending⟩ := by
  obtain ⟨log, hlog, hconduct⟩ := h.conduct
  refine ⟨_ :: log, by rw [hlog, List.append_assoc, List.singleton_append], ?_⟩
  intro n left begun pending
  obtain ⟨begun', hrest⟩ := hconduct begun (⟨n, left⟩ :: pending)
  exact ⟨begun', (Along.written (.call rfl) rfl).trans hrest⟩

theorem CalledAll.along (h : CalledAll inner OnCourse payload es s t) :
    ∃ log, t.history = s.history ++ log ∧ ∀ n left begun pending, ∃ begun',
      Along ⟨s.bus, begun, ⟨n, es ++ left⟩ :: pending⟩ log
        ⟨t.bus, begun', ⟨n, left⟩ :: pending⟩ := by
  induction h with
  | nil s => exact ⟨[], (List.append_nil _).symm, fun n left begun pending =>
      ⟨begun, .quiet rfl _⟩⟩
  | cons hfirst _ ih =>
    obtain ⟨log, hlog, hcalled⟩ := hfirst.along
    obtain ⟨log', hlog', hrest⟩ := ih
    refine ⟨log ++ log', by rw [hlog', hlog, List.append_assoc], ?_⟩
    intro n left begun pending
    obtain ⟨begun', hcalled⟩ := hcalled n (_ ++ left) begun pending
    obtain ⟨begun'', hrest⟩ := hrest n left begun' pending
    exact ⟨begun'', hcalled.trans hrest⟩

/-- An event that is told is an emission, from its beginning until it is over. -/
theorem Dispatch.onCourse (h : Dispatch inner OnCourse event payload s r t) : OnCourse s t := by
  -- whoever is left to be called then is not called any more
  have hover : ∀ log left, t.history = (s.noted (.told event payload)).history ++ log →
      (∀ n begun pending, ∃ begun',
        Along ⟨s.bus, begun, ⟨n, s.bus.entriesOf event⟩ :: pending⟩ log
          ⟨t.bus, begun', ⟨n, left⟩ :: pending⟩) → OnCourse s t := by
    intro log left hlog hcalled
    refine ⟨.told event payload :: log, ?_, fun begun pending => ?_⟩
    · rw [hlog, List.append_assoc, List.singleton_append]
    obtain ⟨begun', hcalled⟩ := hcalled begun (begun + 1) pending
    have hfinished := (Along.unwritten (.finish rfl) rfl :
      Along ⟨t.bus, begun', ⟨begun, left⟩ :: pending⟩ [] ⟨t.bus, begun', pending⟩)
    have hemitted := Next.emit (m := ⟨s.bus, begun, pending⟩) event
    have htold := Along.written (o := .told event payload) hemitted rfl
    have hall := (htold.trans hcalled).trans hfinished
    rw [List.append_nil] at hall
    exact ⟨begun', hall⟩
  cases h with
  | completed hall =>
    obtain ⟨log, hlog, hcalled⟩ := hall.along
    refine hover log [] hlog fun n begun pending => ?_
    have hcalled := hcalled n [] begun pending
    rwa [List.append_nil] at hcalled
  | @failed before after e u _ f hentries hbefore hfailed =>
    obtain ⟨log, hlog, hcalled⟩ := hbefore.along
    obtain ⟨log', hlog', hlast⟩ := hfailed.along
    refine hover (log ++ log') after ?_ fun n begun pending => ?_
    · rw [hlog', hlog, List.append_assoc]
    · rw [hentries]
      obtain ⟨begun', hcalled⟩ := hcalled n (e :: after) begun pending
      obtain ⟨begun'', hlast⟩ := hlast n after begun' pending
      exact ⟨begun'', hcalled.trans hlast⟩

end Telling

/-! ### Runs -/

theorem carryOut_run_subscribe (depth : Nat) (name : String) (listener : Listener) (s : Session) :
    carryOut (run (depth + 1) (.subscribe name listener)) s =
      match Event.ofName name with
      | .ok event => (.ok (.subscribed (s.bus.subscribe event listener).1), { s with
          bus := (s.bus.subscribe event listener).2
          latest := Record.set s.latest listener.name (s.bus.subscribe event listener).1 })
      | .error f => (.error f, s) := by
  show carryOut (do let event ← settle (Event.ofName name); _) s = _
  rw [carryOut_settle_bind]
  cases Event.ofName name <;> rfl

theorem carryOut_run_unsubscribe (depth : Nat) (name : String) (token : Int) (s : Session) :
    carryOut (run (depth + 1) (.unsubscribe name token)) s =
      match Event.ofName name with
      | .ok event =>
        if 0 ≤ token then
          (.ok (.flag (s.bus.unsubscribe ⟨event, token.toNat⟩).1),
            { s with bus := (s.bus.unsubscribe ⟨event, token.toNat⟩).2 })
        else (.ok (.flag false), s)
      | .error f => (.error f, s) := by
  show carryOut (do let event ← settle (Event.ofName name); _) s = _
  rw [carryOut_settle_bind]
  cases Event.ofName name with
  | error f => rfl
  | ok event =>
    dsimp only
    split <;> rfl

/-- A command of a listener is carried out and written down: what came of it for a subscription is
what came of it on the course. -/
theorem onCourse_did {depth : Nat} (hrun : ∀ c, Leads OnCourse (run depth c)) (s : Session)
    (name : String) (c : Command) :
    OnCourse s ((carryOut (run depth c) s).2.noted
      (.did name c (carryOut (run depth c) s).1 (carryOut (run depth c) s).2.graph)) := by
  by_cases hsilent : Occurrence.remark?
      (.did name c (carryOut (run depth c) s).1 (carryOut (run depth c) s).2.graph) = none
  · have hnoted : ∀ (t : Session) (o : Occurrence), o.remark? = none → OnCourse t (t.noted o) :=
      fun t o ho => .of_quiet rfl rfl (by rw [List.filterMap_cons_none ho, List.filterMap_nil])
    exact trans_of OnCourse (hrun c s) (hnoted _ _ hsilent)
  cases depth with
  | zero => cases c <;> exact absurd rfl hsilent
  | succ depth =>
    cases c with
    | subscribe event listener =>
      rw [carryOut_run_subscribe] at hsilent ⊢
      cases hevent : Event.ofName event with
      | error f =>
        rw [hevent] at hsilent
        exact absurd rfl hsilent
      | ok e =>
        exact ⟨[_], rfl, fun begun pending => ⟨begun, .written (.subscribe e listener) rfl⟩⟩
    | unsubscribe event token =>
      rw [carryOut_run_unsubscribe] at hsilent ⊢
      cases hevent : Event.ofName event with
      | error f =>
        rw [hevent] at hsilent
        exact absurd rfl hsilent
      | ok e =>
        dsimp only
        rw [hevent] at hsilent
        by_cases htoken : 0 ≤ token
        · rw [if_pos htoken]
          refine ⟨[_], rfl, fun begun pending =>
            ⟨begun, .written (.unsubscribe ⟨e, token.toNat⟩) ?_⟩⟩
          show (if 0 ≤ token then some (Remark.ended event token _) else none) =
            some (.ended e.name token.toNat _)
          rw [if_pos htoken, Event.name_of_ofName hevent, Int.toNat_of_nonneg htoken]
        · have hnone : Occurrence.remark? (.did name (.unsubscribe event token)
              (.ok (.flag false)) s.graph) = none := if_neg htoken
          dsimp only at hsilent
          rw [if_neg htoken] at hsilent
          exact absurd hnone hsilent
    | _ => exact absurd rfl hsilent

/-- Every command takes the bus along a course, whatever listeners do and however deep their
commands nest. -/
theorem onCourse_run : ∀ (depth : Nat) (c : Command), Leads OnCourse (run depth c)
  | 0, _ => .throw _
  | depth + 1, c => by
    have hcall : ∀ payload e s, Called (run depth) OnCourse payload e s
        (carryOut (call (run depth) payload e) s).1
        (carryOut (call (run depth) payload e) s).2 := by
      intro payload e s
      exact ⟨rfl, leads_perform_of_did (onCourse_run depth) (onCourse_did (onCourse_run depth))
        e.listener.name (e.listener.respond (s.calls e.subscription.token) payload) _⟩
    have hpublish : ∀ event payload, Leads OnCourse (publish (run depth) event payload) :=
      fun event payload s => (dispatch_publish hcall event payload s).onCourse
    have hcommit : ∀ s g notices, Graph.Step s.schema s.graph g notices →
        OnCourse s (carryOut (commit (run depth) g notices) s).2 := by
      intro s g notices _
      have htold : Leads OnCourse (notices.forM (tell (run depth))) :=
        .forM fun n => hpublish n.event n.payload
      have hplaced : OnCourse s { s with graph := g } :=
        .of_quiet rfl (List.append_nil _).symm rfl
      exact trans_of _ hplaced (htold _)
    have hready : ∀ s t, Prepared s t → OnCourse s t := by
      rintro s t ⟨made, asked, rfl⟩
      refine .of_quiet rfl rfl (List.filterMap_eq_nil_iff.2 fun o ho => ?_)
      obtain ⟨text, -, rfl⟩ := List.mem_map.1 ho
      rfl
    have hfewer : ∀ (s : Session) (bus : Bus Listener), s.bus.Fewer bus →
        OnCourse s { s with bus } := by
      intro s bus hbus
      cases hbus with
      | unsubscribed subscription =>
        exact .of_next (h := .unsubscribed subscription (s.bus.holds subscription)) rfl
          fun _ _ => .unsubscribe subscription
      | cleared => exact .of_next rfl fun _ _ => .clear
    refine leads_step hfewer (fun ha => ha.leads hready hcommit) (fun event listener _ => ?_)
      fun event args _ e => hpublish e _
    refine .bind (.settle _) fun e s => ?_
    exact .of_next (h := .subscribed (s.bus.subscribe e listener).1 listener) rfl
      fun _ _ => .subscribe e listener

theorem onCourse_afterAll (depth : Nat) (cs : List Command) (s : Session) :
    OnCourse s (afterAll depth cs s) := by
  induction cs generalizing s with
  | nil => exact refl_of _ s
  | cons c rest ih => exact trans_of _ (onCourse_run depth c s) (ih _)

/-- A token that was handed out and is there no more does not come back. -/
theorem token_ne_afterAll (depth : Nat) (cs : List Command) {s : Session} {token : Nat}
    (hissued : token < s.bus.nextToken)
    (habsent : ∀ e ∈ s.bus.entries, e.subscription.token ≠ token) :
    ∀ e ∈ (afterAll depth cs s).bus.entries, e.subscription.token ≠ token := by
  have hgone : Bus.Gone 0 token ⟨s.bus, 0, []⟩ := ⟨hissued, habsent, Nat.le_refl 0, nofun⟩
  obtain ⟨log, -, hcourse⟩ := onCourse_afterAll depth cs s
  obtain ⟨begun, hs, hcourse, -⟩ := hcourse 0 []
  exact (hgone.course hcourse).1.absent

/-! ### Commands about subscriptions -/

/-- What comes of the commands about subscriptions: what comes of them on the bus, and nothing of
those about an unknown event or a negative token. -/
structure Answers (depth : Nat) (s : Session) : Prop where
  subscribed : ∀ (event : Event) listener,
    carryOut (run (depth + 1) (.subscribe event.name listener)) s =
      (.ok (.subscribed (s.bus.subscribe event listener).1), { s with
        bus := (s.bus.subscribe event listener).2
        latest := Record.set s.latest listener.name (s.bus.subscribe event listener).1 })
  unknown : ∀ name, (∀ event : Event, event.name ≠ name) → ∀ listener,
    carryOut (run (depth + 1) (.subscribe name listener)) s = (.error (.unknownEvent name), s)
  unsubscribed : ∀ (event : Event) (token : Nat),
    carryOut (run (depth + 1) (.unsubscribe event.name token)) s =
      (.ok (.flag (s.bus.unsubscribe ⟨event, token⟩).1),
        { s with bus := (s.bus.unsubscribe ⟨event, token⟩).2 })
  negative : ∀ (event : Event), ∀ token < 0,
    carryOut (run (depth + 1) (.unsubscribe event.name token)) s = (.ok (.flag false), s)
  cleared : carryOut (run (depth + 1) .clearListeners) s =
    (.ok .nothing, { s with bus := s.bus.clear })

theorem answers (depth : Nat) (s : Session) : Answers depth s where
  subscribed := by
    intro event listener
    rw [carryOut_run_subscribe, Event.ofName_name]
  unknown := by
    intro name h listener
    have hnone : Event.all.find? (·.name == name) = none :=
      List.find?_eq_none.2 fun event _ => by simpa using h event
    have hname : Event.ofName name = .error (.unknownEvent name) := by rw [Event.ofName, hnone]
    rw [carryOut_run_subscribe, hname]
  unsubscribed := by
    intro event token
    rw [carryOut_run_unsubscribe, Event.ofName_name]
    exact if_pos (Int.natCast_nonneg token)
  negative := by
    intro event token h
    rw [carryOut_run_unsubscribe, Event.ofName_name]
    exact if_neg (Int.not_le.2 h)
  cleared := rfl

/-- Whatever is done from the start, the bus goes along a course that the history records: just the
events and the calls that it names are there, and what it says of subscriptions.  Whatever the
course, each token is handed out once, the entries are in the order of their tokens under the events
that these were handed out for, ending a subscription ends just that one, if it is there, and a
token that was taken away stays away under every event.  What comes of a command about subscriptions
is what comes of it on the bus, and nobody can subscribe to an unknown event. -/
theorem subscriptions_kept :
    (∀ schema policy provider depth cs, ∃ hs begun,
      Course .first hs ⟨(afterAll depth cs (start schema policy provider)).bus, begun, []⟩ ∧
        Records (afterAll depth cs (start schema policy provider)).history hs) ∧
      (∀ (hs : List (Happening Listener)) m, Course .first hs m →
        Bus.Orderly hs m.bus ∧ (∀ s, m.bus.EndsJust s) ∧
          ∀ before h after token, hs = before ++ h :: after → h.Removes before token →
            Bus.Spared token after) ∧
      (∀ depth cs (s : Session), ∀ token < s.bus.nextToken,
        (∀ e ∈ s.bus.entries, e.subscription.token ≠ token) →
          ∀ e ∈ (afterAll depth cs s).bus.entries, e.subscription.token ≠ token) ∧
      ∀ depth s, Answers depth s := by
  refine ⟨?_, ?_, fun depth cs s _ => token_ne_afterAll depth cs, answers⟩
  · intro schema policy provider depth cs
    obtain ⟨log, hlog, hcourse⟩ := onCourse_afterAll depth cs (start schema policy provider)
    obtain ⟨begun, hs, hcourse, hrecords⟩ := hcourse 0 []
    refine ⟨hs, begun, hcourse, ?_⟩
    rw [hlog]
    exact hrecords
  · intro hs m hcourse
    refine ⟨hcourse.orderly, m.bus.endsJust, ?_⟩
    rintro before h after token rfl hremoves
    exact hcourse.stays_away hremoves

/-- When it is first called, this sends the second subscriber away and tries to do so again, makes
`latecomer` listen, and emits the event once more. -/
def usher : Listener :=
  .ofSteps "usher" 1 [.give (.unsubscribe "graph:clear" 2) false,
    .give (.unsubscribe "graph:clear" 2) false,
    .give (.subscribe "graph:clear" (.ofSteps "latecomer" 0 [])) false,
    .give (.emit "graph:clear" []) false]

/-- The usher and a bystander listen to an event that is emitted. -/
def usheredRun : List Command :=
  [.subscribe "graph:clear" usher, .subscribe "graph:clear" (.ofSteps "bystander" 0 []),
    .emit "graph:clear" []]

@[irreducible]
def ushered : Session := afterAll 3 usheredRun (start none plainPolicy none)

/-- Who was sent away is called by the emission that was under way, and by none after it. -/
theorem subscriptions_kept_ushered :
    (∃ hs begun, Course .first hs ⟨ushered.bus, begun, []⟩ ∧ Bus.Orderly hs ushered.bus ∧
      Records ushered.history hs) ∧
      ushered.history.filterMap Occurrence.remark? = [.told .graphCleared, .called 1 "usher",
        .ended "graph:clear" 2 true, .ended "graph:clear" 2 false,
        .subscribed ⟨.graphCleared, 3⟩, .told .graphCleared, .called 1 "usher",
        .called 3 "latecomer", .called 2 "bystander"] ∧
      (ushered.bus.unsubscribe ⟨.graphCleared, 2⟩).1 = false ∧
      (ushered.bus.unsubscribe ⟨.graphCleared, 3⟩).1 = true := by
  obtain ⟨hruns, hlaws, -⟩ := subscriptions_kept
  obtain ⟨hs, begun, hcourse, hrecords⟩ : ∃ hs begun,
      Course .first hs ⟨ushered.bus, begun, []⟩ ∧ Records ushered.history hs := by
    rw [ushered]
    exact hruns none plainPolicy none 3 usheredRun
  have horderly : Bus.Orderly hs ushered.bus := (hlaws hs ⟨ushered.bus, begun, []⟩ hcourse).1
  refine ⟨⟨hs, begun, hcourse, horderly, hrecords⟩, ?_, ?_, ?_⟩
  · decide +kernel
  · decide +kernel
  · decide +kernel

end Session

end PropertyGraph
