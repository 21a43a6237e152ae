import PropertyGraph.Embedding.Provider
import PropertyGraph.Fact.Statement
import PropertyGraph.Instant
import PropertyGraph.Json.Writer
import PropertyGraph.Session.Program
import PropertyGraph.Settings

/-!
# Sessions

A session holds a graph with its schema and its policy, the bus on which its changes are told,
and a record of what happened.  A command checks and makes its change first and tells of it
afterwards: the listeners of an event are those that the bus holds when telling starts, they are
called one after another, and the first failure of one of them ends the command, whose change
stays made.

A listener may give commands of its own, to any depth that `Session.run` allows.  `Session.step`
says what one command does when the commands that listeners give are carried out by `inner`.
-/

namespace PropertyGraph

/-- Something that happened. -/
inductive Occurrence where
  /-- A vector was asked for. -/
  | embedded (text : String)
  /-- Something was about to be told to the listeners of an event. -/
  | told (event : Event) (payload : List Payload)
  /-- A listener was called, when the graph was this. -/
  | called (token : Nat) (name : String) (payload : List Payload) (graph : Graph)
  /-- A listener gave a command, and this came of it; the graph was this afterwards. -/
  | did (name : String) (c : Command) (outcome : Result Outcome) (graph : Graph)

/-- A graph in use. -/
structure Session where
  schema : Option Schema
  policy : Policy
  provider : Option Provider
  graph : Graph
  bus : Bus Listener
  /-- The latest subscription of each name. -/
  latest : Record Subscription
  /-- How many entities were made. -/
  made : Nat
  /-- What happened, the latest last. -/
  history : List Occurrence

/-- Something that uses a session, changes it, and may fail. -/
abbrev Act (α : Type) := ExceptT Failure (StateM Session) α

namespace Session

/-- A session with an empty graph. -/
def start (schema : Option Schema) (policy : Policy) (provider : Option Provider) : Session :=
  ⟨schema, policy, provider, .empty, .empty, [], 0, []⟩

/-! ### Questions -/

/-- A node with its neighbours and its predecessors. -/
def surroundings (g : Graph) (n : Node) : Surroundings :=
  ⟨n.id, g.neighbors n.id, g.predecessors n.id⟩

/-- The threshold that counts: the one that is asked for, or else the one of the policy. -/
def threshold (s : Session) : Value → Value
  | .null => s.policy.threshold
  | v => v

/-- The answer to a question. -/
def answer (s : Session) : Question → Result Outcome
  | .node id => .ok (.node (s.graph.node? id))
  | .nodes => .ok (.nodes s.graph.nodes)
  | .hasNode id => .ok (.flag (s.graph.hasNode id))
  | .edge id => do
    Graph.requireKey id
    return .edge (s.graph.edge? id)
  | .edges => .ok (.edges s.graph.edges)
  | .hasEdge id => do
    Graph.requireKey id
    return .flag (s.graph.hasEdge id)
  | .edgesOf id => .ok (.values ((s.graph.edgesOf id).map (·.id)))
  | .neighbors id => .ok (.values (s.graph.neighbors id))
  | .predecessors id => .ok (.values (s.graph.predecessors id))
  | .counts => .ok (.counts s.graph.nodes.length s.graph.edges.length)
  | .softLinks t => do return .links (← SoftLink.links (s.threshold t) s.graph.nodes)
  | .facts => .ok (.facts s.graph.facts)
  | .statements =>
    match s.schema with
    | some schema => do return .text (← renderGraph schema s.graph.nodes s.graph.edges)
    | none => .error .renderingNeedsSchema
  | .query fields => do
    let pattern ← Pattern.ofRaw fields
    return .solutions (FactBase.query ⟨s.graph.facts⟩ pattern)
  | .schema => .ok (.schema s.schema)
  | .reloaded => do
    let g ← Graph.empty.load s.schema s.graph.toValue
    return .surroundings (g.nodes.map (surroundings g))
  | .listenerCount event => do return .count (s.bus.count (← Event.ofName event))

/-! ### Telling listeners -/

/-- Writes down that something happened. -/
def note (o : Occurrence) : Act Unit := modify fun s => { s with history := s.history ++ [o] }

/-- A result as it is. -/
def settle (r : Result α) : Act α := ExceptT.mk (pure r)

/-- Does something, and gives its result without failing. -/
def observe (a : Act α) : Act (Result α) := ExceptT.lift a.run

/-- How often a listener was called. -/
def calls (s : Session) (token : Nat) : Nat :=
  s.history.countP fun o => match o with
    | .called t _ _ _ => t = token
    | _ => false

/-- How often a vector was asked for. -/
def embeddings (s : Session) : Nat :=
  s.history.countP fun o => match o with
    | .embedded _ => true
    | _ => false

/-- Carries out what a listener does, its commands by `inner`. -/
def perform (inner : Command → Act Outcome) (name : String) : Program → Act Unit
  | .done => pure ()
  | .fail f => throw f
  | .perform c escapes next => do
    let outcome ← observe (inner c)
    match outcome, escapes with
    | .error f, true => throw f
    | _, _ =>
      note (.did name c outcome (← get).graph)
      perform inner name (next outcome)

/-- Calls a listener. -/
def call (inner : Command → Act Outcome) (payload : List Payload) (e : Bus.Entry Listener) :
    Act Unit := do
  let s ← get
  let number := s.calls e.subscription.token
  note (.called e.subscription.token e.listener.name payload s.graph)
  perform inner e.listener.name (e.listener.respond number payload)

/-- Calls the listeners that an event has now. -/
def publish (inner : Command → Act Outcome) (event : Event) (payload : List Payload) :
    Act Unit := do
  note (.told event payload)
  ((← get).bus.entriesOf event).forM (call inner payload)

/-- Tells of a change. -/
def tell (inner : Command → Act Outcome) (n : Notice) : Act Unit :=
  publish inner n.event n.payload

/-- Puts a changed graph in place and then tells of the changes. -/
def commit (inner : Command → Act Outcome) (g : Graph) (notices : List Notice) : Act Unit := do
  modify fun s => { s with graph := g }
  notices.forM (tell inner)

/-! ### Changes -/

/-- Adds a node. -/
def addNode (inner : Command → Act Outcome) (n : Node) : Act Unit := do
  let s ← get
  let g ← settle (s.graph.addNode s.schema n)
  commit inner g [.nodeAdded n]

/-- Updates a node. -/
def updateNode (inner : Command → Act Outcome) (id changes : Value) : Act Outcome := do
  let s ← get
  match ← settle (s.graph.updateNode s.schema id changes) with
  | none => return .node none
  | some (g, n, changes) =>
    commit inner g [.nodeUpdated n changes]
    return .node (some n)

/-- Deletes a node. -/
def deleteNode (inner : Command → Act Outcome) (id : Value) : Act Outcome := do
  match (← get).graph.deleteNode id with
  | none => return .flag false
  | some (g, edges) =>
    commit inner g (Notice.ofDeletion id edges)
    return .flag true

/-- Adds an edge. -/
def addEdge (inner : Command → Act Outcome) (e : Edge) : Act Unit := do
  let s ← get
  let g ← settle (s.graph.addEdge s.schema e)
  commit inner g [.edgeAdded e]

/-- Updates an edge. -/
def updateEdge (inner : Command → Act Outcome) (id changes : Value) : Act Outcome := do
  let s ← get
  match ← settle (s.graph.updateEdge s.schema id changes) with
  | none => return .edge none
  | some (g, e, changes) =>
    commit inner g [.edgeUpdated e changes]
    return .edge (some e)

/-- Deletes an edge. -/
def deleteEdge (inner : Command → Act Outcome) (id : Value) : Act Outcome := do
  match ← settle ((← get).graph.deleteEdge id) with
  | none => return .flag false
  | some g =>
    commit inner g [.edgeDeleted id]
    return .flag true

/-- Deletes the edge at a place. -/
def deleteHeld (inner : Command → Act Outcome) (place : Nat) : Act Outcome := do
  match (← get).graph.deleteHeld place with
  | none => return .flag false
  | some (g, id) =>
    commit inner g [.edgeDeleted id]
    return .flag true

/-! ### New entities -/

/-- A fresh identifier and the time. -/
def stamp : Act (Value × Value) := do
  let n := (← get).made + 1
  modify fun s => { s with made := n }
  let time ← settle (clockText n)
  return (.text (freshId n), .text time)

/-- A node with a fresh identifier. -/
def freshNode (type data : Value) : Act Node := do
  let (id, time) ← stamp
  let data ← settle data.toData
  return ⟨id, type, data, time, time, none⟩

/-- An edge with a fresh identifier. -/
def freshEdge (type source target data : Value) : Act Edge := do
  let (id, time) ← stamp
  let data ← settle data.toData
  return ⟨id, type, source, target, data, time, time⟩

/-- The text that stands for the data of a node; the data must be writable. -/
def embeddedText (n : Node) : Result String :=
  match Json.write? (.ofFields n.data) with
  | some s => .ok s
  | none => .error (.misfit .notWritable)

/-- What a provider gives for a text. -/
def askVector (provider : Provider) (text : String) : Act (Result Value) := do
  let number := (← get).embeddings
  note (.embedded text)
  return provider number text

/-- A node with the vector that a provider gives.  When the provider fails, the policy says whether
the node goes without. -/
def embed (provider : Provider) (n : Node) : Act Node := do
  let text ← settle (embeddedText n)
  match ← askVector provider text with
  | .ok v =>
    let xs ← settle v.toFloats
    return { n with embedding := some (xs.map .float) }
  | .error f =>
    match (← get).policy.failurePolicy with
    | .propagate => throw f
    | .skip => return n

/-- A node with a vector, where one is wanted and somebody provides it. -/
def withVector (n : Node) : Act Node := do
  let s ← get
  match s.provider with
  | some provider => if s.policy.embedOnCreate.truthy then embed provider n else return n
  | none => return n

/-- Makes a node and adds it. -/
def createNode (inner : Command → Act Outcome) (type data : Value) : Act Outcome := do
  let n ← withVector (← freshNode type data)
  addNode inner n
  return .node (some n)

/-- Makes an edge and adds it. -/
def createEdge (inner : Command → Act Outcome) (type source target data : Value) :
    Act Outcome := do
  let e ← freshEdge type source target data
  addEdge inner e
  return .edge (some e)

/-! ### Many at once -/

/-- Reads a node and adds it. -/
def loadNode (inner : Command → Act Outcome) (v : Value) : Act Unit := do
  addNode inner (← settle (Node.ofValue v))

/-- Reads an edge and adds it. -/
def loadEdge (inner : Command → Act Outcome) (v : Value) : Act Unit := do
  addEdge inner (← settle (Edge.ofValue v))

/-- Adds the nodes and then the edges of a document. -/
def load (inner : Command → Act Outcome) (document : Value) : Act Unit := do
  let document ← settle (Graph.requireDocument document)
  (← settle (Graph.entriesOf document "nodes")).forM (loadNode inner)
  (← settle (Graph.entriesOf document "edges")).forM (loadEdge inner)

/-! ### Listening -/

/-- Adds a listener. -/
def subscribe (event : String) (listener : Listener) : Act Outcome := do
  let event ← settle (Event.ofName event)
  let s ← get
  let (subscription, bus) := s.bus.subscribe event listener
  set { s with bus, latest := Record.set s.latest listener.name subscription }
  return .subscribed subscription

/-- Ends a subscription; says whether it was there. -/
def unsubscribe (subscription : Subscription) : Act Outcome := do
  let s ← get
  let (held, bus) := s.bus.unsubscribe subscription
  set { s with bus }
  return .flag held

/-- Ends the latest subscription of a name. -/
def unsubscribeNamed (name : String) : Act Outcome := do
  match Record.get? (← get).latest name with
  | some subscription => unsubscribe subscription
  | none => throw (.missingKey (.text name))

/-! ### Commands -/

/-- What a command does, when the commands of listeners are carried out by `inner`. -/
def step (inner : Command → Act Outcome) : Command → Act Outcome
  | .ask q => do settle ((← get).answer q)
  | .addNode v => do
    loadNode inner v
    return .nothing
  | .createNode type data => createNode inner type data
  | .updateNode id changes => updateNode inner id changes
  | .deleteNode id => deleteNode inner id
  | .addEdge v => do
    loadEdge inner v
    return .nothing
  | .createEdge type source target data => createEdge inner type source target data
  | .updateEdge id changes => updateEdge inner id changes
  | .deleteEdge id => deleteEdge inner id
  | .deleteHeld place => deleteHeld inner place
  | .addNodes v => do
    let items ← settle v.members
    items.forM (loadNode inner)
    return .count items.length
  | .addEdges v => do
    let items ← settle v.members
    items.forM (loadEdge inner)
    return .count items.length
  | .load document => do
    load inner document
    return .nothing
  | .clear => do
    commit inner .empty [.cleared]
    return .nothing
  | .subscribe event listener => subscribe event listener
  | .unsubscribeNamed name => unsubscribeNamed name
  | .unsubscribe event token => do
    let event ← settle (Event.ofName event)
    if 0 ≤ token then unsubscribe ⟨event, token.toNat⟩ else return .flag false
  | .emit event args => do
    publish inner (← settle (Event.ofName event)) (args.map .value)
    return .nothing
  | .clearListeners => do
    modify fun s => { s with bus := s.bus.clear }
    return .nothing

/-- Carries out a command, where the commands of listeners may nest as deep as `depth` says. -/
def run : Nat → Command → Act Outcome
  | 0, _ => throw .nestedTooDeep
  | depth + 1, c => step (run depth) c

/-- How deep the commands of listeners may nest. -/
def nesting : Nat := 1000000

/-- Carries out a command; gives what came of it and the session after it. -/
def execute (s : Session) (c : Command) : Result Outcome × Session := (run nesting c).run.run s

end Session

end PropertyGraph
