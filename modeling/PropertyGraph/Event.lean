import PropertyGraph.Entity

/-!
# Events

What a graph tells about its changes: one notice for each entity that was added, updated or
deleted, and one when everything was removed.
-/

namespace PropertyGraph

/-- The kinds of change. -/
inductive Event where
  | nodeAdded
  | nodeUpdated
  | nodeDeleted
  | edgeAdded
  | edgeUpdated
  | edgeDeleted
  | graphCleared
deriving DecidableEq, Repr

namespace Event

def all : List Event :=
  [.nodeAdded, .nodeUpdated, .nodeDeleted, .edgeAdded, .edgeUpdated, .edgeDeleted, .graphCleared]

def name : Event → String
  | .nodeAdded => "node:add"
  | .nodeUpdated => "node:update"
  | .nodeDeleted => "node:delete"
  | .edgeAdded => "edge:add"
  | .edgeUpdated => "edge:update"
  | .edgeDeleted => "edge:delete"
  | .graphCleared => "graph:clear"

/-- The event of a name. -/
def ofName (s : String) : Result Event :=
  match all.find? (·.name == s) with
  | some e => .ok e
  | none => .error (.unknownEvent s)

@[simp] theorem ofName_name (e : Event) : ofName e.name = .ok e := by
  cases e <;> rfl

theorem name_of_ofName {s : String} {e : Event} (h : ofName s = .ok e) : e.name = s := by
  unfold ofName at h
  split at h
  · rename_i found hfound
    obtain rfl := Except.ok.inj h
    exact beq_iff_eq.1 (List.find?_some (p := fun e : Event => e.name == s) hfound)
  · cases h

end Event

/-- What a listener is given. -/
inductive Payload where
  | node (n : Node)
  | edge (e : Edge)
  | nodeChange (n : Node) (changes : Record Value)
  | edgeChange (e : Edge) (changes : Record Value)
  | value (v : Value)

/-- A change that has been made. -/
inductive Notice where
  | nodeAdded (n : Node)
  | nodeUpdated (n : Node) (changes : Record Value)
  | nodeDeleted (id : Value)
  | edgeAdded (e : Edge)
  | edgeUpdated (e : Edge) (changes : Record Value)
  | edgeDeleted (id : Value)
  | cleared

namespace Notice

def event : Notice → Event
  | .nodeAdded _ => .nodeAdded
  | .nodeUpdated _ _ => .nodeUpdated
  | .nodeDeleted _ => .nodeDeleted
  | .edgeAdded _ => .edgeAdded
  | .edgeUpdated _ _ => .edgeUpdated
  | .edgeDeleted _ => .edgeDeleted
  | .cleared => .graphCleared

/-- What the listeners are given. -/
def payload : Notice → List Payload
  | .nodeAdded n => [.node n]
  | .nodeUpdated n changes => [.nodeChange n changes]
  | .nodeDeleted id => [.value id]
  | .edgeAdded e => [.edge e]
  | .edgeUpdated e changes => [.edgeChange e changes]
  | .edgeDeleted id => [.value id]
  | .cleared => []

/-- The notices of the deletion of a node and of the edges that went with it. -/
def ofDeletion (id : Value) (edges : List Value) : List Notice :=
  edges.map .edgeDeleted ++ [.nodeDeleted id]

end Notice

end PropertyGraph
