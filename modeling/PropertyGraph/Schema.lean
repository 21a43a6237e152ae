import PropertyGraph.Kind

/-!
# Schemas

A schema names the node types and the edge types of a graph.  A type lists the fields of its data
with their kinds; an edge type also says, for each of its two sides, which node type it attaches to
and whether one node may carry many such edges.

A schema is *consistent* when every type is filed under its own name and every side of an edge type
refers to a declared node type.  `Schema.inconsistency?` finds the first fault in order of
declaration, and `Schema.inconsistency?_eq_none_iff` says that it finds one exactly in the schemas
that are not consistent.
-/

namespace PropertyGraph

/-- What somebody may do with the entities of a type. -/
inductive Role where
  | viewer
  | editor
  | owner
deriving DecidableEq, Repr

/-- Who may do what with the entities of a type. -/
structure AccessControl where
  isPublic : Option Bool
  roles : Option (Record (List Role))
  /-- The role of everyone who is known. -/
  defaultRole : Option Role
deriving DecidableEq, Repr

/-- A type of nodes. -/
structure NodeType where
  name : String
  description : String
  synonyms : List String
  /-- The fields of the data, in order of declaration. -/
  fields : Record Kind
  access : Option AccessControl
deriving DecidableEq, Repr

/-- One side of an edge type. -/
structure Connection where
  nodeType : String
  /-- Whether one node may carry many edges of the type on this side. -/
  multiple : Bool
  required : Bool
deriving DecidableEq, Repr

/-- A type of edges. -/
structure EdgeType where
  name : String
  description : String
  source : Connection
  target : Connection
  synonyms : List String
  /-- The fields of the data, in order of declaration. -/
  fields : Record Kind
  access : Option AccessControl
deriving DecidableEq, Repr

/-- The types of a graph. -/
structure Schema where
  nodeTypes : Record NodeType
  edgeTypes : Record EdgeType
deriving DecidableEq, Repr

/-- The two classes of what a graph holds. -/
inductive EntityClass where
  | node
  | edge
deriving DecidableEq, Repr

/-- The two ends of an edge. -/
inductive Side where
  | source
  | target
deriving DecidableEq, Repr

namespace Role

def all : List Role := [.viewer, .editor, .owner]

def name : Role → String
  | .viewer => "viewer"
  | .editor => "editor"
  | .owner => "owner"

/-- The role of a name. -/
def ofName? (s : String) : Option Role := all.find? (·.name == s)

@[simp] theorem ofName?_name (r : Role) : ofName? r.name = some r := by
  cases r <;> decide

end Role

namespace EntityClass

def name : EntityClass → String
  | .node => "node"
  | .edge => "edge"

/-- The name at the start of a sentence. -/
def title : EntityClass → String
  | .node => "Node"
  | .edge => "Edge"

end EntityClass

namespace Side

/-- The name at the start of a sentence. -/
def title : Side → String
  | .source => "Source"
  | .target => "Target"

/-- Which way the edges of a node go that has this end of them. -/
def direction : Side → String
  | .source => "outgoing"
  | .target => "incoming"

def name : Side → String
  | .source => "source"
  | .target => "target"

end Side

/-- What an edge type asks of one of its ends. -/
def EdgeType.side (t : EdgeType) : Side → Connection
  | .source => t.source
  | .target => t.target

namespace Schema

/-- The node type of a name. -/
def nodeType? (s : Schema) (name : String) : Option NodeType := Record.get? s.nodeTypes name

/-- The edge type of a name. -/
def edgeType? (s : Schema) (name : String) : Option EdgeType := Record.get? s.edgeTypes name

/-! ### Consistency -/

/-- A fault in how the parts of a schema refer to one another. -/
inductive Inconsistency where
  | nodeTypeName (key name : String)
  | edgeTypeName (key name : String)
  | unknownNodeType (edgeType : String) (side : Side) (nodeType : String)
deriving DecidableEq, Repr

/-- What is wrong, as a sentence. -/
def Inconsistency.message : Inconsistency → String
  | .nodeTypeName key name =>
    "Node type key '" ++ key ++ "' does not match its name property '" ++ name ++ "'."
  | .edgeTypeName key name =>
    "Edge type key '" ++ key ++ "' does not match its name property '" ++ name ++ "'."
  | .unknownNodeType edgeType side nodeType =>
    "Edge type '" ++ edgeType ++ "' " ++ side.name ++ " refers to unknown node type: '" ++
      nodeType ++ "'"

/-- The fault of a node type filed under a name, if it has one. -/
def nodeTypeFault? (key : String) (t : NodeType) : Option Inconsistency :=
  if key = t.name then none else some (.nodeTypeName key t.name)

/-- The fault of one side of an edge type filed under a name, if it has one. -/
def sideFault? (s : Schema) (key : String) (t : EdgeType) (side : Side) : Option Inconsistency :=
  if Record.has s.nodeTypes (t.side side).nodeType then none
  else some (.unknownNodeType key side (t.side side).nodeType)

/-- The first fault of an edge type filed under a name, if it has one. -/
def edgeTypeFault? (s : Schema) (key : String) (t : EdgeType) : Option Inconsistency :=
  if key = t.name then (sideFault? s key t .source).or (sideFault? s key t .target)
  else some (.edgeTypeName key t.name)

/-- The first fault of a schema: node types before edge types, each in order of declaration. -/
def inconsistency? (s : Schema) : Option Inconsistency :=
  (s.nodeTypes.findSome? fun p => nodeTypeFault? p.1 p.2).or
    (s.edgeTypes.findSome? fun p => edgeTypeFault? s p.1 p.2)

/-- Every type is filed under its own name, and every side of an edge type refers to a declared
node type. -/
structure Consistent (s : Schema) : Prop where
  nodeNames : ∀ p ∈ s.nodeTypes, p.1 = p.2.name
  edgeNames : ∀ p ∈ s.edgeTypes, p.1 = p.2.name
  sides : ∀ p ∈ s.edgeTypes, ∀ side : Side, (s.nodeType? (p.2.side side).nodeType).isSome

theorem edgeTypeFault?_eq_none_iff (s : Schema) (key : String) (t : EdgeType) :
    edgeTypeFault? s key t = none ↔
      key = t.name ∧ ∀ side : Side, (s.nodeType? (t.side side).nodeType).isSome := by
  have h : ∀ side, sideFault? s key t side = none ↔
      (s.nodeType? (t.side side).nodeType).isSome = true := by
    intro side
    unfold sideFault? nodeType? Record.has
    generalize (Record.get? s.nodeTypes (t.side side).nodeType).isSome = found
    cases found <;> simp
  by_cases hk : key = t.name
  · simp only [edgeTypeFault?, hk, if_true, Option.or_eq_none_iff, true_and]
    rw [← hk, h, h]
    exact ⟨fun hs side => by cases side <;> simp [hs.1, hs.2], fun hs => ⟨hs _, hs _⟩⟩
  · simp [edgeTypeFault?, hk]

/-- A schema has a fault exactly when it is not consistent. -/
theorem inconsistency?_eq_none_iff (s : Schema) : s.inconsistency? = none ↔ s.Consistent := by
  simp only [inconsistency?, Option.or_eq_none_iff, List.findSome?_eq_none_iff,
    edgeTypeFault?_eq_none_iff]
  constructor
  · rintro ⟨hn, he⟩
    refine ⟨fun p hp => ?_, fun p hp => (he p hp).1, fun p hp => (he p hp).2⟩
    have := hn p hp
    simpa [nodeTypeFault?] using this
  · rintro ⟨hn, he, hs⟩
    exact ⟨fun p hp => by simp [nodeTypeFault?, hn p hp], fun p hp => ⟨he p hp, hs p hp⟩⟩

end Schema

/-! ### Schemas as values -/

namespace Schema

/-- A list of texts as a value. -/
def textsValue (ss : List String) : Value := .list (ss.map .text)

/-- A value that may be absent. -/
def optionValue (f : α → Value) : Option α → Value
  | some a => f a
  | none => .null

/-- A record of fields with their kinds as a value. -/
def kindsValue (fields : Record Kind) : Value :=
  .record (Record.mapValues (fun k => .text k.name) fields)

end Schema

/-- Access control with all its fields. -/
def AccessControl.toValue (a : AccessControl) : Value :=
  let role : Role → Value := fun r => .text r.name
  .record [
    ("public", Schema.optionValue .bool a.isPublic),
    ("roles", Schema.optionValue
      (fun rs => .record (Record.mapValues (fun l => .list (l.map role)) rs)) a.roles),
    ("default_authenticated_role", Schema.optionValue role a.defaultRole)]

/-- A node type with all its fields. -/
def NodeType.toValue (t : NodeType) : Value :=
  .record [
    ("name", .text t.name),
    ("description", .text t.description),
    ("synonyms", Schema.textsValue t.synonyms),
    ("data", Schema.kindsValue t.fields),
    ("access_control", Schema.optionValue AccessControl.toValue t.access)]

/-- A side of an edge type with all its fields. -/
def Connection.toValue (c : Connection) : Value :=
  .record [
    ("node_type", .text c.nodeType),
    ("multiple", .bool c.multiple),
    ("required", .bool c.required)]

/-- An edge type with all its fields. -/
def EdgeType.toValue (t : EdgeType) : Value :=
  .record [
    ("name", .text t.name),
    ("description", .text t.description),
    ("source", t.source.toValue),
    ("target", t.target.toValue),
    ("synonyms", Schema.textsValue t.synonyms),
    ("data", Schema.kindsValue t.fields),
    ("access_control", Schema.optionValue AccessControl.toValue t.access)]

/-- A schema with all its fields. -/
def Schema.toValue (s : Schema) : Value :=
  .record [
    ("node_types", .record (Record.mapValues NodeType.toValue s.nodeTypes)),
    ("edge_types", .record (Record.mapValues EdgeType.toValue s.edgeTypes))]

end PropertyGraph
