import PropertyGraph.Value.Conversion

/-!
# Nodes and edges

The two classes of entities, how they are read from a record and written to one, and how an update
changes them.  The *fact* of an entity lists what identifies it, and then the fields of its data
whose names do not clash with that.

An update is a record of changes.  Its fields `id` and `type` are passed over, `data` is laid over
the old data, and any other field must be one of those that an update may assign.
-/

namespace PropertyGraph

/-- An entity with data of its own. -/
structure Node where
  id : Value
  type : Value
  data : Fields
  createdAt : Value
  updatedAt : Value
  /-- A vector that tells how similar nodes are. -/
  embedding : Option (List Value)

/-- A typed connection from one node to another. -/
structure Edge where
  id : Value
  type : Value
  /-- The identifier of the node that it leaves. -/
  source : Value
  /-- The identifier of the node that it enters. -/
  target : Value
  data : Fields
  createdAt : Value
  updatedAt : Value

/-- The node at one end of an edge. -/
def Edge.endpoint (e : Edge) : Side → Value
  | .source => e.source
  | .target => e.target

/-! ### Reading -/

namespace Entity

/-- A field that must be there. -/
def required (fields : Fields) (name : String) : Result Value :=
  match fields.get? name with
  | some v => .ok v
  | none => .error (.missingKey (.text name))

/-- A field that counts as null when it is not there. -/
def optional (fields : Fields) (name : String) : Value := (fields.get? name).getD .null

/-- The members of a vector, if there is one. -/
def readVector : Value → Result (Option (List Value))
  | .null => .ok none
  | v => do return some (← v.members)

end Entity

/-- Reads a node. -/
def Node.ofValue (v : Value) : Result Node :=
  match v.fields? with
  | some fields => do
    let id ← Entity.required fields "id"
    let type ← Entity.required fields "type"
    let data ← (Entity.optional fields "data").toData
    let embedding ← Entity.readVector (Entity.optional fields "embedding")
    return {
      id, type, data
      createdAt := Entity.optional fields "created_at"
      updatedAt := Entity.optional fields "updated_at"
      embedding }
  | none => .error (.misfit .notRecord)

/-- Reads an edge. -/
def Edge.ofValue (v : Value) : Result Edge :=
  match v.fields? with
  | some fields => do
    let id ← Entity.required fields "id"
    let type ← Entity.required fields "type"
    let source ← Entity.required fields "source_node_id"
    let target ← Entity.required fields "target_node_id"
    let data ← (Entity.optional fields "data").toData
    return {
      id, type, source, target, data
      createdAt := Entity.optional fields "created_at"
      updatedAt := Entity.optional fields "updated_at" }
  | none => .error (.misfit .noNamedPart)

/-! ### Writing -/

/-- A node as a record that `Node.ofValue` reads. -/
def Node.toValue (n : Node) : Value :=
  .record [
    ("id", n.id), ("type", n.type), ("data", .ofFields n.data),
    ("created_at", n.createdAt), ("updated_at", n.updatedAt),
    ("embedding", match n.embedding with
      | some xs => .list xs
      | none => .null)]

/-- An edge as a record that `Edge.ofValue` reads. -/
def Edge.toValue (e : Edge) : Value :=
  .record [
    ("id", e.id), ("type", e.type),
    ("source_node_id", e.source), ("target_node_id", e.target),
    ("data", .ofFields e.data), ("created_at", e.createdAt), ("updated_at", e.updatedAt)]

namespace Entity

/-- What identifies an entity, and then the fields of its data with other names. -/
def flatten (identity : Record Value) (data : Fields) : Fields :=
  Fields.ofRecord identity ++
    data.filter fun p => !(Record.keys identity).any fun name => Fields.isNamed name p.1

end Entity

/-- The fact of a node. -/
def Node.toFact (n : Node) : Fields :=
  Entity.flatten [
    ("id", n.id), ("type", n.type),
    ("created_at", n.createdAt), ("updated_at", n.updatedAt)] n.data

/-- The fact of an edge. -/
def Edge.toFact (e : Edge) : Fields :=
  Entity.flatten [
    ("id", e.id), ("type", e.type),
    ("source_node_id", e.source), ("target_node_id", e.target),
    ("created_at", e.createdAt), ("updated_at", e.updatedAt)] e.data

/-! ### Updating -/

/-- The fields of a node that an update may assign. -/
def Node.updatable : List String := ["created_at", "data", "embedding", "updated_at"]

/-- The fields of an edge that an update may assign. -/
def Edge.updatable : List String :=
  ["created_at", "data", "source_node_id", "target_node_id", "updated_at"]

namespace Entity

/-- The fields that an update passes over. -/
def fixed : List String := ["id", "type"]

/-- The first change that is neither passed over nor allowed. -/
def refused? (updatable : List String) (changes : Record Value) : Option String :=
  (Record.keys changes).find? fun key => !(fixed ++ updatable).contains key

/-- The old data with the changed data laid over it. -/
def overlay (data : Fields) (changes : Record Value) : Fields :=
  match (Record.get? changes "data").bind Value.fields? with
  | some fields => data.merge fields
  | none => data

/-- The new value of a field that an update may assign. -/
def assigned (changes : Record Value) (name : String) (old : Value) : Value :=
  (Record.get? changes name).getD old

/-- The new vector: the old one, none, or the doubles of the given members. -/
def assignedVector (changes : Record Value) (old : Option (List Value)) :
    Result (Option (List Value)) :=
  match Record.get? changes "embedding" with
  | none => .ok old
  | some .null => .ok none
  | some v => do return some ((← v.toFloats).map .float)

end Entity

/-- A node after an update. -/
def Node.updated (n : Node) (changes : Record Value) : Result Node :=
  match Entity.refused? Node.updatable changes with
  | some key => .error (.unknownProperty (.text key) n.type .node)
  | none => do
    let embedding ← Entity.assignedVector changes n.embedding
    return { n with
      data := Entity.overlay n.data changes
      createdAt := Entity.assigned changes "created_at" n.createdAt
      updatedAt := Entity.assigned changes "updated_at" n.updatedAt
      embedding }

/-- An edge after an update. -/
def Edge.updated (e : Edge) (changes : Record Value) : Result Edge :=
  match Entity.refused? Edge.updatable changes with
  | some key => .error (.unknownProperty (.text key) e.type .edge)
  | none => .ok { e with
      source := Entity.assigned changes "source_node_id" e.source
      target := Entity.assigned changes "target_node_id" e.target
      data := Entity.overlay e.data changes
      createdAt := Entity.assigned changes "created_at" e.createdAt
      updatedAt := Entity.assigned changes "updated_at" e.updatedAt }

/-! ### What an update leaves alone -/

theorem Node.updated_eq_ok_iff {n m : Node} {changes : Record Value} :
    n.updated changes = .ok m ↔
      Entity.refused? Node.updatable changes = none ∧
        ∃ embedding, Entity.assignedVector changes n.embedding = .ok embedding ∧
          m = { n with
            data := Entity.overlay n.data changes
            createdAt := Entity.assigned changes "created_at" n.createdAt
            updatedAt := Entity.assigned changes "updated_at" n.updatedAt
            embedding := embedding } := by
  unfold Node.updated
  cases Entity.refused? Node.updatable changes with
  | some key => simp
  | none =>
    cases Entity.assignedVector changes n.embedding with
    | error f => simp [bind, Except.bind]
    | ok x => simp [bind, Except.bind, pure, Except.pure, eq_comm]

/-- An update keeps the identifier and the type of a node. -/
theorem Node.id_type_of_updated {n m : Node} {changes : Record Value}
    (h : n.updated changes = .ok m) : m.id = n.id ∧ m.type = n.type := by
  obtain ⟨-, _, -, rfl⟩ := Node.updated_eq_ok_iff.1 h
  exact ⟨rfl, rfl⟩

/-- An update keeps the identifier and the type of an edge. -/
theorem Edge.id_type_of_updated {e f : Edge} {changes : Record Value}
    (h : e.updated changes = .ok f) : f.id = e.id ∧ f.type = e.type := by
  unfold Edge.updated at h
  split at h
  · cases h
  · cases h
    exact ⟨rfl, rfl⟩

/-- What was written is read back. -/
theorem Node.ofValue_toValue (n : Node) : Node.ofValue n.toValue = .ok n := by
  obtain ⟨id, type, data, createdAt, updatedAt, embedding⟩ := n
  cases embedding <;>
    simp [Node.toValue, Node.ofValue, Value.fields?, Fields.ofRecord, Entity.required,
      Entity.optional, Fields.get?_cons_text, Entity.readVector, bind, Except.bind, pure,
      Except.pure]

/-- What was written is read back. -/
theorem Edge.ofValue_toValue (e : Edge) : Edge.ofValue e.toValue = .ok e := by
  obtain ⟨id, type, source, target, data, createdAt, updatedAt⟩ := e
  simp [Edge.toValue, Edge.ofValue, Value.fields?, Fields.ofRecord, Entity.required,
    Entity.optional, Fields.get?_cons_text, bind, Except.bind, pure, Except.pure]

end PropertyGraph
