import Tracecat.Dsl.Values

/-!
# The workflow graph store

`WorkflowGraphService` of `workflow/graph/service.py`: the rows of one workflow
and its actions, and the eight operations that a batch of `apply_operations`
runs in one transaction.  A batch holds the lock on the workflow row from its
first statement to its commit, so batches follow one another.
-/

namespace Tracecat

/-- The texts of UUIDs: `str(id)`, and what the database driver reads a text
as.  More than one text may stand for an identifier. -/
structure UuidText (Id : Type) where
  str : Id → String
  parse : String → Option Id
  parse_str : ∀ id, parse (str id) = some id

/-- A key of a stored JSON object.  A value that is not a string keeps the text
that `->>` reads it as. -/
inductive JsonField
  | missing
  | null
  | str (value : String)
  | other (text : String)
  deriving DecidableEq, Repr

/-- The `->>` operator; `none` is the SQL `NULL`. -/
def JsonField.astext : JsonField → Option String
  | missing => none
  | null => none
  | str value => some value
  | other text => some text

/-- An element of `Action.upstream_edges`, as stored. -/
structure EdgeData where
  sourceId : JsonField
  sourceType : JsonField
  sourceHandle : JsonField
  deriving DecidableEq, Repr

inductive EdgeSourceType
  | trigger
  | udf
  deriving DecidableEq, Repr

inductive EdgeHandle
  | success
  | error
  deriving DecidableEq, Repr

def EdgeSourceType.text : EdgeSourceType → String
  | trigger => "trigger"
  | udf => "udf"

def EdgeHandle.text : EdgeHandle → String
  | success => "success"
  | error => "error"

structure EdgeDedupKey where
  sourceId : String
  sourceType : EdgeSourceType
  sourceHandle : Option EdgeHandle
  deriving DecidableEq, Repr

/-- `_edge_dedup_key`. -/
def edgeDedupKey (sourceId : String) (sourceType : EdgeSourceType)
    (sourceHandle : Option EdgeHandle) : EdgeDedupKey :=
  match sourceType with
  | .udf => ⟨sourceId, .udf, some (sourceHandle.getD .success)⟩
  | .trigger => ⟨sourceId, .trigger, none⟩

namespace EdgeData

variable (edge : EdgeData)

/-- The source type of a stored edge; the legacy format has none. -/
def keySourceType (sourceId : String) : EdgeSourceType :=
  match edge.sourceType with
  | .str "trigger" => .trigger
  | .str "udf" => .udf
  | _ => if "trigger-".toList.isPrefixOf sourceId.toList then .trigger else .udf

def keySourceHandle : Option EdgeHandle :=
  match edge.sourceHandle with
  | .str "success" => some .success
  | .str "error" => some .error
  | _ => none

/-- `_stored_edge_dedup_key`. -/
def storedEdgeDedupKey : Option EdgeDedupKey :=
  match edge.sourceId with
  | .str sourceId =>
      some (edgeDedupKey sourceId (edge.keySourceType sourceId) edge.keySourceHandle)
  | _ => none

/-- The edge that `_add_edge` writes. -/
def ofKey (key : EdgeDedupKey) : EdgeData where
  sourceId := .str key.sourceId
  sourceType := .str key.sourceType.text
  sourceHandle :=
    match key.sourceHandle with
    | some handle => .str handle.text
    | none => .missing

end EdgeData

/-- A `double precision` column. -/
abbrev Coordinate : Type := Rat

structure Position where
  x : Coordinate
  y : Coordinate
  deriving DecidableEq, Repr

structure Viewport where
  x : Coordinate
  y : Coordinate
  zoom : Coordinate
  deriving DecidableEq, Repr

/-- The columns of an `Action` row that the service reads or writes, without
its key. -/
structure ActionRow where
  type : String
  title : String
  description : String
  inputs : String
  controlFlow : List (String × Json)
  position : Position
  upstreamEdges : List EdgeData

/-- A `Workflow` row with its actions. -/
structure Graph (Id : Type) where
  workflowId : Id
  graphVersion : Int
  actions : Dict Id ActionRow
  triggerPosition : Position
  viewport : Viewport

structure AddNodePayload where
  type : String
  title : String
  description : Option String
  inputs : Option String
  controlFlow : Option (List (String × Json))
  position : Position

structure UpdateNodePayload (Id : Type) where
  actionId : Id
  title : Option String
  description : Option String
  inputs : Option String
  controlFlow : Option (List (String × Json))

/-- `AddEdgePayload` and `DeleteEdgePayload`: the source is a text, the target
a UUID. -/
structure EdgePayload (Id : Type) where
  sourceId : String
  sourceType : EdgeSourceType
  targetId : Id
  sourceHandle : Option EdgeHandle

/-- An element of `MoveNodesPayload.positions`; `none` is a key that is missing
or null. -/
structure NodePosition where
  actionId : Option String
  x : Option Coordinate
  y : Option Coordinate

inductive GraphOperationType
  | addNode
  | updateNode
  | deleteNode
  | addEdge
  | deleteEdge
  | moveNodes
  | updateTriggerPosition
  | updateViewport
  deriving DecidableEq, Repr

/-- A `GraphOperation` with its payload parsed.  `addNode` comes with the UUID
that the insertion draws. -/
inductive GraphOperation (Id : Type)
  | addNode (id : Id) (payload : AddNodePayload)
  | updateNode (payload : UpdateNodePayload Id)
  | deleteNode (actionId : Id)
  | addEdge (payload : EdgePayload Id)
  | deleteEdge (payload : EdgePayload Id)
  | moveNodes (positions : List NodePosition)
  | updateTriggerPosition (position : Position)
  | updateViewport (viewport : Viewport)
  /-- the payload fails its validation -/
  | malformed (type : GraphOperationType)

namespace GraphOperation

variable {Id : Type}

def type : GraphOperation Id → GraphOperationType
  | addNode _ _ => .addNode
  | updateNode _ => .updateNode
  | deleteNode _ => .deleteNode
  | addEdge _ => .addEdge
  | deleteEdge _ => .deleteEdge
  | moveNodes _ => .moveNodes
  | updateTriggerPosition _ => .updateTriggerPosition
  | updateViewport _ => .updateViewport
  | malformed type => type

/-- `_STRUCTURAL_OPS`. -/
def structuralOps : List GraphOperationType :=
  [.addNode, .updateNode, .deleteNode, .addEdge, .deleteEdge]

/-- `_is_structural`. -/
def isStructural (op : GraphOperation Id) : Bool :=
  structuralOps.contains op.type

end GraphOperation

inductive GraphError
  | versionConflict (currentVersion : Int)
  | valueError (message : String)
  | validationError
  | invalidRequestError
  | databaseError
  deriving DecidableEq, Repr

/-- The transaction of a batch: the graph as its statements have left it, the
actions loaded with the workflow, and whether one of them has been deleted. -/
structure GraphSession (Id : Type) where
  graph : Graph Id
  loaded : List Id
  loadedDeleted : Bool

variable {Id : Type} [DecidableEq Id]

namespace Graph

variable (graph : Graph Id) (uuid : UuidText Id)

def triggerId : String :=
  "trigger-" ++ uuid.str graph.workflowId

/-- An `UPDATE` of the row of one action, if it exists. -/
def updateAction (actionId : Id) (update : ActionRow → ActionRow) : Graph Id :=
  { graph with
    actions := graph.actions.mapValues fun id row => if id = actionId then update row else row }

/-- The `UPDATE` of `_delete_node`: `jsonb_agg` over the elements whose
`source_id` differs from the deleted one. -/
def dropEdgesOf (deletedActionId : String) : Graph Id :=
  { graph with
    actions := graph.actions.mapValues fun _ row =>
      { row with
        upstreamEdges := row.upstreamEdges.filter fun edge =>
          match edge.sourceId.astext with
          | some sourceId => sourceId != deletedActionId
          | none => false } }

end Graph

namespace GraphSession

variable (session : GraphSession Id) (uuid : UuidText Id)

/-- The next statement has left `graph`. -/
def write (graph : Graph Id) : GraphSession Id :=
  { session with graph := graph }

/-- `_add_node`. -/
def addNode (id : Id) (payload : AddNodePayload) : Except GraphError (GraphSession Id) :=
  if id ∈ session.graph.actions then .error .databaseError
  else
    .ok (session.write
      { session.graph with
        actions := session.graph.actions.insert id
          { type := payload.type
            title := payload.title
            description := payload.description.getD ""
            inputs := payload.inputs.getD ""
            controlFlow := payload.controlFlow.getD []
            position := payload.position
            upstreamEdges := [] } })

/-- `_update_node`: only the fields that are given. -/
def updateNode (payload : UpdateNodePayload Id) : GraphSession Id :=
  session.write (session.graph.updateAction payload.actionId fun row =>
    { row with
      title := payload.title.getD row.title
      description := payload.description.getD row.description
      inputs := payload.inputs.getD row.inputs
      controlFlow := payload.controlFlow.getD row.controlFlow })

/-- `_delete_node`. -/
def deleteNode (actionId : Id) : GraphSession Id :=
  let graph := session.graph.dropEdgesOf (uuid.str actionId)
  { session with
    graph := { graph with actions := graph.actions.erase actionId }
    loadedDeleted := session.loadedDeleted ||
      (session.loaded.contains actionId && decide (actionId ∈ graph.actions)) }

/-- The check on the source of a new edge. -/
def checkSource (payload : EdgePayload Id) : Except GraphError Unit :=
  match payload.sourceType with
  | .udf =>
      match uuid.parse payload.sourceId with
      | none => .error .databaseError
      | some sourceId =>
          if sourceId ∈ session.graph.actions then .ok ()
          else .error (.valueError s!"Source action {payload.sourceId} not found")
  | .trigger =>
      if payload.sourceId = session.graph.triggerId uuid then .ok ()
      else .error (.valueError
        s!"Invalid trigger ID: {payload.sourceId}, expected {session.graph.triggerId uuid}")

def checkTarget (targetId : Id) : Except GraphError Unit :=
  if targetId ∈ session.graph.actions then .ok ()
  else .error (.valueError s!"Target action {uuid.str targetId} not found")

/-- `_add_edge`. -/
def addEdge (payload : EdgePayload Id) : Except GraphError (GraphSession Id) := do
  session.checkSource uuid payload
  session.checkTarget uuid payload.targetId
  let newKey := edgeDedupKey payload.sourceId payload.sourceType payload.sourceHandle
  return session.write (session.graph.updateAction payload.targetId fun row =>
    { row with
      upstreamEdges :=
        row.upstreamEdges.filter (fun edge => edge.storedEdgeDedupKey ≠ some newKey) ++
          [EdgeData.ofKey newKey] })

/-- `_delete_edge`. -/
def deleteEdge (payload : EdgePayload Id) : Except GraphError (GraphSession Id) := do
  session.checkTarget uuid payload.targetId
  let targetKey := edgeDedupKey payload.sourceId payload.sourceType payload.sourceHandle
  return session.write (session.graph.updateAction payload.targetId fun row =>
    { row with
      upstreamEdges :=
        row.upstreamEdges.filter fun edge => edge.storedEdgeDedupKey ≠ some targetKey })

/-- One round of the loop of `_move_nodes`. -/
def moveNode (session : GraphSession Id) (pos : NodePosition) :
    Except GraphError (GraphSession Id) :=
  match pos.actionId, pos.x, pos.y with
  | some text, some x, some y =>
      match uuid.parse text with
      | none => .error .databaseError
      | some actionId =>
          .ok (session.write (session.graph.updateAction actionId fun row =>
            { row with position := ⟨x, y⟩ }))
  | _, _, _ => .ok session

/-- `_move_nodes`. -/
def moveNodes (positions : List NodePosition) : Except GraphError (GraphSession Id) :=
  positions.foldlM (moveNode uuid) session

/-- `session.add(workflow)`: the save cascades to the loaded actions, and a
deleted one cannot be saved. -/
def addWorkflow (graph : Graph Id) : Except GraphError (GraphSession Id) :=
  if session.loadedDeleted then .error .invalidRequestError
  else .ok (session.write graph)

/-- `_update_trigger_position`. -/
def updateTriggerPosition (position : Position) : Except GraphError (GraphSession Id) :=
  session.addWorkflow { session.graph with triggerPosition := position }

/-- `_update_viewport`. -/
def updateViewport (viewport : Viewport) : Except GraphError (GraphSession Id) :=
  session.addWorkflow { session.graph with viewport := viewport }

/-- `_apply_operation`. -/
def applyOperation (session : GraphSession Id) : GraphOperation Id →
    Except GraphError (GraphSession Id)
  | .addNode id payload => session.addNode id payload
  | .updateNode payload => .ok (session.updateNode payload)
  | .deleteNode actionId => .ok (session.deleteNode uuid actionId)
  | .addEdge payload => session.addEdge uuid payload
  | .deleteEdge payload => session.deleteEdge uuid payload
  | .moveNodes positions => session.moveNodes uuid positions
  | .updateTriggerPosition position => session.updateTriggerPosition position
  | .updateViewport viewport => session.updateViewport viewport
  | .malformed _ => .error .validationError

end GraphSession

/-- A call of `apply_operations`.  `commits` tells whether the database takes
the commit. -/
structure GraphBatch (Id : Type) where
  baseVersion : Int
  operations : List (GraphOperation Id)
  commits : Bool

namespace Graph

variable (graph : Graph Id) (uuid : UuidText Id)

/-- The transaction, once the workflow and its actions are loaded. -/
def openSession : GraphSession Id :=
  ⟨graph, graph.actions.entries.map Sigma.fst, false⟩

/-- `apply_operations`, as far as the rows it commits. -/
def applyOperations (batch : GraphBatch Id) : Except GraphError (Graph Id) :=
  if graph.graphVersion ≠ batch.baseVersion then
    .error (.versionConflict graph.graphVersion)
  else do
    let session ← batch.operations.foldlM (GraphSession.applyOperation uuid) graph.openSession
    let graphVersion :=
      if batch.operations.any GraphOperation.isStructural then session.graph.graphVersion + 1
      else session.graph.graphVersion
    if batch.commits then .ok { session.graph with graphVersion := graphVersion }
    else .error .databaseError

/-- The rows after a call: a transaction that raises is rolled back. -/
def afterBatch (batch : GraphBatch Id) : Graph Id :=
  match graph.applyOperations uuid batch with
  | .ok next => next
  | .error _ => graph

end Graph

end Tracecat
