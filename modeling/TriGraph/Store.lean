import TriGraph.Constraint.Matching
import TriGraph.Index
import TriGraph.Table

/-!
# Graph stores

Edges refer to nodes by id, and an edge is only taken in while both its endpoints are there; removing a node removes
its edges first. Every write brings all indexes up to date. A write that is refused returns no store.
-/

namespace TriGraph

structure Store where
  name : String
  nodes : Table Node := {}
  edges : Table Edge := {}
  indexes : Catalog String Index := []

namespace Store

/-! ## Errors -/

inductive Error where
  | missingEndpoint (edge node : String)
  | duplicateIndex (name : String)
  | indexNotFound (name : String)
  | notOrdered (name : String)
  | index (e : Index.Error)

def Error.message : Error → String
  | .missingEndpoint edge node => s!"Edge {edge} references missing node {node}"
  | .duplicateIndex name => s!"Index already exists: {name}"
  | .indexNotFound name => s!"Index not found: {name}"
  | .notOrdered name => s!"Index {name} does not support range lookups"
  | .index e => "Index error: " ++ e.message

/-! ## Contents -/

def new (name : String) (indexes : List (String × Index)) : Store :=
  { name, indexes := Catalog.ofList indexes }

def node? (id : String) (s : Store) : Option Node :=
  Table.get? id s.nodes

def edge? (id : String) (s : Store) : Option Edge :=
  Table.get? id s.edges

def hasNode (id : String) (s : Store) : Bool :=
  Table.contains id s.nodes

def allNodes (s : Store) : List Node :=
  s.nodes.values

def allEdges (s : Store) : List Edge :=
  s.edges.values

def entities (s : Store) : EntityKind → List Entity
  | .nodes => s.allNodes.map .node
  | .edges => s.allEdges.map .edge

/-! ## Writing -/

def mapIndexes (f : Index → Index) (s : Store) : Store :=
  { s with indexes := s.indexes.map fun (name, i) => (name, f i) }

def unindex (e : Option Entity) (s : Store) : Store :=
  match e with
  | some e => s.mapIndexes (·.remove e)
  | none => s

def addNode (n : Node) (s : Store) : Store :=
  let s := s.unindex ((s.node? n.id).map .node)
  let s := s.mapIndexes (·.add (.node n))
  { s with nodes := s.nodes.put n.id n }

def addEdge (e : Edge) (s : Store) : Except Error Store :=
  if !s.hasNode e.source then .error (.missingEndpoint e.id e.source)
  else if !s.hasNode e.target then .error (.missingEndpoint e.id e.target)
  else
    let s := s.unindex ((s.edge? e.id).map .edge)
    let s := s.mapIndexes (·.add (.edge e))
    .ok { s with edges := s.edges.put e.id e }

def removeEdge (id : String) (s : Store) : Option Store :=
  (s.edge? id).map fun e =>
    { s with edges := s.edges.remove id }.mapIndexes (·.remove (.edge e))

def removeEdges : List String → Store → Store
  | [], s => s
  | id :: ids, s => removeEdges ids ((s.removeEdge id).getD s)

def removeNode (id : String) (s : Store) : Option Store :=
  (s.node? id).map fun n =>
    let s := s.removeEdges ((s.allEdges.filter (·.touches id)).map (·.id))
    { s with nodes := s.nodes.remove id }.mapIndexes (·.remove (.node n))

def setNodeProperty (id name : String) (v : Value) (s : Store) : Option Store :=
  (s.node? id).map fun n =>
    let m := n.setProperty name v
    let s := (s.mapIndexes (·.remove (.node n))).mapIndexes (·.add (.node m))
    { s with nodes := s.nodes.put id m }

def setEdgeProperty (id name : String) (v : Value) (s : Store) : Option Store :=
  (s.edge? id).map fun e =>
    let f := e.setProperty name v
    let s := (s.mapIndexes (·.remove (.edge e))).mapIndexes (·.add (.edge f))
    { s with edges := s.edges.put id f }

def identityType (type : String) : String :=
  "identity_" ++ type

def identity (id : String) (s : Store) : Option (Edge × Store) := do
  let n ← s.node? id
  let type := identityType n.type
  match s.allEdges.find? fun e => e.isLoop && e.source == id && e.type == type with
  | some e => (s.edge? e.id).map (·, s)
  | none =>
    let e : Edge := { id := "identity_" ++ id, source := id, target := id, type }
    match s.addEdge e with
    | .ok s => some (e, s)
    | .error _ => none

/-! ## Scans -/

def nodesOfType (type : String) (s : Store) : List Node :=
  s.allNodes.filter (·.type == type)

def edgesOfType (type : String) (s : Store) : List Edge :=
  s.allEdges.filter (·.type == type)

/-- None if the node is absent. -/
def edgesAt (id : String) (d : Direction) (s : Store) : List Edge :=
  if s.hasNode id then s.allEdges.filter (d.admits id) else []

def holds (c : Constraint) (e : Entity) (s : Store) : Bool :=
  c.matches (fun id => s.node? id) e

def findNodes (c : Constraint) (s : Store) : List Node :=
  s.allNodes.filter fun n => s.holds c (.node n)

def findEdges (c : Constraint) (s : Store) : List Edge :=
  s.allEdges.filter fun e => s.holds c (.edge e)

/-! ## Indexes -/

def createIndex (name : String) (kind : Index.Kind) (paths : List String) (s : Store) :
    Except Error Store :=
  if Catalog.contains name s.indexes then .error (.duplicateIndex name)
  else
    match Index.build kind paths with
    | .error e => .error (.index e)
    | .ok i => .ok { s with indexes := Catalog.insert name (i.rebuilt (s.entities i.target)) s.indexes }

def index? (name : String) (s : Store) : Option Index :=
  Catalog.get? name s.indexes

def indexNames (s : Store) : List String :=
  Catalog.keys s.indexes

def isCurrent (i : Index) (s : Store) : Bool :=
  i.buckets == (i.rebuilt (s.entities i.target)).buckets

def requireIndex (name : String) (s : Store) : Except Error Index :=
  match s.index? name with
  | some i => .ok i
  | none => .error (.indexNotFound name)

def nodesByIndex (name : String) (k : Index.Key) (s : Store) : Except Error (List Node) := do
  let i ← s.requireIndex name
  return (i.lookup .nodes k).filterMap (s.node? ·)

def edgesByIndex (name : String) (k : Index.Key) (s : Store) : Except Error (List Edge) := do
  let i ← s.requireIndex name
  return (i.lookup .edges k).filterMap (s.edge? ·)

def rangeIds (name : String) (kind : EntityKind) (lo hi : Index.Key) (s : Store) :
    Except Error (List String) := do
  let i ← s.requireIndex name
  match i.range? kind lo hi with
  | some ids => return ids
  | none => throw (.notOrdered name)

def nodesInRange (name : String) (lo hi : Index.Key) (s : Store) : Except Error (List Node) := do
  return (← s.rangeIds name .nodes lo hi).filterMap (s.node? ·)

def edgesInRange (name : String) (lo hi : Index.Key) (s : Store) : Except Error (List Edge) := do
  return (← s.rangeIds name .edges lo hi).filterMap (s.edge? ·)

end Store

end TriGraph
