import TriGraph.Value

/-!
# Nodes and edges

The identity of a node is its id and type, that of an edge its id, endpoints and type: properties do not count.
-/

namespace TriGraph

structure Node where
  id : String
  type : String
  properties : Properties := []

structure Edge where
  id : String
  source : String
  target : String
  type : String
  properties : Properties := []

/-! ## Nodes -/

namespace Node

def property? (name : String) (n : Node) : Option Value :=
  Catalog.get? name n.properties

def setProperty (name : String) (v : Value) (n : Node) : Node :=
  { n with properties := Catalog.insert name v n.properties }

def same (a b : Node) : Bool :=
  a.id == b.id && a.type == b.type

end Node

/-! ## Edges -/

namespace Edge

def setProperty (name : String) (v : Value) (e : Edge) : Edge :=
  { e with properties := Catalog.insert name v e.properties }

def same (a b : Edge) : Bool :=
  a.id == b.id && a.source == b.source && a.target == b.target && a.type == b.type

def touches (id : String) (e : Edge) : Bool :=
  e.source == id || e.target == id

def isLoop (e : Edge) : Bool :=
  e.source == e.target

end Edge

/-! ## Directions -/

inductive Direction where
  | outgoing
  | incoming
  | both
deriving DecidableEq, Repr

namespace Direction

def name : Direction → String
  | .outgoing => "outgoing"
  | .incoming => "incoming"
  | .both => "both"

def ofName? : String → Option Direction
  | "outgoing" => some .outgoing
  | "incoming" => some .incoming
  | "both" => some .both
  | _ => none

def parse (s : String) : Except String Direction :=
  match ofName? s.toLower with
  | some d => .ok d
  | none => .error ("unknown direction: " ++ s.toLower)

def admits (id : String) (e : Edge) : Direction → Bool
  | .outgoing => e.source == id
  | .incoming => e.target == id
  | .both => e.touches id

end Direction

/-! ## Entities of either kind -/

inductive EntityKind where
  | nodes
  | edges
deriving DecidableEq, Repr

def EntityKind.name : EntityKind → String
  | .nodes => "nodes"
  | .edges => "edges"

inductive Entity where
  | node (n : Node)
  | edge (e : Edge)

namespace Entity

def id : Entity → String
  | .node n => n.id
  | .edge e => e.id

def type : Entity → String
  | .node n => n.type
  | .edge e => e.type

def properties : Entity → Properties
  | .node n => n.properties
  | .edge e => e.properties

def kind : Entity → EntityKind
  | .node _ => .nodes
  | .edge _ => .edges

end Entity

end TriGraph
