import TriGraph.Store

/-!
# The context layer

A context is temporal, spatial, a perspective or of a kind of its own, and its node's type tells which.
-/

namespace TriGraph

inductive ContextKind where
  | temporal
  | spatial
  | perspective
  | custom (name : String)
deriving DecidableEq, Repr

namespace ContextKind

def temporalType : String := "TemporalContext"
def spatialType : String := "SpatialContext"
def perspectiveType : String := "PerspectiveContext"

def nodeType : ContextKind → String
  | .temporal => temporalType
  | .spatial => spatialType
  | .perspective => perspectiveType
  | .custom name => name

/-- All other names are kinds of their own. -/
def ofName (s : String) : ContextKind :=
  match s.toLower with
  | "temporal" => .temporal
  | "temporalcontext" => .temporal
  | "spatial" => .spatial
  | "spatialcontext" => .spatial
  | "perspective" => .perspective
  | "perspectivecontext" => .perspective
  | _ => .custom s

def name : ContextKind → String
  | .temporal => "temporal"
  | .spatial => "spatial"
  | .perspective => "perspective"
  | .custom name => name

def ofNode (n : Node) : ContextKind :=
  ofName n.type

end ContextKind

namespace Contexts

def refines : String := "REFINES"
def incompatibleWith : String := "INCOMPATIBLE_WITH"

def startTime : String := "startTime"
def endTime : String := "endTime"
def location : String := "location"
def perspective : String := "perspective"

def new : Store :=
  Store.new "Context"
    [("context_type", Index.new .hash .nodes [.nodeType]),
      ("context_hierarchy", Index.new .ordered .edges [.edgeType])]

/-! ## Nodes -/

def context (id : String) (kind : ContextKind) (properties : Properties) : Node :=
  { id, type := kind.nodeType, properties }

def temporal (id : String) (first last : Value) (properties : Properties) : Node :=
  context id .temporal (Catalog.insert endTime last (Catalog.insert startTime first properties))

def spatial (id place : String) (properties : Properties) : Node :=
  context id .spatial (Catalog.insert location (.text place) properties)

def viewpoint (id view : String) (properties : Properties) : Node :=
  context id .perspective (Catalog.insert perspective (.text view) properties)

/-! ## Relations -/

def relationId (source type target : String) : String :=
  source ++ "_" ++ type ++ "_" ++ target

def relation (source target type : String) (properties : Properties) : Edge :=
  { id := relationId source type target, source, target, type, properties }

def refinement (general specific : String) (properties : Properties) : Edge :=
  relation specific general refines properties

def compatible (id : String) (s : Store) : List Node :=
  if s.hasNode id then
    let excluded := (s.allEdges.filter fun e => e.type == incompatibleWith && e.source == id).map (·.target)
    s.allNodes.filter fun n => n.id != id && !excluded.contains n.id
  else []

end Contexts

end TriGraph
