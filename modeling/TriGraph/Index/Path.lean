import TriGraph.Entity
import TriGraph.Index.Key

/-!
# Index paths

A path names what an index takes from an entity. The paths of one index are all over the same kind of entity.
-/

namespace TriGraph.Index

/-! ## Errors -/

inductive Error where
  | emptyPaths
  | invalidPath (path : String)
  | mixedTargets (path : String)
  | unknownKind (kind : String)

def Error.message : Error → String
  | .emptyPaths => "Index needs at least one property path"
  | .invalidPath path => s!"Unsupported index path: {path}"
  | .mixedTargets path => s!"Index path {path} targets a different entity kind than the first path"
  | .unknownKind kind => s!"Unknown index kind: {kind}"

/-! ## Kinds -/

inductive Kind where
  | hash
  | ordered
deriving DecidableEq, Repr

namespace Kind

def name : Kind → String
  | .hash => "hash"
  | .ordered => "ordered"

def ofName? : String → Option Kind
  | "hash" => some .hash
  | "ordered" => some .ordered
  | "btree" => some .ordered
  | _ => none

def parse (s : String) : Except Error Kind :=
  match ofName? s.toLower with
  | some k => .ok k
  | none => .error (.unknownKind s)

end Kind

/-! ## Paths -/

inductive Path where
  | nodeType
  | nodeProperty (name : String)
  | edgeType
  | edgeProperty (name : String)
deriving DecidableEq, Repr

namespace Path

def target : Path → EntityKind
  | .nodeType => .nodes
  | .nodeProperty _ => .nodes
  | .edgeType => .edges
  | .edgeProperty _ => .edges

def text : Path → String
  | .nodeType => "node.type"
  | .nodeProperty name => s!"node.properties.{name}"
  | .edgeType => "edge.type"
  | .edgeProperty name => s!"edge.properties.{name}"

def rest? (start s : String) : Option String :=
  if start.toList.isPrefixOf s.toList && start.length < s.length then
    some (String.ofList (s.toList.drop start.length))
  else none

def parse (s : String) : Except Error Path :=
  if s = "node.type" then .ok .nodeType
  else if s = "edge.type" then .ok .edgeType
  else
    match rest? "node.properties." s, rest? "edge.properties." s with
    | some name, _ => .ok (.nodeProperty name)
    | none, some name => .ok (.edgeProperty name)
    | none, none => .error (.invalidPath s)

def key? : Path → Entity → Option Key
  | .nodeType, .node n => some (.text n.type)
  | .nodeProperty name, .node n => (Catalog.get? name n.properties).bind Key.ofValue?
  | .edgeType, .edge e => some (.text e.type)
  | .edgeProperty name, .edge e => (Catalog.get? name e.properties).bind Key.ofValue?
  | _, _ => none

def parseAll (ss : List String) : Except Error (EntityKind × List Path) := do
  let paths ← ss.mapM parse
  match paths with
  | [] => throw .emptyPaths
  | p :: _ =>
    match paths.find? (fun q => q.target != p.target) with
    | some stray => throw (.mixedTargets stray.text)
    | none => return (p.target, paths)

end Path

end TriGraph.Index
