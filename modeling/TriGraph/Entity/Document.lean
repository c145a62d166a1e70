import TriGraph.Entity
import TriGraph.Value.Document
import TriGraph.Document.Fields

/-!
# Nodes and edges as records

Properties may be left out when a record is read; they are always written.
-/

namespace TriGraph

open Document (required withDefault text?)

namespace Node

def fieldNames : List String :=
  ["id", "type", "properties"]

def toDocument (n : Node) : Document :=
  .object [("id", .text n.id), ("type", .text n.type), ("properties", n.properties.toDocument)]

def ofDocument? (d : Document) : Option Node :=
  match d.fields? fieldNames with
  | some [id, type, properties] => do
    let id ← required text? id
    let type ← required text? type
    let properties ← withDefault [] Properties.ofDocument? properties
    some { id, type, properties }
  | _ => none

end Node

namespace Edge

def fieldNames : List String :=
  ["id", "source", "target", "type", "properties"]

def toDocument (e : Edge) : Document :=
  .object [("id", .text e.id), ("source", .text e.source), ("target", .text e.target),
    ("type", .text e.type), ("properties", e.properties.toDocument)]

def ofDocument? (d : Document) : Option Edge :=
  match d.fields? fieldNames with
  | some [id, source, target, type, properties] => do
    let id ← required text? id
    let source ← required text? source
    let target ← required text? target
    let type ← required text? type
    let properties ← withDefault [] Properties.ofDocument? properties
    some { id, source, target, type, properties }
  | _ => none

end Edge

def Entity.toDocument : Entity → Document
  | .node n => n.toDocument
  | .edge e => e.toDocument

end TriGraph
