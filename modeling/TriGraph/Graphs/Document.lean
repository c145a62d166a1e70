import TriGraph.Entity.Document
import TriGraph.Graphs

/-!
# Exported graphs

The records of all nodes and edges of each layer in the order of the store.
-/

namespace TriGraph

def Store.toDocument (s : Store) : Document :=
  .object [("nodes", .list (s.allNodes.map Node.toDocument)),
    ("edges", .list (s.allEdges.map Edge.toDocument))]

def Graphs.toDocument (g : Graphs) : Document :=
  .object (Layer.all.map fun l => (l.name, (g.store l).toDocument))

end TriGraph
