import TriGraph.Layer
import TriGraph.Layer.Contexts
import TriGraph.Layer.Instances
import TriGraph.Layer.Ontology

/-!
# The three graphs

One store for each layer, with the indexes that the layer comes with.
-/

namespace TriGraph

structure Graphs where
  ontology : Store := Ontology.new
  instances : Store := Instances.new
  contexts : Store := Contexts.new

namespace Graphs

def store (g : Graphs) : Layer → Store
  | .ontology => g.ontology
  | .instances => g.instances
  | .contexts => g.contexts

def setStore (l : Layer) (s : Store) (g : Graphs) : Graphs :=
  match l with
  | .ontology => { g with ontology := s }
  | .instances => { g with instances := s }
  | .contexts => { g with contexts := s }

end Graphs

end TriGraph
