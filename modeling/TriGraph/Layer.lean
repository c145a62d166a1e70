import TriGraph.Store

/-!
# Layers

Knowledge is held in three graph stores, one for concepts, one for entities and one for contexts.
-/

namespace TriGraph

inductive Layer where
  | ontology
  | instances
  | contexts
deriving DecidableEq, Repr

namespace Layer

def all : List Layer :=
  [.ontology, .instances, .contexts]

def name : Layer → String
  | .ontology => "ontological"
  | .instances => "instance"
  | .contexts => "context"

def ofName? : String → Option Layer
  | "ontological" => some .ontology
  | "instance" => some .instances
  | "context" => some .contexts
  | _ => none

def parse (s : String) : Except String Layer :=
  match ofName? s.toLower with
  | some l => .ok l
  | none => .error ("unknown graph: " ++ s.toLower)

end Layer

end TriGraph
