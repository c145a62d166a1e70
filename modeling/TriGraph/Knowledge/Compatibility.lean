import TriGraph.Knowledge

/-!
# Compatibility

Two contexts hold together unless an edge declares them incompatible or, where no refinement settles it, their
intervals or places exclude each other. Two instances are related by a common concept, an edge or any common property.
-/

namespace TriGraph

def Constraint.leading (type : Option String) (a b : String) : Constraint :=
  let ends := Constraint.equals "target.id" (.text b) (Constraint.equals "source.id" (.text a) [])
  match type with
  | some type => Constraint.equals "type" (.text type) ends
  | none => ends

namespace Store

def linked (type : Option String) (a b : String) (s : Store) : Bool :=
  !(s.findEdges (Constraint.leading type a b)).isEmpty

def joined (type : Option String) (a b : String) (s : Store) : Bool :=
  s.linked type a b || s.linked type b a

end Store

namespace Knowledge

/-! ## Contexts -/

/-- An unbounded interval meets every other. -/
def intervalsMeet (a b : Node) : Bool :=
  match a.property? Contexts.startTime, a.property? Contexts.endTime,
      b.property? Contexts.startTime, b.property? Contexts.endTime with
  | some startA, some endA, some startB, some endB => !(endA.less startB || endB.less startA)
  | _, _, _, _ => true

def placesAgree (a b : Node) : Bool :=
  a.property? Contexts.location == b.property? Contexts.location

def contextsCompatible (k : Knowledge) (a b : Node) : Bool :=
  let s := k.graphs.contexts
  if s.joined (some Contexts.incompatibleWith) a.id b.id then false
  else if s.joined (some Contexts.refines) a.id b.id then true
  else if a.type ≠ b.type then true
  else
    match ContextKind.ofNode a with
    | .temporal => intervalsMeet a b
    | .spatial => placesAgree a b
    | _ => true

/-! ## Concepts and instances -/

def conceptsCompatible (_k : Knowledge) (_a _b : Node) : Bool :=
  true

def shareProperty (a b : Node) : Bool :=
  a.properties.any fun (name, v) => b.property? name == some v

def instancesRelated (k : Knowledge) (a b : Node) : Bool :=
  a.property? Instances.conceptId == b.property? Instances.conceptId
    || k.graphs.instances.joined none a.id b.id
    || shareProperty a b

end Knowledge

end TriGraph
