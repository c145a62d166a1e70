import TriGraph.Adjunction

/-!
# Knowledge

A question put to the three graphs may consult adjunctions, and what these answer for the first time is added to a
memo, also when the question fails later. So a question is a computation over a memo that may end in an error.
-/

namespace TriGraph

structure Knowledge where
  graphs : Graphs := {}
  adjunctions : Catalog String Adjunction := []

namespace Knowledge

/-! ## Errors -/

inductive Error where
  | unknownGraph (name : String)
  | unknownAdjunction (name : String)
  | directionMismatch (adjunction : String) (side : Adjoint) (expected actual : Layer)
  | graph (e : Store.Error)

def Error.message : Error → String
  | .unknownGraph name => s!"Unknown graph: {name}"
  | .unknownAdjunction name => s!"Adjunction {name} not found"
  | .directionMismatch adjunction side expected actual =>
    s!"Adjunction {adjunction} cannot step {side.name} from the {actual.name} graph " ++
      s!"(expects {expected.name})"
  | .graph e => "Graph error: " ++ e.message

/-! ## Questions -/

abbrev Recall (α : Type) := ExceptT Error (StateM Memo) α

def store (k : Knowledge) (l : Layer) : Store :=
  k.graphs.store l

def node? (k : Knowledge) (l : Layer) (id : String) : Option Node :=
  (k.store l).node? id

def adjunction? (k : Knowledge) (name : String) : Option Adjunction :=
  Catalog.get? name k.adjunctions

def layer (name : String) : Except Error Layer :=
  match Layer.parse name with
  | .ok l => .ok l
  | .error _ => .error (.unknownGraph name)

def require (k : Knowledge) (name : String) : Recall Adjunction :=
  match k.adjunction? name with
  | some a => pure a
  | none => throw (.unknownAdjunction name)

def apply (k : Knowledge) (a : Adjunction) (side : Adjoint) (id : String) : Recall (Option String) :=
  modifyGet (a.apply side k.graphs id)

def mapped? (k : Knowledge) (name : String) (l : Layer) (id : String) : Recall (Option Node) := do
  let a ← k.require name
  return (← k.apply a .left id).bind (k.node? l)

end Knowledge

end TriGraph
