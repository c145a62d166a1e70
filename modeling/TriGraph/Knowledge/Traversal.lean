import TriGraph.Entity.Document
import TriGraph.Knowledge

/-!
# Traversals

A traversal follows a plan from layer to layer. It ends early where a step leads nowhere, and fails where a step does
not leave from the layer that it has come to; a fault behind the end of the walk goes unseen.
-/

namespace TriGraph

structure TraversalStep where
  adjunction : String
  side : Adjoint
deriving DecidableEq, Repr

namespace TraversalStep

/-! ## Texts and documents of steps -/

inductive Error where
  | noColon (text : String)
  | noName (text : String)
  | adjoint (message : String)

def Error.message : Error → String
  | .noColon text => s!"expected <adjunction>:<left|right>, got {text}"
  | .noName text => s!"missing adjunction name in {text}"
  | .adjoint message => message

def parse (s : String) : Except Error TraversalStep :=
  match s.toList.dropWhile (· ≠ ':') with
  | [] => .error (.noColon s)
  | _ :: side =>
    let adjunction := String.ofList (s.toList.takeWhile (· ≠ ':'))
    if adjunction.isEmpty then .error (.noName s)
    else
      match Adjoint.parse (String.ofList side) with
      | .ok side => .ok { adjunction, side }
      | .error message => .error (.adjoint message)

def toDocument (s : TraversalStep) : Document :=
  .object [("adjunction", .text s.adjunction), ("direction", .text s.side.name)]

def ofDocument? (d : Document) : Option TraversalStep :=
  match d.fields? ["adjunction", "direction"] with
  | some [adjunction, side] => do
    let adjunction ← Document.required Document.text? adjunction
    let side ← Document.required Document.caseName? side
    some { adjunction, side := ← Adjoint.ofName? side }
  | _ => none

end TraversalStep

/-! ## Walks -/

/-- The node is absent if a mapping named an id that its layer does not hold. -/
structure Waypoint where
  layer : Layer
  id : String
  node : Option Node

namespace Waypoint

def toDocument (w : Waypoint) : Document :=
  .object [("graph", .text w.layer.name), ("nodeId", .text w.id),
    ("node", Document.ofOption Node.toDocument w.node)]

end Waypoint

namespace Knowledge

def waypoint (k : Knowledge) (l : Layer) (id : String) : Waypoint :=
  { layer := l, id, node := k.node? l id }

def follow (k : Knowledge) (l : Layer) (id : String) : List TraversalStep → Recall (List Waypoint)
  | [] => return []
  | s :: ss => do
    let a ← k.require s.adjunction
    if a.start s.side ≠ l then
      throw (.directionMismatch s.adjunction s.side (a.start s.side) l)
    match ← k.apply a s.side id with
    | none => return []
    | some next =>
      let rest ← k.follow (a.finish s.side) next ss
      return k.waypoint (a.finish s.side) next :: rest

def traverse (k : Knowledge) (graph id : String) (plan : List TraversalStep) :
    Recall (List Waypoint) := do
  let l ← layer graph
  if (k.store l).hasNode id then
    let rest ← k.follow l id plan
    return k.waypoint l id :: rest
  else return []

end Knowledge

end TriGraph
