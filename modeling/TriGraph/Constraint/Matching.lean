import TriGraph.Constraint
import TriGraph.Entity

/-!
# Matching

A path walks from an entity over its attributes and then through property bags and objects by name. A plain key is
looked up among the properties before the attributes, save for id and type. What leads nowhere satisfies no predicate.
-/

namespace TriGraph

abbrev NodeLookup := String → Option Node

/-! ## Places on a walk -/

inductive Place where
  | entity (e : Entity)
  | bag (ps : Properties)
  | value (v : Value)

namespace Place

def ofText (s : String) : Place :=
  .value (.text s)

def attribute? (find : NodeLookup) (name : String) (e : Entity) : Option Place :=
  match name, e with
  | "id", e => some (ofText e.id)
  | "type", e => some (ofText e.type)
  | "properties", e => some (.bag e.properties)
  | "source", .edge e => (find e.source).map fun n => .entity (.node n)
  | "target", .edge e => (find e.target).map fun n => .entity (.node n)
  | _, _ => none

def step? (find : NodeLookup) (segment : String) : Place → Option Place
  | .entity e => attribute? find segment e
  | .bag ps => (Catalog.get? segment ps).map .value
  | .value (.object fields) => (Catalog.get? segment fields).map .value
  | .value _ => none

def walk? (find : NodeLookup) : List String → Place → Option Place
  | [], p => some p
  | s :: ss, p => (p.step? find s).bind (walk? find ss)

def toValue : Place → Value
  | .entity e => .text e.id
  | .bag ps => .object ps
  | .value v => v

end Place

/-! ## Keys -/

def fieldValue? (find : NodeLookup) (e : Entity) (key : String) : Option Value :=
  if key = "id" then some (.text e.id)
  else if key = "type" then some (.text e.type)
  else
    match Catalog.get? key e.properties with
    | some v => some v
    | none => (Place.attribute? find key e).map Place.toValue

def pathValue? (find : NodeLookup) (e : Entity) (segments : List String) : Option Value :=
  ((Place.entity e).walk? find segments).map Place.toValue

def holdsAt (p : Predicate) : Option Value → Bool
  | some v => p.test v
  | none => false

/-! ## Clauses and constraints -/

def hasProperties (e : Entity) (expected : List (String × Value)) : Bool :=
  expected.all fun (name, v) =>
    match Catalog.get? name e.properties with
    | some actual => actual == v
    | none => false

mutual
def Clause.holds (find : NodeLookup) (e : Entity) : Clause → Bool
  | .all subs => allHold find e subs
  | .any subs => anyHolds find e subs
  | .path segments p => holdsAt p (pathValue? find e segments)
  | .field key p => holdsAt p (fieldValue? find e key)
  | .properties expected => hasProperties e expected
def clausesHold (find : NodeLookup) (e : Entity) : List Clause → Bool
  | [] => true
  | c :: cs => c.holds find e && clausesHold find e cs
def allHold (find : NodeLookup) (e : Entity) : List (List Clause) → Bool
  | [] => true
  | s :: ss => clausesHold find e s && allHold find e ss
def anyHolds (find : NodeLookup) (e : Entity) : List (List Clause) → Bool
  | [] => false
  | s :: ss => clausesHold find e s || anyHolds find e ss
end

def Constraint.matches (find : NodeLookup) (c : Constraint) (e : Entity) : Bool :=
  clausesHold find e c

end TriGraph
