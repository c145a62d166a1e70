import TriGraph.Trinity

/-!
# Seeds

A seed is applied item by item, section by section. What an item refers to has to be there before it. The first item
that fails ends the application, and what was applied before it stays; if none fails, what the adjunctions have
answered is forgotten.
-/

namespace TriGraph

namespace Seed

structure ConceptItem where
  id : String
  properties : Properties := []
  parents : List String := []

structure RelationTypeItem where
  id : String
  properties : Properties := []
  domain : Option String := none
  range : Option String := none

structure ContextItem where
  id : String
  kind : ContextKind
  properties : Properties := []

structure ContextRelationItem where
  source : String
  target : String
  type : String
  properties : Properties := []

structure EntityItem where
  id : String
  concept : String
  properties : Properties := []

structure RelationItem where
  id : Option String := none
  source : String
  type : String
  target : String
  properties : Properties := []

structure IndexItem where
  layer : Layer
  name : String
  kind : Index.Kind
  paths : List String

end Seed

open Seed in
structure Seed where
  name : String := "TKG"
  concepts : List ConceptItem := []
  relationTypes : List RelationTypeItem := []
  contexts : List ContextItem := []
  contextRelations : List ContextRelationItem := []
  entities : List EntityItem := []
  relations : List RelationItem := []
  indexes : List IndexItem := []

namespace Seed

/-! ## Steps -/

abbrev Step := Trinity → Except Knowledge.Error Trinity

def ConceptItem.step (i : ConceptItem) : Step :=
  Trinity.createConcept i.id i.properties i.parents

def RelationTypeItem.step (i : RelationTypeItem) : Step :=
  Trinity.createRelationType i.id i.properties i.domain i.range

def ContextItem.step (i : ContextItem) : Step :=
  fun t => .ok (t.createContext i.id i.kind i.properties)

def ContextRelationItem.step (i : ContextRelationItem) : Step :=
  Trinity.relateContexts i.source i.target i.type i.properties

def EntityItem.step (i : EntityItem) : Step :=
  fun t => .ok (t.createEntity i.id i.concept i.properties)

def RelationItem.step (fresh : String) (i : RelationItem) : Step :=
  Trinity.createRelation (i.id.getD fresh) i.source i.type i.target i.properties

def IndexItem.step (i : IndexItem) : Step :=
  Trinity.createIndex i.layer.name i.name i.kind i.paths

/-- `fresh n` is the id for the relation at place `n` if that has none. -/
def steps (fresh : Nat → String) (s : Seed) : List Step :=
  s.concepts.map ConceptItem.step
    ++ s.relationTypes.map RelationTypeItem.step
    ++ s.contexts.map ContextItem.step
    ++ s.contextRelations.map ContextRelationItem.step
    ++ s.entities.map EntityItem.step
    ++ s.relations.zipIdx.map (fun (i, n) => i.step (fresh n))
    ++ s.indexes.map IndexItem.step

/-! ## Application -/

/-- The trinity as it is when a step has failed or none is left, and the error if there is one. -/
def takeSteps : List Step → Trinity → Trinity × Option Knowledge.Error
  | [], t => (t, none)
  | f :: fs, t =>
    match f t with
    | .ok t => takeSteps fs t
    | .error e => (t, some e)

def apply (fresh : Nat → String) (s : Seed) (t : Trinity) : Trinity × Option Knowledge.Error :=
  match takeSteps (s.steps fresh) t with
  | (t, none) => (t.refresh, none)
  | (t, some e) => (t, some e)

def build (fresh : Nat → String) (s : Seed) : Except Knowledge.Error Trinity :=
  match s.apply fresh (Trinity.new s.name) with
  | (t, none) => .ok t
  | (_, some e) => .error e

end Seed

end TriGraph
