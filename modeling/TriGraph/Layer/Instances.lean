import TriGraph.Store

/-!
# The instance layer

What the caller passes as concept or relation type wins over a property of the same name.
-/

namespace TriGraph.Instances

def entityType : String := "Entity"
def relationType : String := "RELATION"
def conceptId : String := "conceptId"
def relationTypeId : String := "relationTypeId"

def new : Store :=
  Store.new "Instance"
    [("entity_type", Index.new .hash .nodes [.nodeProperty conceptId]),
      ("relation_index", Index.new .hash .edges [.edgeType])]

def entity (id concept : String) (properties : Properties) : Node :=
  { id, type := entityType, properties := Catalog.insert conceptId (.text concept) properties }

def relation (id source type target : String) (properties : Properties) : Edge :=
  { id, source, target, type := relationType
    properties := Catalog.insert relationTypeId (.text type) properties }

def ofConcept (concept : String) (s : Store) : List Node :=
  s.findNodes (Constraint.equals "properties.conceptId" (.text concept) [])

def relationsOfType (type : String) (s : Store) : List Edge :=
  s.findEdges (Constraint.equals "properties.relationTypeId" (.text type) [])

end TriGraph.Instances
