import TriGraph.Notice
import TriGraph.Seed

/-!
# Notices of seeds

An item that fails writes nothing, and all that would come after it stays untold.
-/

namespace TriGraph

namespace Seed

/-! ## Items -/

def ConceptItem.notices (i : ConceptItem) : List Notice :=
  .nodeAdded .ontology (Ontology.concept i.id i.properties)
    :: i.parents.map fun parent => .edgeAdded .ontology (Ontology.isAEdge i.id parent)

def RelationTypeItem.notices (i : RelationTypeItem) : List Notice :=
  .nodeAdded .ontology (Ontology.relation i.id i.properties)
    :: match i.domain, i.range with
      | some domain, some range =>
        [.edgeAdded .ontology (Ontology.domainEdge domain i.id),
          .edgeAdded .ontology (Ontology.rangeEdge i.id range)]
      | _, _ => []

def ContextItem.notices (i : ContextItem) : List Notice :=
  [.nodeAdded .contexts (Contexts.context i.id i.kind i.properties)]

def ContextRelationItem.notices (i : ContextRelationItem) : List Notice :=
  [.edgeAdded .contexts (Contexts.relation i.source i.target i.type i.properties)]

def EntityItem.notices (i : EntityItem) : List Notice :=
  [.nodeAdded .instances (Instances.entity i.id i.concept i.properties)]

def RelationItem.notices (fresh : String) (i : RelationItem) : List Notice :=
  [.edgeAdded .instances (Instances.relation (i.id.getD fresh) i.source i.type i.target i.properties)]

def IndexItem.notices (i : IndexItem) : List Notice :=
  [.indexCreated i.layer i.name i.kind]

/-! ## Building -/

def stepNotices (fresh : Nat → String) (s : Seed) : List (List Notice) :=
  s.concepts.map ConceptItem.notices
    ++ s.relationTypes.map RelationTypeItem.notices
    ++ s.contexts.map ContextItem.notices
    ++ s.contextRelations.map ContextRelationItem.notices
    ++ s.entities.map EntityItem.notices
    ++ s.relations.zipIdx.map (fun (i, n) => i.notices (fresh n))
    ++ s.indexes.map IndexItem.notices

def sizes (s : Seed) : Notice :=
  { level := .info, message := "seed applied",
    fields := [("trinity", s.name), ("concepts", toString s.concepts.length),
      ("relation_types", toString s.relationTypes.length),
      ("contexts", toString s.contexts.length), ("entities", toString s.entities.length),
      ("relations", toString s.relations.length), ("indexes", toString s.indexes.length)] }

def tell (last : List Notice) : List (Step × List Notice) → Trinity → List Notice
  | [], _ => last
  | (f, ns) :: rest, t =>
    match f t with
    | .ok t => ns ++ tell last rest t
    | .error _ => []

def notices (fresh : Nat → String) (s : Seed) : List Notice :=
  Builtin.adjunctions.map (.registered s.name)
    ++ tell [s.sizes] ((s.steps fresh).zip (s.stepNotices fresh)) (Trinity.new s.name)

end Seed

end TriGraph
