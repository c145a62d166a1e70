import TriGraph.Store

/-!
# The ontological layer

The superconcepts of a concept are what `IS_A` edges reach, its subconcepts what reaches it, nearest first.
-/

namespace TriGraph.Ontology

def conceptType : String := "Concept"
def relationType : String := "Relation"
def propertyType : String := "Property"

def isA : String := "IS_A"
def hasProperty : String := "HAS_PROPERTY"
def domain : String := "DOMAIN"
def range : String := "RANGE"

def new : Store :=
  Store.new "Ontological"
    [("concept_hierarchy", Index.new .ordered .edges [.edgeType]),
      ("concept_properties", Index.new .hash .edges [.edgeType])]

/-! ## Nodes -/

def concept (id : String) (properties : Properties) : Node :=
  { id, type := conceptType, properties }

def relation (id : String) (properties : Properties) : Node :=
  { id, type := relationType, properties }

def property (id : String) (properties : Properties) : Node :=
  { id, type := propertyType, properties }

/-! ## Links -/

def isAEdge (source target : String) : Edge :=
  { id := source ++ "_ISA_" ++ target, source, target, type := isA }

def hasPropertyEdge (concept property : String) : Edge :=
  { id := concept ++ "_HAS_PROPERTY_" ++ property, source := concept, target := property
    type := hasProperty }

def domainEdge (source relation : String) : Edge :=
  { id := source ++ "_DOMAIN_" ++ relation, source, target := relation, type := domain }

def rangeEdge (relation target : String) : Edge :=
  { id := relation ++ "_RANGE_" ++ target, source := relation, target, type := range }

def defineRelationship (source relation target : String) (s : Store) : Option (List Edge × Store) :=
  if [source, relation, target].all (s.hasNode ·) then
    let d := domainEdge source relation
    let r := rangeEdge relation target
    match s.addEdge d with
    | .ok s =>
      match s.addEdge r with
      | .ok s => some ([d, r], s)
      | .error _ => none
    | .error _ => none
  else none

/-! ## The concept hierarchy -/

def neighbours (s : Store) (along : Bool) (id : String) : List String :=
  if along then ((s.edgesAt id .outgoing).filter (·.type == isA)).map (·.target)
  else ((s.edgesAt id .incoming).filter (·.type == isA)).map (·.source)

def unvisited (s : Store) (visited : List String) : List String :=
  s.nodes.ids.filter fun id => !visited.contains id

theorem unvisited_cons_lt {s : Store} {visited : List String} {id : String} (h : s.hasNode id = true)
    (hv : ¬ visited.contains id = true) :
    (unvisited s (id :: visited)).length < (unvisited s visited).length := by
  have hmem : id ∈ s.nodes.ids := Table.mem_ids_of_contains h
  have hsub : unvisited s (id :: visited) = (unvisited s visited).filter (· != id) := by
    unfold unvisited
    rw [List.filter_filter]
    congr 1
    funext x
    by_cases hx : x = id <;> simp [hx]
  rw [hsub]
  refine Nat.lt_of_le_of_ne (List.length_filter_le _ _) fun he => ?_
  have hall := List.length_filter_eq_length_iff.mp he id
    (by simp only [unvisited, List.mem_filter]; exact ⟨hmem, by simpa using hv⟩)
  simp at hall

/-- Breadth-first walk over the queued ids. -/
def walk (s : Store) (along : Bool) (visited : List String) : List String → List String
  | [] => []
  | id :: queue =>
    if _h : s.hasNode id = true ∧ ¬ visited.contains id = true then
      id :: walk s along (id :: visited) (queue ++ neighbours s along id)
    else walk s along visited queue
termination_by queue => ((unvisited s visited).length, queue.length)
decreasing_by
  · exact Prod.Lex.left _ _ (unvisited_cons_lt _h.1 _h.2)
  · exact Prod.Lex.right _ (by simp)

def reached (s : Store) (along : Bool) (start : String) : List Node :=
  ((walk s along [] [start]).filter (· != start)).filterMap (s.node? ·)

def superconcepts (id : String) (s : Store) : List Node :=
  reached s true id

def subconcepts (id : String) (s : Store) : List Node :=
  reached s false id

end TriGraph.Ontology
