import TriGraph.Adjunction
import TriGraph.Adjunction.Ranking

/-!
# The built-in adjunctions

Six adjunctions join the layers pairwise. Each mapping takes the first or the best of the fitting nodes.
-/

namespace TriGraph.Builtin

def instantiation : String := "instantiation"
def classification : String := "classification"
def contextualization : String := "contextualization"
def exemplification : String := "exemplification"
def interpretation : String := "interpretation"
def applicability : String := "applicability"

def timestamp : String := "timestamp"

/-! ## Shared notions -/

def firstId (ns : List Node) : Option String :=
  ns.head?.map (·.id)

def flagged (name : String) (n : Node) : Bool :=
  match n.property? name with
  | some v => v.truthy
  | none => false

def numberOf? (name : String) (n : Node) : Option Float :=
  (n.property? name).bind Value.number?

def interval? (context : Node) : Option (Float × Float) :=
  match numberOf? Contexts.startTime context, numberOf? Contexts.endTime context with
  | some first, some last => some (first, last)
  | _, _ => none

def within (first last t : Float) : Bool :=
  Number.atMost first t && Number.atMost t last

def isAt (place : Value) (n : Node) : Bool :=
  n.property? Contexts.location == some place

def flagOf? : ContextKind → Option String
  | .temporal => some "temporal"
  | .spatial => some "spatial"
  | _ => none

/-! ## Concepts and entities -/

def entityOfConcept : Mapping := fun g concept =>
  firstId (Instances.ofConcept concept.id g.instances)

def conceptOfEntity : Mapping := fun g entity =>
  match entity.property? Instances.conceptId with
  | some (.text concept) => if concept.isEmpty then none else (g.ontology.node? concept).map (·.id)
  | _ => none

/-! ## Entities and contexts, by time and place -/

def during (time : Value) : Constraint :=
  Constraint.withAll
    [Constraint.compare "properties.startTime" .lte time [],
      Constraint.compare "properties.endTime" .gte time []]
    (Constraint.equals "type" (.text ContextKind.temporalType) [])

def placedAt (place : Value) : Constraint :=
  Constraint.equals "properties.location" place
    (Constraint.equals "type" (.text ContextKind.spatialType) [])

def contextsFor (g : Graphs) (c : Value → Constraint) : Option Value → List Node
  | some v => g.contexts.findNodes (c v)
  | none => []

def contextOfEntity : Mapping := fun g entity =>
  firstId (contextsFor g during (entity.property? timestamp)
    ++ contextsFor g placedAt (entity.property? Contexts.location))

def membership? (context : Node) : Option Constraint :=
  match ContextKind.ofNode context with
  | .spatial =>
    (context.property? Contexts.location).map fun place =>
      Constraint.equals "properties.location" place []
  | .temporal =>
    match context.property? Contexts.startTime, context.property? Contexts.endTime with
    | some first, some last =>
      some (Constraint.withAll
        [Constraint.compare "properties.timestamp" .gte first [],
          Constraint.compare "properties.timestamp" .lte last []] [])
    | _, _ => none
  | _ => none

def entityOfContext : Mapping := fun g context =>
  (membership? context).bind fun c => firstId (g.instances.findNodes c)

/-! ## Entities and contexts, by score -/

def middle (first last : Float) : Float :=
  (first + last) / 2.0

def clampUnit (x : Float) : Float :=
  if Number.less x 0.0 then 0.0 else if Number.less 1.0 x then 1.0 else x

/-- How near a time is to the middle of an interval: 1 in the middle, 0 at the ends. -/
def centrality (first last t : Float) : Float :=
  let half := (last - first) / 2.0
  if Number.less 0.0 half then 1.0 - (t - middle first last).abs / half else 1.0

def entityScore? (first last : Float) (entity : Node) : Option (Node × Float) :=
  (numberOf? timestamp entity).bind fun t =>
    if within first last t then some (entity, clampUnit (centrality first last t)) else none

def exemplars (g : Graphs) (context : Node) : List (Node × Float) :=
  match ContextKind.ofNode context with
  | .temporal =>
    match interval? context with
    | some (first, last) => g.instances.allNodes.filterMap (entityScore? first last)
    | none => []
  | .spatial =>
    match context.property? Contexts.location with
    | some place => (g.instances.allNodes.filter (isAt place)).map (·, 1.0)
    | none => []
  | _ => []

def exemplarOfContext : Mapping := fun g context =>
  (Ranking.best? (exemplars g context)).map (·.id)

/-- The score of a temporal context for a time, higher in the middle and in short contexts. -/
def contextScore? (t : Float) (context : Node) : Option (Node × Float) :=
  (interval? context).bind fun (first, last) =>
    let width := last - first
    if within first last t && Number.less 0.0 width then
      let near := 1.0 - (t - middle first last).abs / (width / 2.0)
      some (context, near / width)
    else none

/-- The contexts that an entity exemplifies, with their scores. -/
def exemplified (g : Graphs) (entity : Node) : List (Node × Float) :=
  let byTime := match numberOf? timestamp entity with
    | some t => (g.contexts.nodesOfType ContextKind.temporalType).filterMap (contextScore? t)
    | none => []
  let byPlace := match entity.property? Contexts.location with
    | some place => ((g.contexts.nodesOfType ContextKind.spatialType).filter (isAt place)).map (·, 0.8)
    | none => []
  byTime ++ byPlace

def exemplifiedByEntity : Mapping := fun g entity =>
  (Ranking.best? (exemplified g entity)).map (·.id)

/-! ## Contexts and concepts -/

def flaggedConcepts (flag : String) : Constraint :=
  Constraint.equals ("properties." ++ flag) (.bool true)
    (Constraint.equals "type" (.text Ontology.conceptType) [])

def conceptOfContext : Mapping := fun g context =>
  let marked := match flagOf? (ContextKind.ofNode context) with
    | some flag => firstId (g.ontology.findNodes (flaggedConcepts flag))
    | none => none
  match marked with
  | some id => some id
  | none => firstId (g.ontology.nodesOfType Ontology.conceptType)

def contextsOfConcept (g : Graphs) (concept : Node) : List Node :=
  (if flagged "temporal" concept then g.contexts.nodesOfType ContextKind.temporalType else [])
    ++ (if flagged "spatial" concept then g.contexts.nodesOfType ContextKind.spatialType else [])

def contextOfConcept : Mapping := fun g concept =>
  match firstId (contextsOfConcept g concept) with
  | some id => some id
  | none => firstId g.contexts.allNodes

/-! ## The six adjunctions -/

def adjunctions : List Adjunction :=
  [⟨instantiation, .ontology, .instances, entityOfConcept, conceptOfEntity⟩,
    ⟨classification, .instances, .ontology, conceptOfEntity, entityOfConcept⟩,
    ⟨contextualization, .instances, .contexts, contextOfEntity, entityOfContext⟩,
    ⟨exemplification, .contexts, .instances, exemplarOfContext, exemplifiedByEntity⟩,
    ⟨interpretation, .contexts, .ontology, conceptOfContext, contextOfConcept⟩,
    ⟨applicability, .ontology, .contexts, contextOfConcept, conceptOfContext⟩]

end TriGraph.Builtin
