import TriGraph.Seed

/-!
# Writes in place

A write changes its store step by step and then says how it went. Nothing takes back the steps that were made before a
failure, so it depends on the order of checks and changes whether a write that fails leaves anything behind.
-/

namespace TriGraph

namespace Store.InPlace

/-! ## Steps -/

def addToIndexes (e : Entity) : StateM Store Unit :=
  modify (·.mapIndexes (·.add e))

def removeFromIndexes (e : Entity) : StateM Store Unit :=
  modify (·.mapIndexes (·.remove e))

def putNode (id : String) (n : Node) : StateM Store Unit :=
  modify fun s => { s with nodes := s.nodes.put id n }

def putEdge (id : String) (e : Edge) : StateM Store Unit :=
  modify fun s => { s with edges := s.edges.put id e }

def updateNode (id : String) (f : Node → Node) : StateM Store Unit :=
  modify fun s => { s with nodes := s.nodes.update id f }

def updateEdge (id : String) (f : Edge → Edge) : StateM Store Unit :=
  modify fun s => { s with edges := s.edges.update id f }

/-! ## Entities -/

def addNode (n : Node) : StateM Store Unit := do
  match (← get).node? n.id with
  | some former => removeFromIndexes (.node former)
  | none => pure ()
  addToIndexes (.node n)
  putNode n.id n

def addEdge (e : Edge) : StateM Store (Except Error Edge) := do
  let s ← get
  match [e.source, e.target].find? fun id => !s.hasNode id with
  | some id => return .error (.missingEndpoint e.id id)
  | none =>
    match s.edge? e.id with
    | some former => removeFromIndexes (.edge former)
    | none => pure ()
    addToIndexes (.edge e)
    putEdge e.id e
    return .ok e

def removeEdge (id : String) : StateM Store Bool := do
  match (← get).edge? id with
  | none => return false
  | some e =>
    modify fun s => { s with edges := s.edges.remove id }
    removeFromIndexes (.edge e)
    return true

/-- The edges are gone by the time that the node is taken out, and that may fail once more. -/
def removeNode (id : String) : StateM Store Bool := do
  let s ← get
  if s.hasNode id then
    ((s.allEdges.filter (·.touches id)).map (·.id)).forM fun e => discard (removeEdge e)
    match (← get).node? id with
    | none => return false
    | some n =>
      modify fun s => { s with nodes := s.nodes.remove id }
      removeFromIndexes (.node n)
      return true
  else return false

def setNodeProperty (id name : String) (v : Value) : StateM Store Bool := do
  match (← get).node? id with
  | none => return false
  | some n =>
    removeFromIndexes (.node n)
    updateNode id (·.setProperty name v)
    addToIndexes (.node (n.setProperty name v))
    return true

def setEdgeProperty (id name : String) (v : Value) : StateM Store Bool := do
  match (← get).edge? id with
  | none => return false
  | some e =>
    removeFromIndexes (.edge e)
    updateEdge id (·.setProperty name v)
    addToIndexes (.edge (e.setProperty name v))
    return true

def link (e : Edge) : StateM Store (Option Edge) := do
  return (← addEdge e).toOption

def identity (id : String) : StateM Store (Option Edge) := do
  let s ← get
  match s.node? id with
  | none => return none
  | some n =>
    let type := identityType n.type
    match s.allEdges.find? fun e => e.isLoop && e.source == id && e.type == type with
    | some e => return s.edge? e.id
    | none => link { id := "identity_" ++ id, source := id, target := id, type }

/-! ## Indexes -/

def createIndex (name : String) (kind : Index.Kind) (paths : List String) : StateM Store (Except Error Unit) := do
  if Catalog.contains name (← get).indexes then return .error (.duplicateIndex name)
  else
    match Index.build kind paths with
    | .error e => return .error (.index e)
    | .ok i =>
      let filled := ((← get).entities i.target).foldl Index.add i
      modify fun s => { s with indexes := Catalog.insert name filled s.indexes }
      return .ok ()

end Store.InPlace

/-! ## Layers -/

open Store.InPlace

namespace Ontology.InPlace

def defineIsA (source target : String) : StateM Store (Option Edge) :=
  link (isAEdge source target)

def defineHasProperty (concept property : String) : StateM Store (Option Edge) :=
  link (hasPropertyEdge concept property)

def defineRelationship (source relation target : String) : StateM Store (List Edge) := do
  let s ← get
  if [source, relation, target].any fun id => !s.hasNode id then return []
  else [domainEdge source relation, rangeEdge relation target].filterMapM link

end Ontology.InPlace

namespace Contexts.InPlace

def relate (source target type : String) (properties : Properties) : StateM Store (Option Edge) :=
  link (relation source target type properties)

def refine (general specific : String) (properties : Properties) : StateM Store (Option Edge) :=
  relate specific general refines properties

end Contexts.InPlace

namespace Instances.InPlace

def relate (id source type target : String) (properties : Properties) : StateM Store (Option Edge) :=
  link (relation id source type target properties)

end Instances.InPlace

/-! ## Trinities -/

namespace Trinity.InPlace

def onStore {α : Type} (l : Layer) (write : StateM Store α) : StateM Trinity α := do
  let (x, s) := write.run ((← get).graphs.store l)
  modify (·.setStore l s)
  return x

def createConcept (id : String) (properties : Properties) (parents : List String) :
    StateM Trinity (Except Knowledge.Error String) := do
  let s := (← get).graphs.ontology
  match parents.forM fun parent => requireNodes s (Ontology.isAEdge id parent).id [parent] with
  | .error e => return .error e
  | .ok () =>
    onStore .ontology (addNode (Ontology.concept id properties))
    parents.forM fun parent => discard (onStore .ontology (Ontology.InPlace.defineIsA id parent))
    return .ok id

def createRelationType (id : String) (properties : Properties) (domain range : Option String) :
    StateM Trinity (Except Knowledge.Error String) := do
  match requireNodes (← get).graphs.ontology id (domain.toList ++ range.toList) with
  | .error e => return .error e
  | .ok () =>
    onStore .ontology (addNode (Ontology.relation id properties))
    match domain, range with
    | some domain, some range =>
      discard (onStore .ontology (Ontology.InPlace.defineRelationship domain id range))
    | _, _ => pure ()
    return .ok id

def relate (l : Layer) (e : Edge) : StateM Trinity (Except Knowledge.Error Edge) := do
  match requireNodes ((← get).graphs.store l) e.id [e.source, e.target] with
  | .error err => return .error err
  | .ok () =>
    match ← onStore l (link e) with
    | some e => return .ok e
    | none => return .error (.graph (.missingEndpoint e.id e.source))

def relateContexts (source target type : String) (properties : Properties) :
    StateM Trinity (Except Knowledge.Error Edge) :=
  relate .contexts (Contexts.relation source target type properties)

def createRelation (id source type target : String) (properties : Properties) :
    StateM Trinity (Except Knowledge.Error Edge) :=
  relate .instances (Instances.relation id source type target properties)

def createIndex (graph name : String) (kind : Index.Kind) (paths : List String) :
    StateM Trinity (Except Knowledge.Error Unit) := do
  match Knowledge.layer graph with
  | .error e => return .error e
  | .ok l => return (← onStore l (Store.InPlace.createIndex name kind paths)).mapError .graph

end Trinity.InPlace

/-! ## Seeds -/

namespace Seed

abbrev Write := StateM Trinity (Except Knowledge.Error Unit)

def ConceptItem.write (i : ConceptItem) : Write :=
  return (← Trinity.InPlace.createConcept i.id i.properties i.parents).map fun _ => ()

def RelationTypeItem.write (i : RelationTypeItem) : Write :=
  return (← Trinity.InPlace.createRelationType i.id i.properties i.domain i.range).map fun _ => ()

def ContextItem.write (i : ContextItem) : Write := do
  Trinity.InPlace.onStore .contexts (addNode (Contexts.context i.id i.kind i.properties))
  return .ok ()

def ContextRelationItem.write (i : ContextRelationItem) : Write :=
  return (← Trinity.InPlace.relateContexts i.source i.target i.type i.properties).map fun _ => ()

def EntityItem.write (i : EntityItem) : Write := do
  Trinity.InPlace.onStore .instances (addNode (Instances.entity i.id i.concept i.properties))
  return .ok ()

def RelationItem.write (fresh : String) (i : RelationItem) : Write :=
  return (← Trinity.InPlace.createRelation (i.id.getD fresh) i.source i.type i.target i.properties).map fun _ => ()

def IndexItem.write (i : IndexItem) : Write :=
  Trinity.InPlace.createIndex i.layer.name i.name i.kind i.paths

def writes (fresh : Nat → String) (s : Seed) : List Write :=
  s.concepts.map ConceptItem.write
    ++ s.relationTypes.map RelationTypeItem.write
    ++ s.contexts.map ContextItem.write
    ++ s.contextRelations.map ContextRelationItem.write
    ++ s.entities.map EntityItem.write
    ++ s.relations.zipIdx.map (fun (i, n) => i.write (fresh n))
    ++ s.indexes.map IndexItem.write

namespace InPlace

/-- The first write that fails ends the run. -/
def takeWrites : List Write → Write
  | [] => return .ok ()
  | w :: ws => do
    match ← w with
    | .error e => return .error e
    | .ok () => takeWrites ws

def apply (fresh : Nat → String) (s : Seed) : Write := do
  match ← takeWrites (s.writes fresh) with
  | .error e => return .error e
  | .ok () =>
    modify Trinity.refresh
    return .ok ()

end InPlace

end Seed

end TriGraph
