import TriGraph.Adjunction.Builtin
import TriGraph.Knowledge

/-!
# Trinities

A trinity is named knowledge with the memo of its adjunctions. Its writes check that what they refer to is there
before they change anything, and leave the memo alone, which may go stale until it is cleared.
-/

namespace TriGraph

structure Trinity where
  name : String
  knowledge : Knowledge := {}
  memo : Memo := []

namespace Trinity

/-! ## State -/

def graphs (t : Trinity) : Graphs :=
  t.knowledge.graphs

def setStore (l : Layer) (s : Store) (t : Trinity) : Trinity :=
  { t with knowledge.graphs := t.knowledge.graphs.setStore l s }

def mapStore (l : Layer) (f : Store → Store) (t : Trinity) : Trinity :=
  t.setStore l (f (t.graphs.store l))

def ask {α : Type} (q : Knowledge → Knowledge.Recall α) (t : Trinity) :
    Except Knowledge.Error α × Trinity :=
  let (x, memo) := (q t.knowledge).run t.memo
  (x, { t with memo })

/-! ## Adjunctions -/

def register (a : Adjunction) (t : Trinity) : Trinity :=
  { t with
    knowledge.adjunctions := Catalog.insert a.name a t.knowledge.adjunctions
    memo := t.memo.forget a.name }

def registerAll (adjunctions : List Adjunction) (t : Trinity) : Trinity :=
  adjunctions.foldl (fun t a => t.register a) t

def new (name : String) : Trinity :=
  ({ name } : Trinity).registerAll Builtin.adjunctions

def refresh (t : Trinity) : Trinity :=
  { t with memo := [] }

def forget (name : String) (t : Trinity) : Trinity :=
  { t with memo := t.memo.forget name }

def remembered? (name : String) (side : Adjoint) (id : String) (t : Trinity) : Option String :=
  t.memo.remembered? ⟨name, side, id⟩

/-! ## Writing -/

def requireNodes (s : Store) (edge : String) (ids : List String) : Except Knowledge.Error Unit :=
  match ids.find? fun id => !s.hasNode id with
  | some id => .error (.graph (.missingEndpoint edge id))
  | none => .ok ()

def addEdge (l : Layer) (e : Edge) (t : Trinity) : Except Knowledge.Error Trinity :=
  match (t.graphs.store l).addEdge e with
  | .ok s => .ok (t.setStore l s)
  | .error err => .error (.graph err)

def linkIsA (source target : String) (s : Store) : Store :=
  (s.addEdge (Ontology.isAEdge source target)).toOption.getD s

def createConcept (id : String) (properties : Properties) (parents : List String) (t : Trinity) :
    Except Knowledge.Error Trinity := do
  parents.forM fun parent =>
    requireNodes t.graphs.ontology (Ontology.isAEdge id parent).id [parent]
  return t.mapStore .ontology fun s =>
    parents.foldl (fun s parent => linkIsA id parent s) (s.addNode (Ontology.concept id properties))

def createRelationType (id : String) (properties : Properties) (domain range : Option String)
    (t : Trinity) : Except Knowledge.Error Trinity := do
  requireNodes t.graphs.ontology id (domain.toList ++ range.toList)
  return t.mapStore .ontology fun s =>
    let s := s.addNode (Ontology.relation id properties)
    match domain, range with
    | some domain, some range =>
      match Ontology.defineRelationship domain id range s with
      | some (_, s) => s
      | none => s
    | _, _ => s

def createContext (id : String) (kind : ContextKind) (properties : Properties) (t : Trinity) :
    Trinity :=
  t.mapStore .contexts (·.addNode (Contexts.context id kind properties))

def relateContexts (source target type : String) (properties : Properties) (t : Trinity) :
    Except Knowledge.Error Trinity :=
  t.addEdge .contexts (Contexts.relation source target type properties)

def createEntity (id concept : String) (properties : Properties) (t : Trinity) : Trinity :=
  t.mapStore .instances (·.addNode (Instances.entity id concept properties))

def createRelation (id source type target : String) (properties : Properties) (t : Trinity) :
    Except Knowledge.Error Trinity :=
  t.addEdge .instances (Instances.relation id source type target properties)

def createIndex (graph name : String) (kind : Index.Kind) (paths : List String) (t : Trinity) :
    Except Knowledge.Error Trinity := do
  let l ← Knowledge.layer graph
  match (t.graphs.store l).createIndex name kind paths with
  | .ok s => return t.setStore l s
  | .error e => throw (.graph e)

end Trinity

end TriGraph
