import TriGraph.Document.Fields
import TriGraph.Document.Shape
import TriGraph.Seed
import TriGraph.Value.Document

/-!
# Seeds as documents

Whatever has a default may be left out when a seed is read, and is written all the same.
-/

namespace TriGraph.Seed

open Document (required withDefault optional listOf text? caseName? texts ofOption)

/-! ## Fields -/

def conceptFields : List (String × Shape) :=
  [("id", .text), ("properties", .properties), ("parents", .list .text)]

def relationTypeFields : List (String × Shape) :=
  [("id", .text), ("properties", .properties), ("domain", .optionalText), ("range", .optionalText)]

def contextFields : List (String × Shape) :=
  [("id", .text), ("kind", .text), ("properties", .properties)]

def contextRelationFields : List (String × Shape) :=
  [("source", .text), ("target", .text), ("type", .text), ("properties", .properties)]

def entityFields : List (String × Shape) :=
  [("id", .text), ("concept", .text), ("properties", .properties)]

def relationFields : List (String × Shape) :=
  [("id", .optionalText), ("source", .text), ("type", .text), ("target", .text),
    ("properties", .properties)]

def indexFields : List (String × Shape) :=
  [("graph", .caseName), ("name", .text), ("kind", .caseName), ("paths", .list .text)]

def fields : List (String × Shape) :=
  [("name", .text),
    ("concepts", .list (.record conceptFields)),
    ("relation_types", .list (.record relationTypeFields)),
    ("contexts", .list (.record contextFields)),
    ("context_relations", .list (.record contextRelationFields)),
    ("entities", .list (.record entityFields)),
    ("relations", .list (.record relationFields)),
    ("indexes", .list (.record indexFields))]

def names (fields : List (String × Shape)) : List String :=
  fields.map (·.1)

def shape : Shape :=
  .record fields

/-! ## Items -/

namespace ConceptItem

def toDocument (i : ConceptItem) : Document :=
  .object [("id", .text i.id), ("properties", i.properties.toDocument), ("parents", texts i.parents)]

def ofDocument? (d : Document) : Option ConceptItem :=
  match d.fields? (names conceptFields) with
  | some [id, properties, parents] => do
    let id ← required text? id
    let properties ← withDefault [] Properties.ofDocument? properties
    let parents ← withDefault [] (listOf text?) parents
    some { id, properties, parents }
  | _ => none

end ConceptItem

namespace RelationTypeItem

def toDocument (i : RelationTypeItem) : Document :=
  .object [("id", .text i.id), ("properties", i.properties.toDocument),
    ("domain", ofOption .text i.domain), ("range", ofOption .text i.range)]

def ofDocument? (d : Document) : Option RelationTypeItem :=
  match d.fields? (names relationTypeFields) with
  | some [id, properties, domain, range] => do
    let id ← required text? id
    let properties ← withDefault [] Properties.ofDocument? properties
    let domain ← optional text? domain
    let range ← optional text? range
    some { id, properties, domain, range }
  | _ => none

end RelationTypeItem

namespace ContextItem

def toDocument (i : ContextItem) : Document :=
  .object [("id", .text i.id), ("kind", .text i.kind.name), ("properties", i.properties.toDocument)]

def ofDocument? (d : Document) : Option ContextItem :=
  match d.fields? (names contextFields) with
  | some [id, kind, properties] => do
    let id ← required text? id
    let kind ← required text? kind
    let properties ← withDefault [] Properties.ofDocument? properties
    some { id, kind := ContextKind.ofName kind, properties }
  | _ => none

end ContextItem

namespace ContextRelationItem

def toDocument (i : ContextRelationItem) : Document :=
  .object [("source", .text i.source), ("target", .text i.target), ("type", .text i.type),
    ("properties", i.properties.toDocument)]

def ofDocument? (d : Document) : Option ContextRelationItem :=
  match d.fields? (names contextRelationFields) with
  | some [source, target, type, properties] => do
    let source ← required text? source
    let target ← required text? target
    let type ← required text? type
    let properties ← withDefault [] Properties.ofDocument? properties
    some { source, target, type, properties }
  | _ => none

end ContextRelationItem

namespace EntityItem

def toDocument (i : EntityItem) : Document :=
  .object [("id", .text i.id), ("concept", .text i.concept), ("properties", i.properties.toDocument)]

def ofDocument? (d : Document) : Option EntityItem :=
  match d.fields? (names entityFields) with
  | some [id, concept, properties] => do
    let id ← required text? id
    let concept ← required text? concept
    let properties ← withDefault [] Properties.ofDocument? properties
    some { id, concept, properties }
  | _ => none

end EntityItem

namespace RelationItem

def toDocument (i : RelationItem) : Document :=
  .object [("id", ofOption .text i.id), ("source", .text i.source), ("type", .text i.type),
    ("target", .text i.target), ("properties", i.properties.toDocument)]

def ofDocument? (d : Document) : Option RelationItem :=
  match d.fields? (names relationFields) with
  | some [id, source, type, target, properties] => do
    let id ← optional text? id
    let source ← required text? source
    let type ← required text? type
    let target ← required text? target
    let properties ← withDefault [] Properties.ofDocument? properties
    some { id, source, type, target, properties }
  | _ => none

end RelationItem

namespace IndexItem

def toDocument (i : IndexItem) : Document :=
  .object [("graph", .text i.layer.name), ("name", .text i.name), ("kind", .text i.kind.name),
    ("paths", texts i.paths)]

def ofDocument? (d : Document) : Option IndexItem :=
  match d.fields? (names indexFields) with
  | some [graph, name, kind, paths] => do
    let graph ← required caseName? graph
    let layer ← Layer.ofName? graph
    let name ← required text? name
    let kind ← required caseName? kind
    let kind ← Index.Kind.ofName? kind
    let paths ← required (listOf text?) paths
    some { layer, name, kind, paths }
  | _ => none

end IndexItem

/-! ## Seeds -/

def itemList {α : Type} (write : α → Document) (items : List α) : Document :=
  .list (items.map write)

def toDocument (s : Seed) : Document :=
  .object [("name", .text s.name),
    ("concepts", itemList ConceptItem.toDocument s.concepts),
    ("relation_types", itemList RelationTypeItem.toDocument s.relationTypes),
    ("contexts", itemList ContextItem.toDocument s.contexts),
    ("context_relations", itemList ContextRelationItem.toDocument s.contextRelations),
    ("entities", itemList EntityItem.toDocument s.entities),
    ("relations", itemList RelationItem.toDocument s.relations),
    ("indexes", itemList IndexItem.toDocument s.indexes)]

def ofDocument? (d : Document) : Option Seed :=
  match d.fields? (names fields) with
  | some [name, concepts, relationTypes, contexts, contextRelations, entities, relations, indexes] => do
    let name ← withDefault "TKG" text? name
    let concepts ← withDefault [] (listOf ConceptItem.ofDocument?) concepts
    let relationTypes ← withDefault [] (listOf RelationTypeItem.ofDocument?) relationTypes
    let contexts ← withDefault [] (listOf ContextItem.ofDocument?) contexts
    let contextRelations ← withDefault [] (listOf ContextRelationItem.ofDocument?) contextRelations
    let entities ← withDefault [] (listOf EntityItem.ofDocument?) entities
    let relations ← withDefault [] (listOf RelationItem.ofDocument?) relations
    let indexes ← withDefault [] (listOf IndexItem.ofDocument?) indexes
    some { name, concepts, relationTypes, contexts, contextRelations, entities, relations, indexes }
  | _ => none

end TriGraph.Seed
